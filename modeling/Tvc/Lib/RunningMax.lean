import Mathlib.Data.List.MinMax
import Mathlib.Data.List.Perm.Basic

/-!
# The running maximum of a list by a key

A scan that keeps one element and replaces it only by a strictly greater key ends with the
first element of greatest key, which is `List.argmax`. Two elements of different keys may be
scanned in either order, so with distinct keys the scan does not depend on the order at all.
-/

namespace RunningMax

variable {α β : Type*} [LinearOrder β]

/-- Keep the element seen so far unless the next one has a strictly greater key. -/
def pick (key : α → β) (best : Option α) (x : α) : Option α :=
  match best with
  | none => some x
  | some b => if key b < key x then some x else some b

@[simp] theorem pick_none (key : α → β) (x : α) : pick key none x = some x := rfl

theorem pick_some (key : α → β) (b x : α) :
    pick key (some b) x = if key b < key x then some x else some b := rfl

/-- A scanned element leaves something behind. -/
@[simp] theorem pick_isSome (key : α → β) (best : Option α) (x : α) : (pick key best x).isSome = true := by
  cases best with
  | none => rfl
  | some b =>
    rw [pick_some]
    split <;> rfl

/-- The result of one comparison is one of its two operands. -/
theorem mem_pick {key : α → β} {best : Option α} {x y : α} (h : y ∈ pick key best x) :
    y = x ∨ y ∈ best := by
  cases best with
  | none => exact .inl (Option.some.inj h).symm
  | some b =>
    rw [pick_some] at h
    split at h
    · exact .inl (Option.some.inj h).symm
    · exact .inr h

/-- The result of one comparison is at least both operands. -/
theorem le_of_mem_pick {key : α → β} {best : Option α} {x y : α} (h : y ∈ pick key best x) :
    key x ≤ key y ∧ ∀ b ∈ best, key b ≤ key y := by
  cases best with
  | none =>
    obtain rfl := Option.some.inj h
    exact ⟨le_rfl, by simp⟩
  | some b =>
    rw [pick_some] at h
    split at h
    · rename_i hlt
      obtain rfl := Option.some.inj h
      exact ⟨le_rfl, by simpa using hlt.le⟩
    · rename_i hge
      obtain rfl := Option.some.inj h
      exact ⟨not_lt.mp hge, by simp⟩

/-- The scan from nothing is the first element of greatest key. -/
theorem foldl_pick_none (key : α → β) (l : List α) : l.foldl (pick key) none = l.argmax key := by
  have hstep : pick key = List.argAux fun b c => key c < key b := by
    funext best x
    cases best <;> rfl
  rw [hstep]
  rfl

/-- The scan from an element seen before is the scan of the list with that element in front. -/
theorem foldl_pick (key : α → β) (best : Option α) (l : List α) :
    l.foldl (pick key) best = (best.toList ++ l).argmax key := by
  rw [← foldl_pick_none, List.foldl_append]
  cases best <;> rfl

/-- Two elements of different keys may be scanned in either order. -/
theorem pick_comm {key : α → β} {x y : α} (h : key x ≠ key y) (best : Option α) :
    pick key (pick key best x) y = pick key (pick key best y) x := by
  cases best with
  | none =>
    rcases lt_or_gt_of_ne h with hlt | hgt
    · simp [pick, hlt, not_lt_of_gt hlt]
    · simp [pick, hgt, not_lt_of_gt hgt]
  | some b =>
    by_cases hx : key b < key x <;> by_cases hy : key b < key y
    · rcases lt_or_gt_of_ne h with hlt | hgt
      · simp [pick, hx, hy, hlt, not_lt_of_gt hlt]
      · simp [pick, hx, hy, hgt, not_lt_of_gt hgt]
    · simp [pick, hx, hy, not_lt.mpr ((not_lt.mp hy).trans hx.le)]
    · simp [pick, hx, hy, not_lt.mpr ((not_lt.mp hx).trans hy.le)]
    · simp [pick, hx, hy]

/-- The same for comparisons that are made only under a condition of each element. -/
theorem pick_ite_comm {key : α → β} {x y : α} (h : key x ≠ key y) (p q : Bool) (best : Option α) :
    (if q then pick key (if p then pick key best x else best) y
      else if p then pick key best x else best) =
      if p then pick key (if q then pick key best y else best) x
      else if q then pick key best y else best := by
  cases p <;> cases q <;> simp [pick_comm h]

end RunningMax
