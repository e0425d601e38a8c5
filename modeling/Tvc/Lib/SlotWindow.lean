import Mathlib.Data.List.Basic
import Mathlib.Logic.Function.Basic

/-!
# Windows of optional slots

A window is a function from slot numbers to optional entries, empty from some slot on. Its
entries are listed in slot order. Shifting a window splits that list, and filling a free slot
adds one entry to it, wherever the slot lies.
-/

namespace SlotWindow

variable {α : Type*} {u : ℕ → Option α} {n : ℕ}

/-- The entries in the first `n` slots, in slot order. -/
def entries (u : ℕ → Option α) (n : ℕ) : List α := (List.range n).filterMap u

theorem entries_succ (u : ℕ → Option α) (n : ℕ) : entries u (n + 1) = entries u n ++ (u n).toList := by
  rw [entries, List.range_succ, List.filterMap_append, entries]
  cases h : u n <;> simp [h]

/-- An entry lies in one of the slots. -/
theorem mem_entries {a : α} : a ∈ entries u n ↔ ∃ i < n, u i = some a := by
  simp [entries]

/-- A window without entries. -/
@[simp] theorem entries_empty (n : ℕ) : entries (fun _ => (none : Option α)) n = [] := by
  simp [entries]

/-- Slots beyond the window add no entries. -/
theorem entries_of_support (hempty : ∀ i, n ≤ i → u i = none) {m : ℕ} (h : n ≤ m) :
    entries u m = entries u n := by
  obtain ⟨k, rfl⟩ := Nat.exists_eq_add_of_le h
  induction k with
  | zero => rfl
  | succ k ih =>
    rw [← Nat.add_assoc, entries_succ, ih (by omega), hempty _ (by omega), Option.toList_none,
      List.append_nil]

/-- The entries of a window are those below a slot and those of the window shifted to it. -/
theorem entries_shift (hempty : ∀ i, n ≤ i → u i = none) (d : ℕ) :
    entries u n = entries u d ++ entries (fun j => u (j + d)) n := by
  have hshifted : ∀ i, n ≤ i → u (i + d) = none := fun i hi => hempty _ (by omega)
  have hsplit : entries u (d + n) = entries u d ++ entries (fun j => u (j + d)) n := by
    have hoffset : (u ∘ fun x => d + x) = fun j => u (j + d) := by
      funext j
      rw [Function.comp_apply, Nat.add_comm]
    rw [entries, List.range_add, List.filterMap_append, List.filterMap_map, hoffset, entries, entries]
  rw [← hsplit, entries_of_support hempty (Nat.le_add_left n d)]

/-- Filling a free slot of the window adds its entry. -/
theorem countP_entries_update {i : ℕ} (hi : i < n) (hfree : u i = none) (a : α) (p : α → Bool) :
    (entries (Function.update u i (some a)) n).countP p = (entries u n).countP p + (p a).toNat := by
  induction n with
  | zero => omega
  | succ n ih =>
    rw [entries_succ, entries_succ, List.countP_append, List.countP_append]
    by_cases hlast : i = n
    · subst hlast
      have hbelow : entries (Function.update u i (some a)) i = entries u i := by
        refine List.filterMap_congr fun j hj => ?_
        rw [Function.update_of_ne (Nat.ne_of_lt (List.mem_range.mp hj))]
      rw [hbelow, Function.update_self, hfree]
      cases hp : p a <;> simp [hp]
    · rw [ih (by omega), Function.update_of_ne (Ne.symm hlast)]
      omega

/-- The entries after filling a free slot of the window. -/
theorem mem_entries_update {i : ℕ} (hi : i < n) (hfree : u i = none) {a b : α} :
    b ∈ entries (Function.update u i (some a)) n ↔ b = a ∨ b ∈ entries u n := by
  simp only [mem_entries]
  constructor
  · rintro ⟨j, hj, hb⟩
    by_cases hij : j = i
    · subst hij
      rw [Function.update_self] at hb
      exact .inl (Option.some.inj hb).symm
    · rw [Function.update_of_ne hij] at hb
      exact .inr ⟨j, hj, hb⟩
  · rintro (rfl | ⟨j, hj, hb⟩)
    · exact ⟨i, hi, Function.update_self ..⟩
    · have hij : j ≠ i := by
        rintro rfl
        rw [hfree] at hb
        contradiction
      exact ⟨j, hj, by rw [Function.update_of_ne hij, hb]⟩

end SlotWindow
