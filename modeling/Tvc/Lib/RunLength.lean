import Mathlib.Data.List.DropRight
import Mathlib.Data.List.Induction

/-!
# Run lengths

How many of the last elements of a list satisfy a test, and the saturating counter that keeps
track of it.
-/

namespace RunLength

variable {α : Type*} (p : α → Bool)

/-- The length of the longest suffix whose elements all satisfy the test. -/
def runLength (l : List α) : ℕ := (l.rtakeWhile p).length

/-- One more element extends the run or ends it. -/
theorem runLength_concat (l : List α) (x : α) :
    runLength p (l ++ [x]) = if p x then runLength p l + 1 else 0 := by
  unfold runLength
  rw [List.rtakeWhile_concat]
  split
  · rw [List.length_append, List.length_singleton]
  · rfl

/-- A run has a given length when that many of the last elements satisfy the test. -/
theorem le_runLength_iff (l : List α) (n : ℕ) :
    n ≤ runLength p l ↔ n ≤ l.length ∧ ∀ x ∈ l.rtake n, p x = true := by
  induction l using List.reverseRecOn generalizing n with
  | nil => simp [runLength]
  | append_singleton l x ih =>
    rw [runLength_concat]
    cases n with
    | zero => simp
    | succ n =>
      rw [List.rtake_concat_succ, List.length_append, List.length_singleton]
      by_cases hx : p x = true
      · rw [if_pos hx, Nat.add_le_add_iff_right, Nat.add_le_add_iff_right, ih]
        simp [hx, or_imp, forall_and]
      · rw [if_neg hx]
        simp [hx]

/-- A counter that stops at a limit and starts again when the test fails. -/
def count (limit n : ℕ) (hit : Bool) : ℕ := if hit then min (n + 1) limit else 0

/-- The counter holds the run length, up to its limit. -/
theorem count_runLength (limit : ℕ) (l : List α) (x : α) :
    count limit (min limit (runLength p l)) (p x) = min limit (runLength p (l ++ [x])) := by
  rw [runLength_concat, count]
  split
  · omega
  · rw [Nat.min_zero]

end RunLength
