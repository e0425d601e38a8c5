import Mathlib.Algebra.Order.Ring.Int
import Mathlib.Tactic.Common
import Mathlib.Tactic.Positivity

/-!
# Signed arithmetic that may not overflow

A signed integer of a fixed width is an integer in a range. An operation on such integers has a result if its
exact value is in the range, and none if it is not; the order of a computation decides which values must be.
-/

namespace Checked

variable {w : ℕ}

/-- The value is in the range of `w + 1` bits with a sign. -/
def Fits (w : ℕ) (v : ℤ) : Prop := -2 ^ w ≤ v ∧ v < 2 ^ w

instance (w : ℕ) (v : ℤ) : Decidable (Fits w v) := inferInstanceAs (Decidable (_ ∧ _))

/-- The signed integers of `w + 1` bits. -/
abbrev Signed (w : ℕ) := { v : ℤ // Fits w v }

/-- The result of an operation with an exact value. -/
def result (w : ℕ) (v : ℤ) : Option (Signed w) := if h : Fits w v then some ⟨v, h⟩ else none

/-- A value that fits is the result. -/
theorem result_of_fits {v : ℤ} (h : Fits w v) : result w v = some ⟨v, h⟩ := dif_pos h

/-- The result is the exact value. -/
theorem result_eq_some {v : ℤ} {r : Signed w} : result w v = some r ↔ r.1 = v := by
  unfold result
  split
  · rename_i h
    rw [Option.some.injEq, Subtype.ext_iff]
    exact eq_comm
  · rename_i h
    exact ⟨nofun, fun heq => absurd (heq ▸ r.2) h⟩

/-- What lies between two values that fit fits. -/
theorem Fits.between {a b v : ℤ} (ha : Fits w a) (hb : Fits w b) (hlow : a ≤ v) (hhigh : v ≤ b) : Fits w v :=
  ⟨ha.1.trans hlow, hhigh.trans_lt hb.2⟩

/-- No natural number below a value that fits leaves the range. -/
theorem Fits.natCast {n : ℕ} {b : ℤ} (hb : Fits w b) (h : (n : ℤ) ≤ b) : Fits w n :=
  ⟨(neg_nonpos.mpr (by positivity)).trans (Int.natCast_nonneg n), h.trans_lt hb.2⟩

end Checked
