import Mathlib.Data.BitVec
import Mathlib.Logic.Function.Iterate
import Mathlib.Tactic.Ring

/-!
# Counters that are mixed

A word is mixed by adding a shifted copy of itself and by multiplying it by a unit; neither loses anything. A counter
that is moved by a unit passes every word once before it comes back.
-/

namespace Mixing

variable {w : ℕ}

/-- A word with a shifted copy of itself added. -/
def fold (s : ℕ) (x : BitVec w) : BitVec w := x ^^^ x >>> s

/-- A word that a shift leaves is zero. -/
theorem eq_zero_of_shift {s : ℕ} (hs : 0 < s) {x : BitVec w} (h : x >>> s = x) : x = 0#w := by
  have hbit (k : ℕ) : ∀ i, w ≤ i + k → x.getLsbD i = false := by
    induction k with
    | zero => exact fun i hi => BitVec.getLsbD_of_ge x i hi
    | succ k ih =>
      intro i hi
      rw [← h, BitVec.getLsbD_ushiftRight]
      exact ih (s + i) (by omega)
  apply BitVec.eq_of_getLsbD_eq
  intro i _
  rw [hbit w i (by omega), BitVec.getLsbD_zero]

/-- Folding loses nothing. -/
theorem fold_injective {s : ℕ} (hs : 0 < s) : Function.Injective (fold s : BitVec w → BitVec w) := by
  intro x y h
  have hshift : (x ^^^ y) >>> s = x ^^^ y := by
    have hsum : x ^^^ y ^^^ (x ^^^ y) >>> s = 0#w := by
      calc x ^^^ y ^^^ (x ^^^ y) >>> s = x ^^^ x >>> s ^^^ (y ^^^ y >>> s) := by
            rw [BitVec.ushiftRight_xor_distrib]
            ac_rfl
        _ = 0#w := BitVec.xor_eq_zero_iff.mpr h
    exact (BitVec.xor_eq_zero_iff.mp hsum).symm
  exact BitVec.xor_eq_zero_iff.mp (eq_zero_of_shift hs hshift)

/-- Multiplying by a unit loses nothing. -/
theorem mul_injective {m k : BitVec w} (hunit : m * k = 1) : Function.Injective fun x : BitVec w => x * m := by
  intro x y h
  have h : x * m = y * m := h
  calc x = x * m * k := by rw [mul_assoc, hunit, mul_one]
    _ = y * m * k := by rw [h]
    _ = y := by rw [mul_assoc, hunit, mul_one]

/-- What loses nothing of a word reaches every word. -/
theorem bijective_of_injective {f : BitVec w → BitVec w} (h : Function.Injective f) : Function.Bijective f := by
  have : Finite (BitVec w) := Finite.of_injective BitVec.toFin BitVec.toFin_injective
  exact Finite.injective_iff_bijective.mp h

/-- A counter after some moves. -/
theorem iterate_add (step x : BitVec w) (n : ℕ) : (fun y => y + step)^[n] x = x + n * step := by
  induction n with
  | zero => simp
  | succ n ih =>
    rw [Function.iterate_succ_apply', ih]
    push_cast
    ring

/-- A counter that is moved by a unit passes every word exactly once in a round. -/
theorem counter_bijective {step k : BitVec w} (hunit : step * k = 1) (x : BitVec w) :
    Function.Bijective fun n : Fin (2 ^ w) => x + (n.val : BitVec w) * step := by
  constructor
  · intro m n h
    have hsame : (m.val : BitVec w) = (n.val : BitVec w) := mul_injective hunit (add_left_cancel h)
    have hval := congrArg BitVec.toNat hsame
    rw [BitVec.natCast_eq_ofNat, BitVec.natCast_eq_ofNat, BitVec.toNat_ofNat, BitVec.toNat_ofNat,
      Nat.mod_eq_of_lt m.isLt, Nat.mod_eq_of_lt n.isLt] at hval
    exact Fin.ext hval
  · intro y
    refine ⟨((y - x) * k).toFin, ?_⟩
    have hcast : ((((y - x) * k).toFin.val : ℕ) : BitVec w) = (y - x) * k := by
      rw [BitVec.natCast_eq_ofNat, BitVec.val_toFin, BitVec.ofNat_toNat, BitVec.setWidth_eq]
    calc x + ((((y - x) * k).toFin.val : ℕ) : BitVec w) * step = x + (y - x) * (step * k) := by rw [hcast]; ring
      _ = y := by rw [hunit]; ring

end Mixing
