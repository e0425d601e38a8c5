import Mathlib.Data.List.Chain
import Mathlib.Data.BitVec

/-!
# Serial numbers

Numbers of a fixed width that are compared by how far one is ahead of the other, modulo the range.
A number follows another when it is ahead by less than half the range. Along a chain of numbers
that follow each other, none of those passed within half the range follows the last one.
-/

namespace SerialNumber

variable {w : ℕ}

/-- How far the second number is ahead of the first. -/
def gap (a b : BitVec (w + 1)) : ℕ := (b - a).toNat

/-- Numbers of an unbounded sequence that are less than the range apart are as far apart as their serial numbers. -/
theorem gap_ofNat {m n : ℕ} (h : m ≤ n) (hnear : n - m < 2 ^ (w + 1)) :
    gap (BitVec.ofNat (w + 1) m) (BitVec.ofNat (w + 1) n) = n - m := by
  obtain ⟨d, rfl⟩ := Nat.exists_eq_add_of_le h
  have hdistance : BitVec.ofNat (w + 1) (m + d) - BitVec.ofNat (w + 1) m = BitVec.ofNat (w + 1) d := by
    rw [BitVec.ofNat_add]
    exact add_sub_cancel_left _ _
  rw [Nat.add_sub_cancel_left] at hnear
  rw [gap, hdistance, BitVec.toNat_ofNat, Nat.mod_eq_of_lt hnear, Nat.add_sub_cancel_left]

/-- The second number is ahead of the first by less than half the range. -/
def Follows (a b : BitVec (w + 1)) : Prop := 1 ≤ gap a b ∧ gap a b < 2 ^ w

/-- The sum of the gaps along a list. -/
def span : List (BitVec (w + 1)) → ℕ
  | a :: b :: rest => gap a b + span (b :: rest)
  | _ => 0

/-- The last number of a list is ahead of its first by the span, modulo the range. -/
theorem getLast_sub_eq_span (a : BitVec (w + 1)) (rest : List (BitVec (w + 1))) :
    (a :: rest).getLast (List.cons_ne_nil a rest) - a = BitVec.ofNat (w + 1) (span (a :: rest)) := by
  induction rest generalizing a with
  | nil => simp [span]
  | cons b rest ih =>
    have hgap : BitVec.ofNat (w + 1) (gap a b) = b - a := by
      rw [gap, BitVec.ofNat_toNat, BitVec.setWidth_eq]
    rw [span, BitVec.ofNat_add, hgap, ← ih b, List.getLast_cons (List.cons_ne_nil b rest)]
    exact (sub_add_sub_cancel' b a _).symm

/-- The span of a chain of two numbers or more is positive. -/
theorem span_pos {a b : BitVec (w + 1)} {rest : List (BitVec (w + 1))}
    (h : (a :: b :: rest).IsChain Follows) : 0 < span (a :: b :: rest) := by
  have hfollows := (List.isChain_cons_cons.mp h).1
  rw [span]
  exact Nat.add_pos_left hfollows.1 _

/-- Within half the range, the first number of a list is half the range ahead of its last one. -/
theorem half_le_gap_back {a : BitVec (w + 1)} {rest : List (BitVec (w + 1))} (hpos : 0 < span (a :: rest))
    (hspan : span (a :: rest) ≤ 2 ^ w) :
    2 ^ w ≤ gap ((a :: rest).getLast (List.cons_ne_nil a rest)) a := by
  have hsub := getLast_sub_eq_span a rest
  generalize (a :: rest).getLast (List.cons_ne_nil a rest) = last at hsub ⊢
  have hneg : a - last = -(last - a) := (neg_sub last a).symm
  have hsmall : span (a :: rest) < 2 ^ (w + 1) := by
    have hdouble := Nat.pow_succ 2 w
    omega
  rw [gap, hneg, hsub, BitVec.toNat_neg, BitVec.toNat_ofNat, Nat.mod_eq_of_lt hsmall, Nat.mod_eq_of_lt (by omega),
    Nat.pow_succ]
  omega

end SerialNumber
