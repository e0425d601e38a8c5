import Mathlib.Data.BitVec
import Mathlib.Logic.Function.Iterate

/-!
# Reflected cyclic redundancy checks

A register of some width takes in one bit after another, the least significant end first. Taking in a
whole word at once is the same as adding it to the register and shifting as often as it has bits, and a
shift loses nothing if the generator has a constant term. Two messages that leave the same register
therefore differ in no burst as short as the register is wide.
-/

namespace Crc

variable {w : ℕ}

/-- One shift of the register: the bit that falls out decides whether the generator is added. -/
def shift (poly c : BitVec w) : BitVec w := if c.getLsbD 0 then (c >>> 1) ^^^ poly else c >>> 1

/-- A bit at the least significant end of a register. -/
def low (b : Bool) : BitVec w := (BitVec.ofBool b).setWidth w

/-- The register after a list of bits. -/
def feed (poly : BitVec w) (c : BitVec w) (bits : List Bool) : BitVec w :=
  bits.foldl (fun c b => shift poly (c ^^^ low b)) c

/-- The word a list of bits spells, the least significant bit first. -/
def word : List Bool → BitVec w
  | [] => 0
  | b :: rest => low b ^^^ (word rest <<< 1)

theorem low_getLsbD (b : Bool) (i : ℕ) : (low b : BitVec w).getLsbD i = (decide (i < w) && (decide (i = 0) && b)) := by
  rw [low, BitVec.getLsbD_setWidth, BitVec.getLsbD_ofBool]

/-- The bits of a shifted register. -/
theorem shift_getLsbD (poly c : BitVec w) (i : ℕ) :
    (shift poly c).getLsbD i = (c.getLsbD (1 + i) ^^ (c.getLsbD 0 && poly.getLsbD i)) := by
  cases h : c.getLsbD 0 <;> simp [shift, h]

/-- A shift is linear. -/
theorem shift_xor (poly a b : BitVec w) : shift poly (a ^^^ b) = shift poly a ^^^ shift poly b := by
  apply BitVec.eq_of_getLsbD_eq
  intro i _
  rw [BitVec.getLsbD_xor, shift_getLsbD, shift_getLsbD, shift_getLsbD, BitVec.getLsbD_xor, BitVec.getLsbD_xor]
  cases a.getLsbD 0 <;> cases b.getLsbD 0 <;> cases a.getLsbD (1 + i) <;> cases b.getLsbD (1 + i) <;>
    cases poly.getLsbD i <;> rfl

/-- Shifts are linear. -/
theorem iterate_shift_xor (poly a b : BitVec w) (n : ℕ) :
    (shift poly)^[n] (a ^^^ b) = (shift poly)^[n] a ^^^ (shift poly)^[n] b := by
  induction n generalizing a b with
  | zero => rfl
  | succ n ih => rw [Function.iterate_succ_apply, shift_xor, ih, ← Function.iterate_succ_apply, ← Function.iterate_succ_apply]

/-- A shift loses nothing if the generator has its top bit. -/
theorem shift_injective {poly : BitVec w} (hpoly : poly.msb = true) : Function.Injective (shift poly) := by
  have hzero (c : BitVec w) (h : shift poly c = 0) : c = 0 := by
    have hbits (i : ℕ) : (c.getLsbD (1 + i) ^^ (c.getLsbD 0 && poly.getLsbD i)) = false := by
      rw [← shift_getLsbD, h, BitVec.ofNat_eq_ofNat, BitVec.getLsbD_zero]
    have hwidth : 0 < w := by
      by_contra hw
      obtain rfl : w = 0 := by omega
      simp [BitVec.msb, BitVec.getMsbD] at hpoly
    -- The top bit of the shifted register is the bit that fell out.
    have hout : c.getLsbD 0 = false := by
      have htop := hbits (w - 1)
      rw [BitVec.msb_eq_getLsbD_last] at hpoly
      simpa [hpoly, BitVec.getLsbD_of_ge c (1 + (w - 1)) (by omega)] using htop
    apply BitVec.eq_of_getLsbD_eq
    intro i _
    rw [BitVec.ofNat_eq_ofNat, BitVec.getLsbD_zero]
    cases i with
    | zero => exact hout
    | succ i =>
      have hnext := hbits i
      rwa [hout, Bool.false_and, Bool.xor_false, Nat.add_comm] at hnext
  intro a b h
  have hdiff : shift poly (a ^^^ b) = 0 := by
    rw [shift_xor, h, BitVec.xor_self]
    rfl
  exact BitVec.xor_eq_zero_iff.mp (hzero _ hdiff)

/-- A register whose low bits are clear is shifted without the generator. -/
theorem shift_shiftLeft (poly : BitVec w) {c : BitVec w} (h : c.getLsbD (w - 1) = false) : shift poly (c <<< 1) = c := by
  apply BitVec.eq_of_getLsbD_eq
  intro i hi
  rw [shift_getLsbD, BitVec.getLsbD_shiftLeft, BitVec.getLsbD_shiftLeft]
  by_cases hlast : 1 + i < w
  · simp [hlast]
  · obtain rfl : i = w - 1 := by omega
    simp [hlast, h]

/-- A register whose low bits are clear is shifted that often without the generator. -/
theorem iterate_shift_shiftLeft (poly : BitVec w) {c : BitVec w} {n : ℕ}
    (h : ∀ i, w ≤ i + n → c.getLsbD i = false) : (shift poly)^[n] (c <<< n) = c := by
  induction n with
  | zero => simp
  | succ n ih =>
    have htop : (c <<< n).getLsbD (w - 1) = false := by
      rw [BitVec.getLsbD_shiftLeft, h (w - 1 - n) (by omega), Bool.and_false]
    rw [BitVec.shiftLeft_add, Function.iterate_succ_apply, shift_shiftLeft poly htop]
    exact ih fun i hi => h i (by omega)

theorem feed_append (poly c : BitVec w) (front rest : List Bool) :
    feed poly c (front ++ rest) = feed poly (feed poly c front) rest := List.foldl_append

/-- What is fed into two registers leaves them different. -/
theorem feed_injective {poly : BitVec w} (hpoly : poly.msb = true) (bits : List Bool) :
    Function.Injective fun c => feed poly c bits := by
  induction bits with
  | nil => exact Function.injective_id
  | cons b bits ih =>
    intro a c h
    exact BitVec.xor_left_inj _ |>.mp (shift_injective hpoly (ih h))

/-- The bits of a word. -/
theorem word_getLsbD (bits : List Bool) (i : ℕ) :
    (word bits : BitVec w).getLsbD i = (decide (i < w) && (bits[i]?.getD false)) := by
  induction bits generalizing i with
  | nil => simp [word]
  | cons b bits ih =>
    rw [word, BitVec.getLsbD_xor, low_getLsbD, BitVec.getLsbD_shiftLeft]
    cases i with
    | zero => simp
    | succ i =>
      rw [Nat.add_sub_cancel, ih, List.getElem?_cons_succ]
      by_cases hi : i + 1 < w
      · simp [hi, Nat.lt_of_succ_lt hi]
      · simp [hi]

/-- A list of bits no longer than the register is fed by adding its word and shifting. -/
theorem feed_eq (poly c : BitVec w) {bits : List Bool} (h : bits.length ≤ w) :
    feed poly c bits = (shift poly)^[bits.length] (c ^^^ word bits) := by
  induction bits generalizing c with
  | nil => simp [feed, word]
  | cons b bits ih =>
    rw [List.length_cons] at h
    have htop : (word bits : BitVec w).getLsbD (w - 1) = false := by
      rw [word_getLsbD, List.getElem?_eq_none (by omega)]
      simp
    calc feed poly c (b :: bits) = feed poly (shift poly (c ^^^ low b)) bits := rfl
      _ = (shift poly)^[bits.length] (shift poly (c ^^^ low b) ^^^ word bits) := ih _ (by omega)
      _ = (shift poly)^[bits.length] (shift poly (c ^^^ low b ^^^ word bits <<< 1)) := by
        rw [shift_xor poly (c ^^^ low b), shift_shiftLeft poly htop]
      _ = (shift poly)^[(b :: bits).length] (c ^^^ word (b :: bits)) := by
        rw [word, BitVec.xor_assoc, List.length_cons, Function.iterate_succ_apply]

/-- Bits of one length that spell the same word are the same, if the word holds them. -/
theorem word_injective {x y : List Bool} (hlength : x.length = y.length) (hx : x.length ≤ w)
    (h : (word x : BitVec w) = word y) : x = y := by
  apply List.ext_getElem hlength
  intro i hi hi'
  have hbit := congrArg (fun v : BitVec w => v.getLsbD i) h
  rw [word_getLsbD, word_getLsbD, List.getElem?_eq_getElem hi, List.getElem?_eq_getElem hi'] at hbit
  simpa [show i < w by omega] using hbit

/-- Behind its own register, with a mask added, every message leaves the same register. -/
theorem feed_own (poly c mask : BitVec w) {bits : List Bool} (hlength : bits.length = w) (h : word bits = c ^^^ mask) :
    feed poly c bits = (shift poly)^[w] mask := by
  rw [feed_eq poly c hlength.le, hlength, h, ← BitVec.xor_assoc, BitVec.xor_self, BitVec.zero_xor]

/-- Messages of one length that differ in a burst no longer than the register leave it different. -/
theorem feed_burst {poly : BitVec w} (hpoly : poly.msb = true) {c : BitVec w} {x y : List Bool} (i : ℕ)
    (hlength : x.length = y.length) (hburst : ∀ j, j < i ∨ i + w ≤ j → x[j]? = y[j]?)
    (h : feed poly c x = feed poly c y) : x = y := by
  have hfront : x.take i = y.take i := by
    apply List.ext_getElem?
    intro j
    rw [List.getElem?_take, List.getElem?_take]
    split
    · exact hburst j (.inl ‹_›)
    · rfl
  have hrest : x.drop (i + w) = y.drop (i + w) := by
    apply List.ext_getElem?
    intro j
    rw [List.getElem?_drop, List.getElem?_drop]
    exact hburst _ (.inr (Nat.le_add_right _ _))
  have hsplit (z : List Bool) : z = z.take i ++ ((z.drop i).take w ++ z.drop (i + w)) := by
    rw [← List.drop_drop, List.take_append_drop, List.take_append_drop]
  have hmiddle : ((x.drop i).take w).length = ((y.drop i).take w).length := by
    simp [hlength]
  have hword : (x.drop i).take w = (y.drop i).take w := by
    rw [hsplit x, hsplit y, feed_append, feed_append, feed_append, feed_append, hfront, hrest] at h
    have hfed := feed_injective hpoly _ h
    rw [feed_eq _ _ (List.length_take_le _ _), feed_eq _ _ (List.length_take_le _ _), hmiddle] at hfed
    have hsame := BitVec.xor_right_inj _ |>.mp ((shift_injective hpoly).iterate _ hfed)
    exact word_injective hmiddle (List.length_take_le _ _) hsame
  rw [hsplit x, hsplit y, hfront, hword, hrest]

/-! ## The code -/

/-- A bit added to a bit. -/
theorem low_xor (a b : Bool) : (low (a ^^ b) : BitVec w) = low a ^^^ low b := by
  apply BitVec.eq_of_getLsbD_eq
  intro i _
  rw [BitVec.getLsbD_xor, low_getLsbD, low_getLsbD, low_getLsbD]
  cases decide (i < w) <;> cases decide (i = 0) <;> simp

/-- Feeding is linear, in the register and the bits together. -/
theorem feed_xor (poly : BitVec w) (c d : BitVec w) {x y : List Bool} (h : x.length = y.length) :
    feed poly (c ^^^ d) (x.zipWith xor y) = feed poly c x ^^^ feed poly d y := by
  induction x generalizing c d y with
  | nil =>
    obtain rfl := List.eq_nil_of_length_eq_zero h.symm
    rfl
  | cons a x ih =>
    cases y with
    | nil => nomatch h
    | cons b y =>
      have hbit : c ^^^ d ^^^ low (a ^^ b) = c ^^^ low a ^^^ (d ^^^ low b) := by
        rw [low_xor]
        ac_rfl
      calc feed poly (c ^^^ d) ((a :: x).zipWith xor (b :: y))
          = feed poly (shift poly (c ^^^ d ^^^ low (a ^^ b))) (x.zipWith xor y) := rfl
        _ = feed poly (shift poly (c ^^^ low a) ^^^ shift poly (d ^^^ low b)) (x.zipWith xor y) := by
          rw [hbit, shift_xor]
        _ = feed poly c (a :: x) ^^^ feed poly d (b :: y) := ih _ _ (Nat.succ.inj h)

/-- The reflected code with a generator, an initial register and a final mask, bit by bit. -/
def code (poly start mask : BitVec w) (bits : List Bool) : BitVec w := feed poly start bits ^^^ mask

/-- Of three messages of one length, the code of the sum is the sum of the codes. -/
theorem code_xor (poly start mask : BitVec w) {x y z : List Bool} (hy : x.length = y.length) (hz : x.length = z.length) :
    code poly start mask (x.zipWith xor (y.zipWith xor z)) =
      code poly start mask x ^^^ (code poly start mask y ^^^ code poly start mask z) := by
  have hinner : (y.zipWith xor z).length = x.length := by
    rw [List.length_zipWith, ← hy, ← hz, Nat.min_self]
  have hstart : start ^^^ (start ^^^ start) = start := by
    rw [BitVec.xor_self, BitVec.xor_zero]
  have hmask (a b c : BitVec w) : a ^^^ mask ^^^ (b ^^^ mask ^^^ (c ^^^ mask)) = a ^^^ (b ^^^ c) ^^^ mask := by
    have hcancel : mask ^^^ (mask ^^^ mask) = mask := by rw [BitVec.xor_self, BitVec.xor_zero]
    calc a ^^^ mask ^^^ (b ^^^ mask ^^^ (c ^^^ mask)) = a ^^^ (b ^^^ c) ^^^ (mask ^^^ (mask ^^^ mask)) := by ac_rfl
      _ = a ^^^ (b ^^^ c) ^^^ mask := by rw [hcancel]
  rw [code, code, code, code, hmask, ← feed_xor poly start start (hy.symm.trans hz), ← feed_xor poly start _ hinner.symm,
    BitVec.xor_self, BitVec.xor_zero]

end Crc
