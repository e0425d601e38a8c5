import Mathlib.Data.Rat.Defs
import Mathlib.Algebra.Order.Group.Unbundled.Abs
import Mathlib.Algebra.Order.Ring.Rat
import Tvc.Lib.Binary64

/-!
# Doubles as uninterpreted arithmetic

The controller, the plant and the loss draws use a handful of binary64 operations, and both
languages of the repository round them alike. Nothing proved here depends on what they
return, so the operations are a class: a result about the program holds for every
interpretation, IEEE-754 among them. Decimal literals go through `OfScientific`, which keeps
the constants in the form in which the source writes them.

On the wire a double is its 64-bit pattern. Only finiteness is read off the pattern.
-/

namespace Tvc

/-- A byte of a buffer. -/
abbrev U8 := BitVec 8
/-- `std::uint16_t`. -/
abbrev U16 := BitVec 16
/-- `std::uint32_t`. -/
abbrev U32 := BitVec 32
/-- `std::uint64_t`; a signed field is carried by its two's complement pattern. -/
abbrev U64 := BitVec 64
/-- A buffer of bytes. -/
abbrev Bytes := List U8

/-- The double operations shared by the controller, the plant and the link. -/
class Arith (F : Type) extends Add F, Sub F, Mul F, Div F, Neg F, OfScientific F, NatCast F where
  abs : F → F
  lt : F → F → Bool
  le : F → F → Bool

/-- Types with the test behind `std::isfinite` and `math.isfinite`. -/
class Classify (F : Type) where
  isFinite : F → Bool

/-- A double as it crosses the wire. -/
structure F64 where
  bits : U64
  deriving DecidableEq, Repr

/-- A pattern is finite unless its exponent field is all ones. -/
def F64.isFinite (x : F64) : Bool := x.bits.extractLsb' 52 11 != 0x7FF#11

instance : Classify F64 := ⟨F64.isFinite⟩

/-- Exact rational arithmetic, the reading under which numeric bounds are stated. -/
instance : Arith ℚ where
  abs := fun x => |x|
  lt := fun x y => decide (x < y)
  le := fun x y => decide (x ≤ y)

instance : Classify ℚ := ⟨fun _ => true⟩

/-- The doubles of IEEE 754, the reading under which runs are evaluated. -/
@[reducible] def ieee : Arith F64 where
  add x y := ⟨Binary64.add x.bits y.bits⟩
  sub x y := ⟨Binary64.sub x.bits y.bits⟩
  mul x y := ⟨Binary64.mul x.bits y.bits⟩
  div x y := ⟨Binary64.div x.bits y.bits⟩
  neg x := ⟨Binary64.neg x.bits⟩
  ofScientific mantissa negative exponent := ⟨Binary64.ofScientific mantissa negative exponent⟩
  natCast n := ⟨Binary64.ofNat n⟩
  abs x := ⟨Binary64.abs x.bits⟩
  lt x y := Binary64.lt x.bits y.bits
  le x y := Binary64.le x.bits y.bits

end Tvc
