import Mathlib.Data.BitVec
import Mathlib.Data.Nat.Log

/-!
# Arithmetic on binary64 patterns

A finite double is an integer multiple of the least subnormal, so sums are exact in that unit, and
products and quotients are exact fractions of it. One rounding takes a fraction to the nearest
pattern, ties to even. An invalid operation returns one quiet NaN; the payload of a NaN operand is not
kept.
-/

namespace Binary64

/-- The pattern of a double. -/
abbrev Pattern := BitVec 64

/-- The sign. -/
def negative (x : Pattern) : Bool := x.msb

/-- The exponent field. -/
def exponent (x : Pattern) : ℕ := (x.extractLsb' 52 11).toNat

/-- The fraction field. -/
def fraction (x : Pattern) : ℕ := (x.extractLsb' 0 52).toNat

/-- Neither an infinity nor a NaN. -/
def isFinite (x : Pattern) : Bool := exponent x != 2047

def isNaN (x : Pattern) : Bool := exponent x == 2047 && fraction x != 0

def isInf (x : Pattern) : Bool := exponent x == 2047 && fraction x == 0

def isZero (x : Pattern) : Bool := exponent x == 0 && fraction x == 0

def nan : Pattern := 0x7FF8000000000000

/-- The infinity of a sign. -/
def inf (sign : Bool) : Pattern := if sign then 0xFFF0000000000000 else 0x7FF0000000000000

/-- The units in one: the least subnormal is `2 ^ -1074`. -/
def one : ℕ := 2 ^ 1074

/-- The magnitude of a finite pattern, in units. -/
def magnitude (x : Pattern) : ℕ :=
  if exponent x = 0 then fraction x else (2 ^ 52 + fraction x) * 2 ^ (exponent x - 1)

/-- The value of a finite pattern, in units. -/
def value (x : Pattern) : ℤ := if negative x then -magnitude x else magnitude x

/-- The magnitude nearest to `num / den` units, as exponent and fraction fields in one number. The
significand is taken with its implicit bit, which the addition carries into the exponent. -/
def nearest (num den : ℕ) : ℕ :=
  let exponent := (num / den).log2 + 1 - 53
  let unit := den * 2 ^ exponent
  let significand := num / unit
  let rest := num % unit
  let up := unit < 2 * rest || (2 * rest == unit && significand % 2 == 1)
  significand + up.toNat + exponent * 2 ^ 52

/-- The pattern of a sign that is nearest to `num / den` units; beyond the largest it is infinite. -/
def round (sign : Bool) (num den : ℕ) : Pattern :=
  BitVec.ofNat 64 (min (nearest num den) (2047 * 2 ^ 52)) ||| if sign then 1#64 <<< 63 else 0

/-! ## The operations -/

def neg (x : Pattern) : Pattern := x ^^^ (1#64 <<< 63)

def abs (x : Pattern) : Pattern := x &&& ~~~(1#64 <<< 63)

/-- The sum; a sum of zeros is negative only if both are. -/
def add (x y : Pattern) : Pattern :=
  if isNaN x || isNaN y then nan
  else if isInf x then (if isInf y && negative x != negative y then nan else x)
  else if isInf y then y
  else
    let sum := value x + value y
    if sum = 0 then (if negative x && negative y then 1#64 <<< 63 else 0)
    else round (sum < 0) sum.natAbs 1

def sub (x y : Pattern) : Pattern := if isNaN y then nan else add x (neg y)

/-- The product. -/
def mul (x y : Pattern) : Pattern :=
  let sign := negative x != negative y
  if isNaN x || isNaN y then nan
  else if isInf x || isInf y then (if isZero x || isZero y then nan else inf sign)
  else round sign (magnitude x * magnitude y) one

/-- The quotient. -/
def div (x y : Pattern) : Pattern :=
  let sign := negative x != negative y
  if isNaN x || isNaN y then nan
  else if isInf x then (if isInf y then nan else inf sign)
  else if isInf y then round sign 0 1
  else if isZero y then (if isZero x then nan else inf sign)
  else round sign (magnitude x * one) (magnitude y)

/-- The order of doubles; nothing compares with a NaN, and the zeros are equal. -/
def lt (x y : Pattern) : Bool :=
  if isNaN x || isNaN y then false
  else if isInf x then negative x && !(isInf y && negative y)
  else if isInf y then !negative y
  else value x < value y

/-- Less or equal. -/
def le (x y : Pattern) : Bool := !isNaN x && !isNaN y && !lt y x

/-- Nothing at most `c` is greater than anything at least `c`. -/
theorem lt_eq_false_of_le {x c d : Pattern} (hxc : le x c = true) (hcd : le c d = true) : lt d x = false := by
  unfold le lt at *
  grind

/-- A decimal literal. -/
def ofScientific (mantissa : ℕ) (negative : Bool) (exponent : ℕ) : Pattern :=
  if negative then round false (mantissa * one) (10 ^ exponent)
  else round false (mantissa * 10 ^ exponent * one) 1

/-- A natural number. -/
def ofNat (n : ℕ) : Pattern := round false (n * one) 1

example : add (ofScientific 1 true 1) (ofScientific 2 true 1) = 0x3FD3333333333334 := by decide +kernel

end Binary64
