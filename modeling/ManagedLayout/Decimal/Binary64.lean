/-!
# Double precision numbers

The nonnegative numbers of the 64-bit binary format, as a significand and a power of two, with the
operations that reading a decimal needs. Every operation is exact arithmetic on natural numbers,
followed by one rounding to the nearest number of the format, ties to the even significand. A result
too large for the format is `none`.
-/

namespace ManagedLayout

/-- The number `significand * 2 ^ exponent`. -/
structure Binary64 where
  significand : Nat
  exponent : Int
  deriving DecidableEq, Repr

namespace Binary64

/-- The least power of two that a significand is multiplied by. -/
def minExponent : Int := -1074

/-- The greatest power of two that a significand is multiplied by. -/
def maxExponent : Int := 971

/-- Significands have at most this many bits. -/
def precision : Nat := 53

def zero : Binary64 := ⟨0, minExponent⟩

/-- The quotient rounded to the nearest integer, ties to even. -/
def roundDiv (numerator denominator : Nat) : Nat :=
  let quotient := numerator / denominator
  let twice := 2 * (numerator % denominator)
  if twice < denominator then quotient
  else if denominator < twice then quotient + 1
  else quotient + quotient % 2

/-- A fraction times a power of two, as a fraction. -/
def shifted (numerator denominator : Nat) (exponent : Int) : Nat × Nat :=
  if 0 ≤ exponent then (numerator * Nat.pow 2 exponent.toNat, denominator)
  else (numerator, denominator * Nat.pow 2 (-exponent).toNat)

/-- The integer `e` with `2 ^ e ≤ numerator / denominator < 2 ^ (e + 1)`, for a positive
fraction. -/
def floorLog (numerator denominator : Nat) : Int :=
  let estimate : Int := (numerator.log2 : Int) - denominator.log2
  let (above, below) := shifted numerator denominator (-estimate)
  if below ≤ above then estimate else estimate - 1

/-- The number of the format nearest to a fraction with a positive denominator. -/
def ofFraction? (numerator denominator : Nat) : Option Binary64 :=
  if numerator = 0 then some zero
  else
    let exponent := max minExponent (floorLog numerator denominator - (precision - 1))
    let (above, below) := shifted numerator denominator (-exponent)
    let significand := roundDiv above below
    let rounded : Binary64 :=
      if significand = Nat.pow 2 precision then ⟨Nat.pow 2 (precision - 1), exponent + 1⟩
      else ⟨significand, exponent⟩
    if rounded.exponent ≤ maxExponent then some rounded else none

/-- A number of the format as a fraction. -/
def toFraction (number : Binary64) : Nat × Nat := shifted number.significand 1 number.exponent

def ofNat? (value : Nat) : Option Binary64 := ofFraction? value 1

def mul? (left right : Binary64) : Option Binary64 :=
  let (above, below) := left.toFraction
  let (above', below') := right.toFraction
  ofFraction? (above * above') (below * below')

/-- The rounded quotient by a number that is not zero. -/
def div? (left right : Binary64) : Option Binary64 :=
  let (above, below) := left.toFraction
  let (above', below') := right.toFraction
  ofFraction? (above * below') (below * above')

/-- The greatest power of ten of the format. -/
def maxTen : Nat := 308

/-- The number of the format nearest to a power of ten. -/
def tenPower? (power : Nat) : Option Binary64 := ofNat? (Nat.pow 10 power)

/-- A number divided by a power of ten: `steps` times by the greatest one of the format, then by
what is left. A number that has become zero stays zero. -/
def scaleDown? : (steps : Nat) → Binary64 → (places : Nat) → Option Binary64
  | 0, number, places => do number.div? (← tenPower? places)
  | steps + 1, number, places =>
    if number.significand = 0 then some number
    else do scaleDown? steps (← number.div? (← tenPower? maxTen)) (places - maxTen)

/-- A number times a power of ten, by one multiplication or division by the nearest power of ten of
the format, after as many divisions by its greatest one as bring the power into range. -/
def scale? (number : Binary64) (power : Int) : Option Binary64 :=
  if 0 ≤ power then
    if power ≤ maxTen then do number.mul? (← tenPower? power.toNat)
    else if number.significand = 0 then some number
    else none
  else
    let places := (-power).toNat
    scaleDown? ((places - 1) / maxTen) number places

end Binary64

end ManagedLayout
