import ManagedLayout.Decimal.Binary64

/-!
# Shortest decimals

The decimal text of a double is the one with the fewest digits among those that are nearer to it
than to any other double. It is written positionally, never with an exponent.
-/

namespace ManagedLayout.Binary64

/-- The fraction `digits * 10 ^ power`. -/
def decimalFraction (digits : Nat) (power : Int) : Nat × Nat :=
  if 0 ≤ power then (digits * Nat.pow 10 power.toNat, 1)
  else (digits, Nat.pow 10 (-power).toNat)

/-- Whether reading the decimal `digits * 10 ^ power` exactly gives the number back. -/
def readsBack (number : Binary64) (digits : Nat) (power : Int) : Bool :=
  let (above, below) := decimalFraction digits power
  ofFraction? above below == some number

/-- The multiple of `10 ^ power` at or below the number, divided by that power. -/
def gridBelow (number : Binary64) (power : Int) : Nat :=
  let (above, below) := number.toFraction
  if 0 ≤ power then above / (below * Nat.pow 10 power.toNat)
  else above * Nat.pow 10 (-power).toNat / below

/-- Whether the number lies at or above the middle between `digits` and `digits + 1` times
`10 ^ power`. -/
def aboveMiddle (number : Binary64) (digits : Nat) (power : Int) : Bool :=
  let (above, below) := number.toFraction
  let (middle, unit) := decimalFraction (2 * digits + 1) power
  middle * below ≤ 2 * above * unit

/-- The multiple of `10 ^ power` that reads back as the number: of two, the nearer one. -/
def onGrid? (number : Binary64) (power : Int) : Option Nat :=
  let low := number.gridBelow power
  match number.readsBack low power, number.readsBack (low + 1) power with
  | false, false => none
  | true, false => some low
  | false, true => some (low + 1)
  | true, true => some (if number.aboveMiddle low power then low + 1 else low)

/-- Seventeen digits tell any two doubles apart. -/
def maxDigits : Nat := 17

/-- The power of ten of the leading digit of a positive number. -/
def leadingPower (number : Binary64) : Int :=
  let (above, below) := number.toFraction
  if below ≤ above then ((Nat.toDigits 10 (above / below)).length : Int) - 1
  else
    -- below one: count the decimal places before the first digit that is not zero
    let places := (Nat.toDigits 10 ((below + above - 1) / above)).length
    if below ≤ above * Nat.pow 10 (places - 1) then -(places - 1 : Int) else -(places : Int)

/-- The coarsest decimal grid with a multiple that reads back, from `digits` digits on. -/
def coarsest (number : Binary64) : (tries : Nat) → (power : Int) → Nat × Int
  | 0, power => (number.gridBelow power, power)
  | tries + 1, power =>
    match number.onGrid? power with
    | some multiple => (multiple, power)
    | none => number.coarsest tries (power - 1)

/-- The digits and the power of ten of the shortest decimal of a number. -/
def shortest (number : Binary64) : Nat × Int := number.coarsest maxDigits number.leadingPower

/-- A decimal without an exponent: `digits * 10 ^ power`, without zeros at the end of its
fraction. -/
def positional (digits : Nat) (power : Int) : String :=
  if 0 ≤ power then toString (digits * Nat.pow 10 power.toNat)
  else
    let places := (-power).toNat
    let whole := digits / Nat.pow 10 places
    let fraction := (toString (digits % Nat.pow 10 places)).toList
    let padded := List.replicate (places - fraction.length) '0' ++ fraction
    let kept := (padded.reverse.dropWhile (· == '0')).reverse
    if kept.isEmpty then toString whole else toString whole ++ "." ++ String.ofList kept

/-- The shortest positional decimal of a number. -/
def text (number : Binary64) : String :=
  if number.significand = 0 then "0" else positional number.shortest.1 number.shortest.2

end ManagedLayout.Binary64
