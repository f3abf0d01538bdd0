import ManagedLayout.Decimal.Shortest

/-!
# JSON numbers

A JSON number is kept as written: as an integer, or as a decimal literal if it has a fraction or an
exponent, or is a zero with a minus sign. A literal stands for a double precision number, and an
integer too large for 64 bits can be taken as one too.
-/

namespace ManagedLayout

/-- A decimal number as written. -/
structure DecimalLiteral where
  isNegative : Bool
  /-- The digits before the point, as numbers below ten. -/
  whole : List Nat
  /-- The digits after the point. -/
  fraction : List Nat
  exponent : Int
  deriving DecidableEq, Repr

namespace DecimalLiteral

/-- Appends digits to a significand as long as it fits 64 bits; also returns the digits left. -/
def appendDigits : (significand : Nat) → List Nat → Nat × List Nat
  | significand, [] => (significand, [])
  | significand, digit :: rest =>
    if 10 * significand + digit < UInt64.size then appendDigits (10 * significand + digit) rest
    else (significand, digit :: rest)

/-- The significand and the power of ten that a literal is read as. Digits that do not fit 64 bits
are dropped; those before the point still count as places. -/
def parts (literal : DecimalLiteral) : Nat × Int :=
  let (whole, droppedWhole) := appendDigits 0 literal.whole
  let (significand, droppedFraction) := appendDigits whole literal.fraction
  let places := literal.fraction.length - droppedFraction.length
  (significand, literal.exponent + droppedWhole.length - places)

/-- The magnitude of a literal as a double, unless it is too large for one. -/
def magnitude? (literal : DecimalLiteral) : Option Binary64 := do
  let (significand, power) := literal.parts
  (← Binary64.ofNat? significand).scale? power

/-- The shortest decimal text of the double that a literal stands for. -/
def text? (literal : DecimalLiteral) : Option String := do
  let magnitude ← literal.magnitude?
  return (if literal.isNegative then "-" else "") ++ magnitude.text

end DecimalLiteral

namespace Json

/-- A JSON number as written. -/
inductive Number where
  | integer (value : Int)
  | decimal (literal : DecimalLiteral)
  deriving DecidableEq, Repr

namespace Number

def digitsOf (chars : List Char) : List Nat := chars.map fun char ↦ char.toNat - '0'.toNat

/-- The value of a sequence of digits. -/
def digitsValue (digits : List Nat) : Nat := digits.foldl (fun value digit ↦ 10 * value + digit) 0

/-- An integer as a decimal literal. -/
def literalOfInt (value : Int) : DecimalLiteral :=
  ⟨value < 0, digitsOf (Nat.toDigits 10 value.natAbs), [], 0⟩

/-- Reads the exponent of a number: nothing, or a mark, at most one sign, and digits. -/
def exponentOfChars? : List Char → Option (Option Int)
  | [] => some none
  | mark :: rest =>
    if mark == 'e' || mark == 'E' then
      let (isNegative, digits) := match rest with
        | '-' :: digits => (true, digits)
        | '+' :: digits => (false, digits)
        | digits => (false, digits)
      if digits.isEmpty || !digits.all Char.isDigit then none
      else
        let value : Int := digitsValue (digitsOf digits)
        some (some (if isNegative then -value else value))
    else none

/-- Reads a number from all of its characters: digits without a leading zero, then a fraction and an
exponent if there are any. -/
def ofChars? (chars : List Char) : Option Number := do
  let (isNegative, unsigned) := match chars with
    | '-' :: rest => (true, rest)
    | _ => (false, chars)
  let (whole, afterWhole) := unsigned.span Char.isDigit
  guard (!whole.isEmpty && (whole.length == 1 || whole.head? != some '0'))
  let (fraction?, afterFraction) := match afterWhole with
    | '.' :: rest => let (fraction, rest) := rest.span Char.isDigit; (some fraction, rest)
    | _ => (none, afterWhole)
  guard (fraction? != some [])
  let exponent? ← exponentOfChars? afterFraction
  let whole := digitsOf whole
  if fraction?.isNone && exponent?.isNone && !(isNegative && whole == [0]) then
    let value : Int := digitsValue whole
    return .integer (if isNegative then -value else value)
  else
    return .decimal ⟨isNegative, whole, digitsOf (fraction?.getD []), exponent?.getD 0⟩

/-- The text of a number. -/
def text : Number → String
  | integer value => toString value
  | decimal literal =>
    let digits (values : List Nat) := values.foldl (fun done value ↦ done ++ toString value) ""
    (if literal.isNegative then "-" else "") ++ digits literal.whole
      ++ (if literal.fraction.isEmpty then "" else "." ++ digits literal.fraction)
      ++ (if literal.exponent = 0 then "" else "e" ++ toString literal.exponent)

end Number

end Json

end ManagedLayout
