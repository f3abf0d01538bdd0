/-!
# Metadata versions

A dump carries the version of the metadata format that it was taken from, such as `24` or `24.2`.
Versions are ordered by their major part first. The version decides how records refer to each
other; the three ways that exist are the values of `Revision`.
-/

namespace ManagedLayout

/-- A version of the metadata format. -/
structure Version where
  major : UInt32
  minor : UInt32
  deriving DecidableEq, Repr

namespace Version

/-- The oldest supported version. -/
def oldest : Version := ⟨16, 0⟩

/-- The newest supported version. -/
def newest : Version := ⟨31, 0⟩

instance : LT Version :=
  ⟨fun left right ↦ left.major < right.major ∨ left.major = right.major ∧ left.minor < right.minor⟩

instance (left right : Version) : Decidable (left < right) :=
  inferInstanceAs
    (Decidable (left.major < right.major ∨ left.major = right.major ∧ left.minor < right.minor))

instance : LE Version := ⟨fun left right ↦ ¬ right < left⟩

instance (left right : Version) : Decidable (left ≤ right) :=
  inferInstanceAs (Decidable (¬ right < left))

instance : Ord Version := ⟨fun left right ↦ compareOfLessAndEq left right⟩

/-- Whether dumps of this version can be read. -/
def isSupported (version : Version) : Bool := oldest ≤ version ∧ version ≤ newest

/-- The text of a version: the minor part is left out when it is 0. -/
def text (version : Version) : String :=
  if version.minor = 0 then toString version.major.toNat
  else toString version.major.toNat ++ "." ++ toString version.minor.toNat

/-- The value of a sequence of decimal digits. -/
def digitsValue (digits : List Char) : Nat :=
  digits.foldl (fun value digit ↦ 10 * value + (digit.toNat - '0'.toNat)) 0

/-- Reads one part of a version: at least one decimal digit, after at most one plus sign, of a value
that fits 32 bits. -/
def partOfChars? (chars : List Char) : Option UInt32 :=
  let digits := match chars with
    | '+' :: rest => rest
    | _ => chars
  if digits.isEmpty || !digits.all Char.isDigit then none
  else if digitsValue digits < UInt32.size then some (UInt32.ofNat (digitsValue digits))
  else none

/-- Reads a version from characters, split at the first point. -/
def ofChars? (chars : List Char) : Option Version :=
  match chars.span (· != '.') with
  | (major, []) => do return ⟨← partOfChars? major, 0⟩
  | (major, _ :: minor) => do return ⟨← partOfChars? major, ← partOfChars? minor⟩

/-- Reads a version: one or two parts, separated by a point. -/
def ofText? (text : String) : Option Version := ofChars? text.toList

end Version

/-- The ways in which the records of a dump refer to each other. -/
inductive Revision where
  /-- Every reference is an index; runtime generic contexts stand in one table. -/
  | legacy
  /-- From 24.2 on, runtime generic contexts stand in the code modules and are found by token. -/
  | tokenContexts
  /-- From 27 on, types refer to definitions and parameters by address as well, and encoded method
  indices carry a flag bit. -/
  | handles
  deriving DecidableEq, Repr

/-- The way in which the records of a version refer to each other. -/
def Version.revision (version : Version) : Revision :=
  if ⟨27, 0⟩ ≤ version then .handles
  else if ⟨24, 2⟩ ≤ version then .tokenContexts
  else .legacy

/-- The name of a revision in log messages. -/
def Revision.name : Revision → String
  | legacy => "Legacy"
  | tokenContexts => "TokenRgctx"
  | handles => "Handles"

/-- Versions whose dumps list the places in code that use a method: between 16 and 27, both
excluded. -/
def Version.listsUsages (version : Version) : Bool := ⟨16, 0⟩ < version ∧ version < ⟨27, 0⟩

end ManagedLayout
