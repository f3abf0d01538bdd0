import ManagedLayout.Format.Basic
import ManagedLayout.Table
import ManagedLayout.Text.Utf8
import ManagedLayout.Version

/-!
# Formats of single values

Numbers have a fixed width in binary form, and must fit it in JSON, where a number written with a
fraction or an exponent is not an integer. A version is the exception: a decimal stands for the
version that its shortest text names.
-/

namespace ManagedLayout.Format

/-- A type of `width`-byte numbers without a sign. -/
def natural {Value : Type} (width : Nat) (toNat : Value → Nat) (ofNat : Nat → Value) :
    Format Value where
  ofJson
    | .number (.integer value) =>
      if 0 ≤ value ∧ value < Nat.pow 256 width then .ok (ofNat value.toNat) else .error .mismatch
    | _ => .error .mismatch
  toJson value := .ofNat (toNat value)
  words value := naturalWords width (toNat value)
  parse bytes := do
    let (value, rest) ← ofLittleEndian? width bytes
    return (ofNat value, rest)

def uint8 : Format UInt8 := natural 1 UInt8.toNat UInt8.ofNat

def uint16 : Format UInt16 := natural 2 UInt16.toNat UInt16.ofNat

def uint32 : Format UInt32 := natural 4 UInt32.toNat UInt32.ofNat

def uint64 : Format UInt64 := natural 8 UInt64.toNat UInt64.ofNat

/-- Numbers of four bytes with a sign, in two's complement. -/
def int32 : Format Int32 where
  ofJson
    | .number (.integer value) =>
      if Int32.minValue.toInt ≤ value ∧ value ≤ Int32.maxValue.toInt then .ok (Int32.ofInt value)
      else .error .mismatch
    | _ => .error .mismatch
  toJson value := .ofInt value.toInt
  words value := naturalWords 4 value.toUInt32.toNat
  parse bytes := do
    let (value, rest) ← ofLittleEndian? 4 bytes
    return ((UInt32.ofNat value).toInt32, rest)

/-- Truth values; in binary form a byte that is 0 or 1. -/
def flag : Format Bool where
  ofJson
    | .bool value => .ok value
    | _ => .error .mismatch
  toJson value := .bool value
  words value := [.byte (if value then 1 else 0)]
  parse
    | 0 :: rest => some (false, rest)
    | 1 :: rest => some (true, rest)
    | _ => none

/-- Takes `count` bytes off the front of the bytes. -/
def takeBytes? (count : Nat) (bytes : List UInt8) : Option (List UInt8 × List UInt8) :=
  let (front, rest) := bytes.splitAt count
  if front.length = count then some (front, rest) else none

/-- Texts; in binary form their length in bytes, and their UTF-8 encoding. -/
def text : Format String where
  ofJson
    | .string value => .ok value
    | _ => .error .mismatch
  toJson value := .string value
  words value :=
    naturalWords 8 value.utf8ByteSize ++ (Text.utf8 value).map Word.byte
  parse bytes := do
    let (size, rest) ← ofLittleEndian? 8 bytes
    let (encoded, rest) ← takeBytes? size rest
    return (← Text.ofUtf8? encoded, rest)

/-- Indices: in JSON their number, where both -1 and the word of all ones stand for no record; in
binary form the same number in eight bytes. -/
def index {kind : TableKind} : Format (Index kind) where
  ofJson
    | .number (.integer value) =>
      if value = -1 then .ok Index.absent
      else if 0 ≤ value ∧ value < UInt32.size then .ok ⟨UInt32.ofNat value.toNat⟩
      else if Int64.minValue.toInt ≤ value ∧ value ≤ Int64.maxValue.toInt then .error (.index value)
      else .error .mismatch
    | _ => .error .mismatch
  toJson value := .ofInt value.number
  words value := [.index value.raw]
  parse bytes := do
    let (value, rest) ← ofLittleEndian? 8 bytes
    if value = UInt64.size - 1 then return (Index.absent, rest)
    else if value < UInt32.size then return (⟨UInt32.ofNat value⟩, rest)
    else none

/-- The version that a text names. -/
def versionOfText (text : String) : Except Fault Version :=
  match Version.ofText? text with
  | some version => .ok version
  | none => .error (.version text)

/-- The version that a decimal stands for: the one that the shortest text of its double names. -/
def versionOfDecimal (literal : DecimalLiteral) : Except Fault Version :=
  match literal.text? with
  | some text => versionOfText text
  | none => .error .mismatch

/-- Versions. In JSON an integer is a major part; a text or a decimal is read as a version text. An
integer that does not fit 64 bits counts as a decimal. -/
def version : Format Version where
  ofJson
    | .string text => versionOfText text
    | .number (.integer value) =>
      if 0 ≤ value ∧ value < UInt32.size then .ok ⟨UInt32.ofNat value.toNat, 0⟩
      else if Int64.minValue.toInt ≤ value ∧ value < UInt64.size then .error .mismatch
      else versionOfDecimal (Json.Number.literalOfInt value)
    | .number (.decimal literal) => versionOfDecimal literal
    | _ => .error .mismatch
  toJson value := .string value.text
  words value := naturalWords 4 value.major.toNat ++ naturalWords 4 value.minor.toNat
  parse bytes := do
    let (major, rest) ← ofLittleEndian? 4 bytes
    let (minor, rest) ← ofLittleEndian? 4 rest
    return (⟨UInt32.ofNat major, UInt32.ofNat minor⟩, rest)

end ManagedLayout.Format
