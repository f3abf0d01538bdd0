import ManagedLayout.Json.Basic

/-!
# File formats of a value

A metadata dump is stored in two ways: as JSON, and as a binary cache. A `Format` says for one type
how its values are read and written in both. Binary values stand one behind the other without
anything in between, so that a reader takes a value off the front of the bytes and returns the rest.

The formats of composed types follow from those of their parts; each construction has a module of
its own.
-/

namespace ManagedLayout

/-- Why a JSON value is refused. -/
inductive Fault where
  /-- The value has another shape, or a number does not fit. -/
  | mismatch
  /-- The number is not the number of any index. -/
  | index (value : Int)
  /-- The text is not the text of any version. -/
  | version (text : String)
  deriving DecidableEq, Repr

/-- A piece of a binary file. An index is kept apart from the bytes it is written as, because the
absent one has a second spelling. -/
inductive Word where
  | byte (value : UInt8)
  | index (raw : UInt32)
  deriving DecidableEq, Repr

/-- The bytes of a number, `width` of them, lowest first. -/
def littleEndian : (width : Nat) → Nat → List UInt8
  | 0, _ => []
  | width + 1, value => UInt8.ofNat value :: littleEndian width (value / 256)

/-- Takes a number of `width` bytes, lowest first, off the front of the bytes. -/
def ofLittleEndian? : (width : Nat) → List UInt8 → Option (Nat × List UInt8)
  | 0, bytes => some (0, bytes)
  | _ + 1, [] => none
  | width + 1, byte :: bytes => do
    let (high, rest) ← ofLittleEndian? width bytes
    return (byte.toNat + 256 * high, rest)

/-- The bytes of an index: its number in 64 bits, where no record is -1. -/
def Word.indexBytes (raw : UInt32) : List UInt8 :=
  littleEndian 8 (if raw = 0xFFFFFFFF then UInt64.size - 1 else raw.toNat)

/-- The bytes that a piece is written as. -/
def Word.bytes : Word → List UInt8
  | byte value => [value]
  | index raw => indexBytes raw

/-- How the values of a type are stored. -/
structure Format (Value : Type) where
  ofJson : Json → Except Fault Value
  toJson : Value → Json
  words : Value → List Word
  parse : List UInt8 → Option (Value × List UInt8)

namespace Format

variable {Value : Type}

/-- The bytes of a value. -/
def bytes (format : Format Value) (value : Value) : List UInt8 :=
  (format.words value).flatMap Word.bytes

/-- The value at the front of a sequence of bytes; whatever follows it is ignored. -/
def ofBytes? (format : Format Value) (bytes : List UInt8) : Option Value :=
  (format.parse bytes).map Prod.fst

/-- The words of a number. -/
def naturalWords (width : Nat) (value : Nat) : List Word := (littleEndian width value).map Word.byte

/-- A format whose values are carried over from another one. -/
def map {Part : Type} (format : Format Part) (build : Part → Value) (parts : Value → Part) :
    Format Value where
  ofJson json := do return build (← format.ofJson json)
  toJson value := format.toJson (parts value)
  words value := format.words (parts value)
  parse bytes := do
    let (part, rest) ← format.parse bytes
    return (build part, rest)

end Format

theorem length_littleEndian (width value : Nat) : (littleEndian width value).length = width := by
  induction width generalizing value with
  | zero => rfl
  | succ width ih => simp [littleEndian, ih]

theorem ofLittleEndian?_littleEndian (width value : Nat) (rest : List UInt8)
    (fits : value < Nat.pow 256 width) :
    ofLittleEndian? width (littleEndian width value ++ rest) = some (value, rest) := by
  induction width generalizing value with
  | zero =>
    have : value = 0 := Nat.lt_one_iff.mp fits
    simp [ofLittleEndian?, littleEndian, this]
  | succ width ih =>
    have : value / 256 < Nat.pow 256 width := by
      rw [Nat.div_lt_iff_lt_mul (by decide)]
      exact fits
    simp only [littleEndian, List.cons_append, ofLittleEndian?, ih _ this]
    simp
    omega

end ManagedLayout
