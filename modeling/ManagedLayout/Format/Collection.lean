import ManagedLayout.Format.Basic
import ManagedLayout.Table

/-!
# Formats of lists and optional values

A list stands in binary form behind the number of its items; an optional value behind a byte that
says whether there is one. In JSON a missing value is `null`.
-/

namespace ManagedLayout.Format

variable {Value : Type}

/-- Takes `count` values off the front of the bytes, behind those found already, which come in
reverse. -/
def parseMany (format : Format Value) :
    (count : Nat) → (found : List Value) → List UInt8 → Option (List Value × List UInt8)
  | 0, found, bytes => some (found.reverse, bytes)
  | count + 1, found, bytes => do
    let (value, rest) ← format.parse bytes
    parseMany format count (value :: found) rest

/-- Reads JSON values one after the other; the first fault counts. -/
def ofJsonMany (format : Format Value) : List Json → Except Fault (List Value)
  | [] => .ok []
  | item :: rest => do return (← format.ofJson item) :: (← ofJsonMany format rest)

/-- Lists of values. -/
def list (format : Format Value) : Format (List Value) where
  ofJson
    | .array items => format.ofJsonMany items
    | _ => .error .mismatch
  toJson values := .array (values.map format.toJson)
  words values := naturalWords 8 values.length ++ values.flatMap format.words
  parse bytes := do
    let (count, rest) ← ofLittleEndian? 8 bytes
    format.parseMany count [] rest

/-- Values that may be missing. -/
def optional (format : Format Value) : Format (Option Value) where
  ofJson
    | .null => .ok none
    | json => do return some (← format.ofJson json)
  toJson
    | none => .null
    | some value => format.toJson value
  words
    | none => [.byte 0]
    | some value => .byte 1 :: format.words value
  parse
    | 0 :: rest => some (none, rest)
    | 1 :: rest => do
      let (value, rest) ← format.parse rest
      return (some value, rest)
    | _ => none

/-- Arrays of values, stored like lists. -/
def array (format : Format Value) : Format (Array Value) :=
  format.list.map List.toArray Array.toList

/-- Tables, stored as the list of their records. -/
def table {kind : TableKind} (format : Format Value) : Format (Table kind Value) :=
  format.list.map Table.ofList Table.toList

end ManagedLayout.Format
