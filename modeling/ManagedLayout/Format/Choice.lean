import ManagedLayout.Format.Basic

/-!
# Formats of alternatives

A value of one of several cases is written in JSON as an object whose only member is named for the
case and holds its payload; a case without a payload is written as its name alone, and may also be
read from an object that holds `null`. In binary form the number of the case, in four bytes, comes
before the payload.
-/

namespace ManagedLayout

/-- The cases of a choice, whose values are a nest of sums. -/
structure Cases (Values : Type) where
  ofNamed : String → Option Json → Except Fault Values
  toNamed : Values → String × Option Json
  words : Values → Nat × List Word
  parse : Nat → List UInt8 → Option (Values × List UInt8)

namespace Cases

variable {Value Values : Type}

/-- No case. -/
def none : Cases Empty where
  ofNamed _ _ := .error .mismatch
  toNamed := nofun
  words := nofun
  parse _ _ := .none

/-- Puts a case with a payload before other cases. -/
def payload (name : String) (format : Format Value) (rest : Cases Values) :
    Cases (Value ⊕ Values) where
  ofNamed found json? :=
    if found = name then
      match json? with
      | some json => do return .inl (← format.ofJson json)
      | .none => .error .mismatch
    else do return .inr (← rest.ofNamed found json?)
  toNamed
    | .inl value => (name, some (format.toJson value))
    | .inr values => rest.toNamed values
  words
    | .inl value => (0, format.words value)
    | .inr values => ((rest.words values).1 + 1, (rest.words values).2)
  parse
    | 0, bytes => do
      let (value, bytes) ← format.parse bytes
      return (.inl value, bytes)
    | number + 1, bytes => do
      let (values, bytes) ← rest.parse number bytes
      return (.inr values, bytes)

/-- Puts a case without a payload before other cases. -/
def plain (name : String) (rest : Cases Values) : Cases (Unit ⊕ Values) where
  ofNamed found json? :=
    if found = name then
      match json? with
      | .none | some .null => .ok (.inl ())
      | _ => .error .mismatch
    else do return .inr (← rest.ofNamed found json?)
  toNamed
    | .inl () => (name, .none)
    | .inr values => rest.toNamed values
  words
    | .inl () => (0, [])
    | .inr values => ((rest.words values).1 + 1, (rest.words values).2)
  parse
    | 0, bytes => some (.inl (), bytes)
    | number + 1, bytes => do
      let (values, bytes) ← rest.parse number bytes
      return (.inr values, bytes)

end Cases

namespace Format

variable {Value : Type}

/-- Values of the given cases. -/
def choice {Values : Type} (cases : Cases Values) (build : Values → Value)
    (values : Value → Values) : Format Value where
  ofJson
    | .string name => do return build (← cases.ofNamed name none)
    | .object [(name, payload)] => do return build (← cases.ofNamed name (some payload))
    | _ => .error .mismatch
  toJson value :=
    match cases.toNamed (values value) with
    | (name, none) => .string name
    | (name, some payload) => .object [(name, payload)]
  words value :=
    naturalWords 4 (cases.words (values value)).1 ++ (cases.words (values value)).2
  parse bytes := do
    let (number, bytes) ← ofLittleEndian? 4 bytes
    let (values, bytes) ← cases.parse number bytes
    return (build values, bytes)

/-- Values of a finite type without payloads, listed in the order of their numbers. -/
def enumeration [DecidableEq Value] (all : List Value) (name : Value → String) : Format Value where
  ofJson
    | .string found | .object [(found, .null)] =>
      match all.find? (name · == found) with
      | some value => .ok value
      | none => .error .mismatch
    | _ => .error .mismatch
  toJson value := .string (name value)
  words value := naturalWords 4 (all.idxOf value)
  parse bytes := do
    let (number, rest) ← ofLittleEndian? 4 bytes
    return (← all[number]?, rest)

end Format

end ManagedLayout
