import ManagedLayout.Format.Basic

/-!
# Formats of records

In JSON a record is an object with one member for each field, or an array of the fields in their
order. Members with other names are ignored. A field may have a value that stands for it when it is
missing, and may be left out when its value says nothing; every other field must be there, and none
may be there twice. If several members are at fault, the first one in the text counts, and a missing
one comes last.

In binary form the fields follow each other, all of them, without their names.
-/

namespace ManagedLayout

/-- One field of a record. -/
structure Field (Value : Type) where
  name : String
  format : Format Value
  /-- The value of a record that lacks the field, if a record may lack it. -/
  missing? : Option Value
  /-- Whether the field is left out of an object. -/
  isOmitted : Value → Bool

namespace Field

variable {Value : Type}

/-- A field that every record has. -/
def required (name : String) (format : Format Value) : Field Value :=
  ⟨name, format, none, fun _ ↦ false⟩

/-- A field that may be missing, and is always written. -/
def defaulted (name : String) (format : Format Value) (value : Value) : Field Value :=
  ⟨name, format, some value, fun _ ↦ false⟩

/-- A field that is written only if it differs from the value that stands for it otherwise. -/
def omitted (name : String) (format : Format Value) (value : Value) (isOmitted : Value → Bool) :
    Field Value :=
  ⟨name, format, some value, isOmitted⟩

/-- The positions and values of the members with the name of the field. -/
def occurrences (field : Field Value) (members : List (String × Json)) : List (Json × Nat) :=
  (members.zipIdx.filter fun (member, _) ↦ member.1 == field.name).map
    fun (member, position) ↦ (member.2, position)

/-- Reads the field from the members of an object. A fault comes with the position of the member
that is at fault. -/
def ofMembers (field : Field Value) (members : List (String × Json)) :
    Except (Fault × Nat) Value :=
  match field.occurrences members with
  | [] =>
    match field.missing? with
    | some value => .ok value
    | none => .error (.mismatch, members.length)
  | (json, position) :: others =>
    match field.format.ofJson json, others with
    | .error fault, _ => .error (fault, position)
    | .ok value, [] => .ok value
    | .ok _, (_, again) :: _ => .error (.mismatch, again)

/-- Reads the field from the front of the items of an array. -/
def ofItems (field : Field Value) : List Json → Except Fault (Value × List Json)
  | item :: rest => do return (← field.format.ofJson item, rest)
  | [] =>
    match field.missing? with
    | some value => .ok (value, [])
    | none => .error .mismatch

/-- The member of an object for the field, if it is not left out. -/
def toMembers (field : Field Value) (value : Value) : List (String × Json) :=
  if field.isOmitted value then [] else [(field.name, field.format.toJson value)]

end Field

/-- The fields of a record, whose values are a nest of pairs. -/
structure Fields (Values : Type) where
  ofMembers : List (String × Json) → Except (Fault × Nat) Values
  ofItems : List Json → Except Fault (Values × List Json)
  toMembers : Values → List (String × Json)
  words : Values → List Word
  parse : List UInt8 → Option (Values × List UInt8)

namespace Fields

variable {Value Values : Type}

/-- No field. -/
def none : Fields Unit where
  ofMembers _ := .ok ()
  ofItems items := .ok ((), items)
  toMembers _ := []
  words _ := []
  parse bytes := some ((), bytes)

/-- Two readings of the same members: if both are at fault, the earlier fault counts. -/
def both {Left Right : Type} :
    Except (Fault × Nat) Left → Except (Fault × Nat) Right → Except (Fault × Nat) (Left × Right)
  | .ok left, .ok right => .ok (left, right)
  | .error fault, .ok _ => .error fault
  | .ok _, .error fault => .error fault
  | .error left, .error right => .error (if right.2 < left.2 then right else left)

/-- A field before other fields. -/
def cons (field : Field Value) (rest : Fields Values) : Fields (Value × Values) where
  ofMembers members := both (field.ofMembers members) (rest.ofMembers members)
  ofItems items := do
    let (value, items) ← field.ofItems items
    let (values, items) ← rest.ofItems items
    return ((value, values), items)
  toMembers values := field.toMembers values.1 ++ rest.toMembers values.2
  words values := field.format.words values.1 ++ rest.words values.2
  parse bytes := do
    let (value, bytes) ← field.format.parse bytes
    let (values, bytes) ← rest.parse bytes
    return ((value, values), bytes)

end Fields

/-- Records with the given fields. -/
def Format.record {Value Values : Type} (fields : Fields Values) (build : Values → Value)
    (values : Value → Values) : Format Value where
  ofJson
    | .object members =>
      match fields.ofMembers members with
      | .ok values => .ok (build values)
      | .error (fault, _) => .error fault
    | .array items =>
      match fields.ofItems items with
      | .ok (values, []) => .ok (build values)
      | .ok (_, _ :: _) => .error .mismatch
      | .error fault => .error fault
    | _ => .error .mismatch
  toJson value := .object (fields.toMembers (values value))
  words value := fields.words (values value)
  parse bytes := do
    let (values, rest) ← fields.parse bytes
    return (build values, rest)

end ManagedLayout
