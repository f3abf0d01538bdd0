import ManagedLayout.Event
import ManagedLayout.Metadata.Basic

/-!
# Field offsets

The offset of a field within its type comes from the tables that the compiler left, or from any
other function of the same signature. In the tables, fields of value types count from the start of
a boxed object; the header of the box is taken off.
-/

namespace ManagedLayout

/-- A field, as far as its offset depends on it. -/
structure FieldPlace where
  definition : Index .typeDefinitions
  /-- The place of the field among those of its type. -/
  ordinal : UInt32
  /-- The place of the field among all fields. -/
  field : Index .fields
  /-- Whether the type of the field's owner is a value type. -/
  inValueType : Bool
  isStatic : Bool
  deriving DecidableEq, Repr

/-- A function that knows where fields are. -/
abbrev OffsetSource : Type := FieldPlace → Int32

namespace FieldOffsets

/-- The offset in the tables. -/
def find? (offsets : FieldOffsets) (place : FieldPlace) : Option Int32 :=
  match offsets with
  | byField offsets => offsets[place.field.position]?
  | byType offsets => (offsets[place.definition.position]?).bind (·[place.ordinal.toNat]?)

/-- What is odd about the offset tables of a dump, if anything. -/
def events (metadata : Metadata) : List Event :=
  let hasNested : Bool := ⟨21, 0⟩ < metadata.version
  match metadata.registrations.types.fieldOffsets? with
  | some (byField _) => if hasNested then [.flatFieldOffsets metadata.version] else []
  | some (byType _) => if hasNested then [] else [.nestedFieldOffsets metadata.version]
  | none => [.noFieldOffsets]

end FieldOffsets

namespace Metadata

/-- The size of the header of a boxed object. -/
def headerSize (metadata : Metadata) : Int32 := if metadata.registrations.is32Bit then 8 else 16

/-- The offset of a field according to the tables of a dump, -1 if they do not have it. -/
def fieldOffset (metadata : Metadata) : OffsetSource := fun place ↦
  match metadata.registrations.types.fieldOffsets?.bind (·.find? place) with
  | some offset =>
    if 0 < offset ∧ place.inValueType ∧ ¬ place.isStatic then offset - metadata.headerSize
    else offset
  | none => -1

end Metadata

end ManagedLayout
