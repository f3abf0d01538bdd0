import ManagedLayout.Metadata.Basic

/-!
# Layout errors

Why struct layouts cannot be made from a dump. Absence is never an error; what fails is a reference
that leads nowhere, a kind that has no layout, or a type without an end.
-/

namespace ManagedLayout

/-- Why a lookup, a resolution or a whole build fails. -/
inductive LayoutError where
  /-- The table has no record at the index. -/
  | outOfRange (table : TableKind) (index : UInt32)
  /-- The address is that of no record of the table. -/
  | badHandle (table : TableKind) (handle : UInt64)
  /-- The data of a type reference does not go with its kind. -/
  | mismatchedData (type : UInt32) (kind : TypeKind)
  /-- No code module has the name of the image. -/
  | missingModule (image : String)
  /-- The generic class instantiates a definition that belongs to no image. -/
  | unownedDefinition (genericClass : UInt32)
  | unsupportedKind (kind : TypeKind)
  | unsupportedContextKind (kind : ContextKind)
  /-- The expansion of the record leads back to the record. -/
  | nonTerminating (table : TableKind) (index : UInt32)
  /-- The type has more parts inside each other than may be. -/
  | tooDeep (type : UInt32) (limit : Nat)
  deriving DecidableEq, Repr

namespace LayoutError

def message : LayoutError → String
  | outOfRange table index =>
    table.label ++ " index " ++ toString index.toNat ++ " does not resolve to a record"
  | badHandle table handle =>
    table.label ++ " handle 0x" ++ Text.hexadecimal handle.toNat
      ++ " does not translate to a record"
  | mismatchedData type kind =>
    "type " ++ toString type.toNat ++ " has kind " ++ kind.label
      ++ " but carries mismatched data"
  | missingModule image => "no code gen module is registered for image " ++ image
  | unownedDefinition genericClass =>
    "generic class " ++ toString genericClass.toNat ++ " instantiates a definition no image owns"
  | unsupportedKind kind => "unsupported type kind " ++ kind.label
  | unsupportedContextKind kind => "unsupported rgctx kind " ++ kind.label
  | nonTerminating table index =>
    "expansion of " ++ table.label ++ " record " ++ toString index.toNat
      ++ " refers back to itself"
  | tooDeep type limit =>
    "type " ++ toString type.toNat ++ " nests more than " ++ toString limit ++ " levels deep"

end LayoutError

/-- The record at an index, which must have one. -/
def Table.fetch {kind : TableKind} {Record : Type} (table : Table kind Record)
    (index : Index kind) : Except LayoutError Record :=
  match table.get? index with
  | some record => .ok record
  | none => .error (.outOfRange kind index.raw)

theorem Table.fetch_eq_ok_iff {kind : TableKind} {Record : Type} {table : Table kind Record}
    {index : Index kind} {record : Record} :
    table.fetch index = .ok record ↔ table.get? index = some record := by
  simp only [Table.fetch]
  cases table.get? index <;> simp

end ManagedLayout
