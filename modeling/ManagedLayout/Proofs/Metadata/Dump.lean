import ManagedLayout.Metadata.Basic
import ManagedLayout.Proofs.Format.Json

/-!
# The JSON form of a dump

A dump is read back from the JSON value that it is written as, whatever the order of members, and
from the text of that value. A dump that somebody else wrote may look different: fields may be
missing, and versions, indices, kinds and records have several forms. Once it is read, it is written
in the one form that is read back.
-/

namespace ManagedLayout

/-! ### Lossless formats -/

instance : TypeDefinition.format.Lossless := .record (fun _ ↦ rfl) (by decide)

instance : FieldDefinition.format.Lossless := .record (fun _ ↦ rfl) (by decide)

instance : MethodDefinition.format.Lossless := .record (fun _ ↦ rfl) (by decide)

instance : GenericParameter.format.Lossless := .record (fun _ ↦ rfl) (by decide)

instance : GenericContainer.format.Lossless := .record (fun _ ↦ rfl) (by decide)

instance : Image.format.Lossless := .record (fun _ ↦ rfl) (by decide)

instance : ContextKind.format.Lossless :=
  Format.lossless_enumeration ContextKind.mem_all (by decide)

instance : ContextEntry.format.Lossless := .record (fun _ ↦ rfl) (by decide)

instance : UsagePair.format.Lossless := .record (fun _ ↦ rfl) (by decide)

instance : MemoryLayout.format.Lossless := .record (fun _ ↦ rfl) (by decide)

instance : MemoryLayout.format.NeverNull := inferInstanceAs (Format.record _ _ _).NeverNull

instance : Declarations.format.Lossless := .record (fun _ ↦ rfl) (by decide)

instance : TypeKind.format.Lossless := Format.lossless_enumeration TypeKind.mem_all (by decide)

instance : TypeData.format.Lossless := .choice (fun data ↦ by cases data <;> rfl) (by decide)

instance : TypeReference.format.Lossless := .record (fun _ ↦ rfl) (by decide)

instance : InstantiationPair.format.Lossless := .record (fun _ ↦ rfl) (by decide)

instance : GenericClass.format.Lossless := .record (fun _ ↦ rfl) (by decide)

instance : GenericInstantiation.format.Lossless := .record (fun _ ↦ rfl) (by decide)

instance : ArrayType.format.Lossless := .record (fun _ ↦ rfl) (by decide)

instance : MethodSpec.format.Lossless := .record (fun _ ↦ rfl) (by decide)

instance : FieldOffsets.format.Lossless :=
  .choice (fun offsets ↦ by cases offsets <;> rfl) (by decide)

instance : FieldOffsets.format.NeverNull := inferInstanceAs (Format.choice _ _ _).NeverNull

instance : TypeRegistration.format.Lossless := .record (fun _ ↦ rfl) (by decide)

instance : EntryRange.format.Lossless := .record (fun _ ↦ rfl) (by decide)

instance : TokenRange.format.Lossless := .record (fun _ ↦ rfl) (by decide)

instance : CodeModule.format.Lossless := .record (fun _ ↦ rfl) (by decide)

instance : CodeRegistration.format.Lossless := .record (fun _ ↦ rfl) (by decide)

instance : Registrations.format.Lossless := .record (fun _ ↦ rfl) (by decide)

instance : Metadata.format.Lossless := .record (fun _ ↦ rfl) (by decide)

namespace Metadata

variable {metadata : Metadata} {json : Json}

theorem ofJson_eq_ok_iff :
    ofJson json = .ok metadata ↔
      format.ofJson json = .ok metadata ∧ metadata.version.isSupported = true := by
  unfold ofJson
  cases format.ofJson json with
  | error fault => simp
  | ok found =>
    simp only [checkVersion, Except.ok.injEq]
    split <;> grind

/-- A dump of a supported version is read from its own JSON value, whatever the order of members. -/
theorem ofJson_view_toJson {view : Json → Json} (isRearrangement : Json.IsRearrangement view)
    (isSupported : metadata.version.isSupported = true) :
    ofJson (view metadata.toJson) = .ok metadata :=
  have lossless : format.Lossless := inferInstance
  ofJson_eq_ok_iff.mpr ⟨lossless.ofJson_view isRearrangement metadata, isSupported⟩

/-- The same for the text of the value. -/
theorem ofText_pretty_toJson (isSupported : metadata.version.isSupported = true) :
    ofText metadata.toJson.pretty = .ok metadata := by
  have lossless : format.Lossless := inferInstance
  have read : Json.ofText? metadata.toJson.pretty = some metadata.toJson :=
    Json.ofText?_pretty (lossless.isPlain metadata)
  rw [Json.ofText?] at read
  rw [ofText, ofTextBytes, read]
  exact ofJson_view_toJson Json.isRearrangement_id isSupported

/-- **JSON dumps are lossless.** A dump of a supported version is read back from its JSON value,
with the members of objects in the order written or in that of their keys, and from the text of that
value. So is whatever was read from any other JSON value. -/
theorem ofJson_toJson :
    (∀ metadata : Metadata, metadata.version.isSupported = true →
      ofJson metadata.toJson = .ok metadata ∧ ofJson metadata.toJson.canonical = .ok metadata ∧
        ofText metadata.toJson.pretty = .ok metadata) ∧
    ∀ json metadata, ofJson json = .ok metadata →
      ofJson metadata.toJson = .ok metadata ∧ ofJson metadata.toJson.canonical = .ok metadata ∧
        ofText metadata.toJson.pretty = .ok metadata := by
  have written (metadata : Metadata) (isSupported : metadata.version.isSupported = true) :
      ofJson metadata.toJson = .ok metadata ∧ ofJson metadata.toJson.canonical = .ok metadata ∧
        ofText metadata.toJson.pretty = .ok metadata :=
    ⟨ofJson_view_toJson Json.isRearrangement_id isSupported,
      ofJson_view_toJson Json.isRearrangement_canonical isSupported,
      ofText_pretty_toJson isSupported⟩
  exact ⟨written, fun _ metadata read ↦ written metadata (ofJson_eq_ok_iff.mp read).2⟩

/-- A dump as somebody may type it: the version is a number, a record is an array without its last
fields, an absent index is a word, a kind is an object, most fields are missing, and there is a
member that no record has. -/
def typed : Json :=
  .object [
    ("runtime_metadata", .object [("metadata_registration", .object [("types", .array [.object [
      ("ty", .object [("class", .null)]), ("data", .object [("TypeIndex", .ofInt (-1))])]])])]),
    ("comment", .string "draft"),
    ("global_metadata", .object [("fields", .array [
      .array [.string "span", .ofNat 0xFFFFFFFF], .array []])]),
    ("version", .ofNat 24)]

def ofTyped : Metadata where
  version := ⟨24, 0⟩
  declarations := { Declarations.empty with
    fields := .ofList [⟨"span", .absent, 0⟩, ⟨"", .absent, 0⟩] }
  registrations := { Registrations.empty with
    types := { TypeRegistration.empty with
      types := .ofList [⟨.type .absent, 0, .classType, false, false, false⟩] } }

theorem ofTyped_ofJson_toJson :
    ofJson typed = .ok ofTyped ∧ ofTyped.version.isSupported = true ∧
      ofJson ofTyped.toJson = .ok ofTyped ∧ ofJson ofTyped.toJson.canonical = .ok ofTyped ∧
      ofText ofTyped.toJson.pretty = .ok ofTyped :=
  have read : ofJson typed = .ok ofTyped := by rfl
  ⟨read, by decide, ofJson_toJson.2 typed ofTyped read⟩

end Metadata

end ManagedLayout
