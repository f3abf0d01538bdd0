import ManagedLayout.Proofs.Format.Size
import ManagedLayout.Proofs.Metadata.Cache

/-!
# Dumps that are read from JSON

A dump that is read from a JSON text has no longer lists and texts than the text itself. If the
length of the text fits 64 bits, then the dump is storable, and is read back from its cache.
-/

namespace ManagedLayout

instance : TypeDefinition.format.ReadsStorable TypeDefinition.IsStorable :=
  .record fun _ ↦ by simp [TypeDefinition.IsStorable]

instance : FieldDefinition.format.ReadsStorable FieldDefinition.IsStorable :=
  .record fun _ ↦ by simp [FieldDefinition.IsStorable]

instance : MethodDefinition.format.ReadsStorable MethodDefinition.IsStorable :=
  .record fun _ ↦ by simp [MethodDefinition.IsStorable]

instance : GenericParameter.format.ReadsStorable GenericParameter.IsStorable :=
  .record fun _ ↦ by simp [GenericParameter.IsStorable]

instance : Image.format.ReadsStorable Image.IsStorable :=
  .record fun _ ↦ by simp [Image.IsStorable]

instance : Declarations.format.ReadsStorable Declarations.IsStorable :=
  .record fun _ ↦ by simp [Declarations.isStorable_iff, Table.IsStorable]

instance : GenericInstantiation.format.ReadsStorable GenericInstantiation.IsStorable :=
  .record fun _ ↦ by simp [GenericInstantiation.IsStorable]

instance : FieldOffsets.format.ReadsStorable FieldOffsets.IsStorable :=
  .choice <| by rintro (_ | _ | ⟨⟨⟩⟩) <;> simp [FieldOffsets.build, FieldOffsets.IsStorable]

instance : TypeRegistration.format.ReadsStorable TypeRegistration.IsStorable :=
  .record fun _ ↦ by simp [TypeRegistration.isStorable_iff, Table.IsStorable]

instance : CodeModule.format.ReadsStorable CodeModule.IsStorable :=
  .record fun _ ↦ by simp [CodeModule.isStorable_iff]

instance : CodeRegistration.format.ReadsStorable CodeRegistration.IsStorable :=
  .record fun _ ↦ by simp [CodeRegistration.IsStorable]

instance {name : String} :
    (Field.defaulted name CodeRegistration.format ⟨[]⟩).ReadsStorable
      CodeRegistration.IsStorable :=
  .defaulted (by decide)

instance {name : String} :
    (Field.defaulted name TypeRegistration.format .empty).ReadsStorable
      TypeRegistration.IsStorable :=
  .defaulted (by decide)

instance : Registrations.format.ReadsStorable Registrations.IsStorable :=
  .record fun _ ↦ by simp [Registrations.isStorable_iff]

instance : Metadata.format.ReadsStorable Metadata.IsStorable :=
  .record fun _ ↦ by simp [Metadata.isStorable_iff]

namespace Metadata

variable {metadata : Metadata} {bytes : List UInt8}

theorem isSupported_of_ofJson {json : Json} (read : ofJson json = .ok metadata) :
    metadata.version.isSupported = true ∧ format.ofJson json = .ok metadata := by
  unfold ofJson at read
  split at read
  next found isFound =>
    unfold checkVersion at read
    split at read
    next isSupported =>
      obtain rfl := Except.ok.inj read
      exact ⟨isSupported, isFound⟩
    next => nomatch read
  next => nomatch read

/-- **What is read from JSON can be cached.** -/
theorem ofBytes_toBytes_of_ofTextBytes (read : ofTextBytes bytes = .ok metadata)
    (fits : bytes.length < UInt64.size) : ofBytes metadata.toBytes = .ok metadata := by
  cases isJson : Json.ofBytes? bytes with
  | none => simp [ofTextBytes, isJson] at read
  | some json =>
    obtain ⟨isSupported, isRead⟩ : metadata.version.isSupported = true ∧
        format.ofJson json = .ok metadata :=
      isSupported_of_ofJson (by simpa [ofTextBytes, isJson] using read)
    have isSmall : json.IsSmall := Nat.lt_of_le_of_lt (Json.size_ofBytes?_le isJson) fits
    have reads : format.ReadsStorable IsStorable := inferInstance
    have exact : format.Exact IsStorable := inferInstance
    exact ofBytes_eq_ok_iff_parse.mpr ⟨isSupported, [],
      (exact.reads _ _ _).mpr ⟨metadata.toBytes, (List.append_nil _).symm,
        reads.ofJson isSmall isRead, .written _⟩⟩

end Metadata

end ManagedLayout
