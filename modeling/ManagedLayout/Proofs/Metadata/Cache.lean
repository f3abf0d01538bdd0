import ManagedLayout.Metadata.Basic
import ManagedLayout.Proofs.Format.Binary
import Mathlib.Tactic.MkIffOfInductiveProp

/-!
# The binary cache of a dump

A cache gives back the dump that it was written from, whatever follows it, and no part of it that
was cut off at the end is taken for a cache. The other way round, what is read as a dump is the
cache of that dump byte for byte, except that an absent index may be spelled in two ways.

The number of items of a list, and of bytes of a text, is written in 64 bits. A dump in which they
fit is storable; nothing longer fits a memory with addresses of that size.
-/

namespace ManagedLayout

/-! ### Storable records -/

/-- The number of records fits 64 bits, and each of them is storable. -/
def Table.IsStorable {kind : TableKind} {Record : Type} (table : Table kind Record)
    (storable : Record → Prop) : Prop :=
  table.size < UInt64.size ∧ ∀ record ∈ table.toList, storable record

def TypeDefinition.IsStorable (definition : TypeDefinition) : Prop :=
  definition.name.utf8ByteSize < UInt64.size ∧ definition.namespaceName.utf8ByteSize < UInt64.size

def FieldDefinition.IsStorable (field : FieldDefinition) : Prop :=
  field.name.utf8ByteSize < UInt64.size

def MethodDefinition.IsStorable (method : MethodDefinition) : Prop :=
  method.name.utf8ByteSize < UInt64.size

def GenericParameter.IsStorable (parameter : GenericParameter) : Prop :=
  parameter.name.utf8ByteSize < UInt64.size

def Image.IsStorable (image : Image) : Prop := image.name.utf8ByteSize < UInt64.size

@[mk_iff]
structure Declarations.IsStorable (declarations : Declarations) : Prop where
  typeDefinitions : declarations.typeDefinitions.IsStorable TypeDefinition.IsStorable
  fields : declarations.fields.IsStorable FieldDefinition.IsStorable
  methods : declarations.methods.IsStorable MethodDefinition.IsStorable
  genericParameters : declarations.genericParameters.IsStorable GenericParameter.IsStorable
  genericContainers : declarations.genericContainers.size < UInt64.size
  images : declarations.images.IsStorable Image.IsStorable
  vtableMethods : declarations.vtableMethods.size < UInt64.size
  contextEntries : declarations.contextEntries.size < UInt64.size
  usagePairs : declarations.usagePairs.length < UInt64.size

def GenericInstantiation.IsStorable (instantiation : GenericInstantiation) : Prop :=
  instantiation.arguments.size < UInt64.size

def FieldOffsets.IsStorable : FieldOffsets → Prop
  | byField offsets => offsets.size < UInt64.size
  | byType offsets =>
    offsets.size < UInt64.size ∧ ∀ ofType ∈ offsets, ofType.size < UInt64.size

@[mk_iff]
structure TypeRegistration.IsStorable (registration : TypeRegistration) : Prop where
  genericClasses : registration.genericClasses.size < UInt64.size
  genericInstantiations :
    registration.genericInstantiations.IsStorable GenericInstantiation.IsStorable
  types : registration.types.size < UInt64.size
  arrayTypes : registration.arrayTypes.size < UInt64.size
  methodSpecs : registration.methodSpecs.size < UInt64.size
  fieldOffsets? : ∀ offsets ∈ registration.fieldOffsets?, offsets.IsStorable
  usageAddresses : registration.usageAddresses.size < UInt64.size

@[mk_iff]
structure CodeModule.IsStorable (code : CodeModule) : Prop where
  name : code.name.utf8ByteSize < UInt64.size
  contextRanges : code.contextRanges.length < UInt64.size
  contextEntries : code.contextEntries.size < UInt64.size

def CodeRegistration.IsStorable (registration : CodeRegistration) : Prop :=
  registration.modules.length < UInt64.size ∧ ∀ code ∈ registration.modules, code.IsStorable

@[mk_iff]
structure Registrations.IsStorable (registrations : Registrations) : Prop where
  code : registrations.code.IsStorable
  types : registrations.types.IsStorable

/-- All lists and texts of the dump have lengths that fit 64 bits. -/
@[mk_iff]
structure Metadata.IsStorable (metadata : Metadata) : Prop where
  declarations : metadata.declarations.IsStorable
  registrations : metadata.registrations.IsStorable

section Decidable

instance {kind : TableKind} {Record : Type} (table : Table kind Record)
    (storable : Record → Prop) [DecidablePred storable] : Decidable (table.IsStorable storable) :=
  inferInstanceAs (Decidable (_ ∧ _))

instance : DecidablePred TypeDefinition.IsStorable := fun _ ↦ inferInstanceAs (Decidable (_ ∧ _))

instance : DecidablePred FieldDefinition.IsStorable := fun _ ↦ inferInstanceAs (Decidable (_ < _))

instance : DecidablePred MethodDefinition.IsStorable := fun _ ↦ inferInstanceAs (Decidable (_ < _))

instance : DecidablePred GenericParameter.IsStorable := fun _ ↦ inferInstanceAs (Decidable (_ < _))

instance : DecidablePred Image.IsStorable := fun _ ↦ inferInstanceAs (Decidable (_ < _))

instance : DecidablePred Declarations.IsStorable := fun _ ↦
  decidable_of_iff _ (Declarations.isStorable_iff _).symm

instance : DecidablePred GenericInstantiation.IsStorable := fun _ ↦
  inferInstanceAs (Decidable (_ < _))

instance : DecidablePred FieldOffsets.IsStorable
  | .byField _ => inferInstanceAs (Decidable (_ < _))
  | .byType _ => inferInstanceAs (Decidable (_ ∧ _))

instance : DecidablePred TypeRegistration.IsStorable := fun _ ↦
  decidable_of_iff _ (TypeRegistration.isStorable_iff _).symm

instance : DecidablePred CodeModule.IsStorable := fun _ ↦
  decidable_of_iff _ (CodeModule.isStorable_iff _).symm

instance : DecidablePred CodeRegistration.IsStorable := fun _ ↦ inferInstanceAs (Decidable (_ ∧ _))

instance : DecidablePred Registrations.IsStorable := fun _ ↦
  decidable_of_iff _ (Registrations.isStorable_iff _).symm

instance : DecidablePred Metadata.IsStorable := fun _ ↦
  decidable_of_iff _ (Metadata.isStorable_iff _).symm

end Decidable

/-! ### Exact formats -/

instance : TypeDefinition.format.Exact TypeDefinition.IsStorable :=
  .record (fun _ ↦ rfl) (fun _ ↦ rfl) fun _ ↦ by simp [TypeDefinition.IsStorable]

instance : FieldDefinition.format.Exact FieldDefinition.IsStorable :=
  .record (fun _ ↦ rfl) (fun _ ↦ rfl) fun _ ↦ by simp [FieldDefinition.IsStorable]

instance : MethodDefinition.format.Exact MethodDefinition.IsStorable :=
  .record (fun _ ↦ rfl) (fun _ ↦ rfl) fun _ ↦ by simp [MethodDefinition.IsStorable]

instance : GenericParameter.format.Exact GenericParameter.IsStorable :=
  .record (fun _ ↦ rfl) (fun _ ↦ rfl) fun _ ↦ by simp [GenericParameter.IsStorable]

instance : GenericContainer.format.Exact fun _ ↦ True :=
  .record (fun _ ↦ rfl) (fun _ ↦ rfl) fun _ ↦ by simp

instance : Image.format.Exact Image.IsStorable :=
  .record (fun _ ↦ rfl) (fun _ ↦ rfl) fun _ ↦ by simp [Image.IsStorable]

instance : ContextKind.format.Exact fun _ ↦ True :=
  Format.exact_enumeration ContextKind.code ContextKind.mem_all (by decide) (by decide)

instance : ContextEntry.format.Exact fun _ ↦ True :=
  .record (fun _ ↦ rfl) (fun _ ↦ rfl) fun _ ↦ by simp

instance : UsagePair.format.Exact fun _ ↦ True :=
  .record (fun _ ↦ rfl) (fun _ ↦ rfl) fun _ ↦ by simp

instance : MemoryLayout.format.Exact fun _ ↦ True :=
  .record (fun _ ↦ rfl) (fun _ ↦ rfl) fun _ ↦ by simp

instance : Declarations.format.Exact Declarations.IsStorable :=
  .record (fun _ ↦ rfl) (fun _ ↦ rfl) fun declarations ↦ by
    simp [Declarations.isStorable_iff, Table.IsStorable]

instance : TypeKind.format.Exact fun _ ↦ True :=
  Format.exact_enumeration TypeKind.code TypeKind.mem_all (by decide) (by decide)

instance : TypeData.format.Exact fun _ ↦ True :=
  .choice (fun data ↦ by cases data <;> rfl)
    (by rintro (_ | _ | _ | _ | _ | _ | _ | _ | ⟨⟨⟩⟩) <;> rfl)
    (fun data ↦ by cases data <;> simp [TypeData.parts]) (by decide)

instance : TypeReference.format.Exact fun _ ↦ True :=
  .record (fun _ ↦ rfl) (fun _ ↦ rfl) fun _ ↦ by simp

instance : InstantiationPair.format.Exact fun _ ↦ True :=
  .record (fun _ ↦ rfl) (fun _ ↦ rfl) fun _ ↦ by simp

instance : GenericClass.format.Exact fun _ ↦ True :=
  .record (fun _ ↦ rfl) (fun _ ↦ rfl) fun _ ↦ by simp

instance : GenericInstantiation.format.Exact GenericInstantiation.IsStorable :=
  .record (fun _ ↦ rfl) (fun _ ↦ rfl) fun _ ↦ by simp [GenericInstantiation.IsStorable]

instance : ArrayType.format.Exact fun _ ↦ True :=
  .record (fun _ ↦ rfl) (fun _ ↦ rfl) fun _ ↦ by simp

instance : MethodSpec.format.Exact fun _ ↦ True :=
  .record (fun _ ↦ rfl) (fun _ ↦ rfl) fun _ ↦ by simp

instance : FieldOffsets.format.Exact FieldOffsets.IsStorable :=
  .choice (fun offsets ↦ by cases offsets <;> rfl) (by rintro (_ | _ | ⟨⟨⟩⟩) <;> rfl)
    (fun offsets ↦ by cases offsets <;> simp [FieldOffsets.parts, FieldOffsets.IsStorable])
    (by decide)

instance : TypeRegistration.format.Exact TypeRegistration.IsStorable :=
  .record (fun _ ↦ rfl) (fun _ ↦ rfl) fun _ ↦ by
    simp [TypeRegistration.isStorable_iff, Table.IsStorable]

instance : EntryRange.format.Exact fun _ ↦ True :=
  .record (fun _ ↦ rfl) (fun _ ↦ rfl) fun _ ↦ by simp

instance : TokenRange.format.Exact fun _ ↦ True :=
  .record (fun _ ↦ rfl) (fun _ ↦ rfl) fun _ ↦ by simp

instance : CodeModule.format.Exact CodeModule.IsStorable :=
  .record (fun _ ↦ rfl) (fun _ ↦ rfl) fun _ ↦ by simp [CodeModule.isStorable_iff]

instance : CodeRegistration.format.Exact CodeRegistration.IsStorable :=
  .record (fun _ ↦ rfl) (fun _ ↦ rfl) fun _ ↦ by simp [CodeRegistration.IsStorable]

instance : Registrations.format.Exact Registrations.IsStorable :=
  .record (fun _ ↦ rfl) (fun _ ↦ rfl) fun _ ↦ by simp [Registrations.isStorable_iff]

instance : Metadata.format.Exact Metadata.IsStorable :=
  .record (fun _ ↦ rfl) (fun _ ↦ rfl) fun _ ↦ by simp [Metadata.isStorable_iff]

namespace Metadata

variable {metadata : Metadata} {bytes : List UInt8}

theorem ofBytes_eq_ok_iff_parse :
    ofBytes bytes = .ok metadata ↔
      metadata.version.isSupported = true ∧ ∃ rest, format.parse bytes = some (metadata, rest) := by
  cases read : format.parse bytes with
  | none => simp [ofBytes, Format.ofBytes?, read]
  | some found =>
    simp only [ofBytes, Format.ofBytes?, read, Option.map_some, checkVersion]
    split <;> grind

/-- A cache that breaks off where a reader needs more is no cache. -/
theorem ofBytes_eq_error (unread : format.parse bytes = none) : ofBytes bytes = .error .cache := by
  simp [ofBytes, Format.ofBytes?, unread]

/-- **Caches are read as they are spelled.** The bytes that are read as a dump are those that start
with a spelling of it. This has the length of the written cache, and is the written cache up to the
absent indices. -/
theorem ofBytes_eq_ok_iff :
    ofBytes bytes = .ok metadata ↔
      metadata.version.isSupported = true ∧ metadata.IsStorable ∧ ∃ front rest,
        bytes = front ++ rest ∧ front.length = metadata.toBytes.length ∧
          Spells (format.words metadata) front := by
  have exact : format.Exact IsStorable := inferInstance
  rw [ofBytes_eq_ok_iff_parse]
  apply and_congr_right
  intro _
  constructor
  · rintro ⟨rest, read⟩
    obtain ⟨front, rfl, isStorable, spells⟩ := (exact.reads _ _ _).mp read
    exact ⟨isStorable, front, rest, rfl, spells.length_eq, spells⟩
  · rintro ⟨isStorable, front, rest, rfl, -, spells⟩
    exact ⟨rest, (exact.reads _ _ _).mpr ⟨front, rfl, isStorable, spells⟩⟩

/-- **Caches are lossless and say where they end.** A dump is read from its cache, whatever follows,
and nothing is read from a part of the cache that breaks off before its end. -/
theorem ofBytes_toBytes_append (isStorable : metadata.IsStorable)
    (isSupported : metadata.version.isSupported = true) :
    (∀ rest, ofBytes (metadata.toBytes ++ rest) = .ok metadata) ∧
      ∀ front, front <+: metadata.toBytes → front ≠ metadata.toBytes →
        ofBytes front = .error .cache := by
  have exact : format.Exact IsStorable := inferInstance
  have read (rest : List UInt8) : format.parse (metadata.toBytes ++ rest) = some (metadata, rest) :=
    (exact.reads _ _ _).mpr ⟨metadata.toBytes, rfl, isStorable, .written _⟩
  refine ⟨fun rest ↦ ofBytes_eq_ok_iff_parse.mpr ⟨isSupported, rest, read rest⟩, ?_⟩
  rintro front ⟨back, whole⟩ isPart
  apply ofBytes_eq_error
  -- Were there a dump in the part, it would also be read from the whole, and leave the back.
  rw [Option.eq_none_iff_forall_ne_some]
  rintro ⟨found, rest⟩ readPart
  have readWhole := exact.reads.append readPart back
  rw [whole, ← List.append_nil metadata.toBytes, read []] at readWhole
  obtain ⟨-, noBack⟩ := Prod.mk.inj (Option.some.inj readWhole)
  obtain ⟨-, rfl⟩ := List.append_eq_nil_iff.mp noBack.symm
  exact isPart (by rw [← whole, List.append_nil])

/-- A dump with a text outside of ASCII, absent indices, lists in lists and optional parts. -/
def keepsakes : Metadata where
  version := ⟨27, 1⟩
  declarations := { Declarations.empty with
    typeDefinitions := .ofList [⟨"Brücke", "", ⟨0⟩, .absent, .absent, .absent, .absent, 0, ⟨0⟩,
      .absent, .absent, 0, 1, 0, 0, 2⟩]
    fields := .ofList [⟨"span", ⟨0⟩, 4⟩]
    images := .ofList [⟨"main.dll", ⟨0⟩, 1, 0, 0, 0⟩]
    layout? := some ⟨4096, 0, 88, 512, 16⟩ }
  registrations := {
    code := ⟨[⟨"main.dll", [⟨2, ⟨0, 1⟩⟩], .ofList [⟨.classType, 0⟩]⟩]⟩
    types := { TypeRegistration.empty with
      genericInstantiations := .ofList [⟨#[⟨0⟩, .absent]⟩]
      types := .ofList [⟨.definitionHandle 4096, 6, .classType, false, false, false⟩]
      fieldOffsets? := some (.byType #[#[16, -1], #[]]) }
    imageBase := 0x140000000
    is32Bit := false }

/-- The cache of the dump, behind which other bytes may stand. -/
theorem keepsakes_ofBytes_toBytes_append :
    keepsakes.IsStorable ∧ keepsakes.version.isSupported = true ∧
      (∀ rest, ofBytes (keepsakes.toBytes ++ rest) = .ok keepsakes) ∧
        ∀ front, front <+: keepsakes.toBytes → front ≠ keepsakes.toBytes →
          ofBytes front = .error .cache :=
  have isStorable : keepsakes.IsStorable := by decide
  have isSupported : keepsakes.version.isSupported = true := by decide
  ⟨isStorable, isSupported, ofBytes_toBytes_append isStorable isSupported⟩

end Metadata

end ManagedLayout
