import ManagedLayout.Proofs.Agreement.Build
import ManagedLayout.Proofs.Catalogue.Closed
import ManagedLayout.Proofs.Reference.Addresses

/-!
# References by address

From version 27 on, a type refers to its definition or generic parameter by index or by address. An
address is translated into the index of the record that stood there, so it makes no difference which
of them is used: any selection of the references may be replaced.
-/

namespace ManagedLayout

/-- The index of an existing record is replaced by the address of the record, or nothing is. -/
inductive TypeData.Addressed (declarations : Declarations) (layout : MemoryLayout) :
    TypeData → TypeData → Prop
  | same (data : TypeData) : Addressed declarations layout data data
  | definition {index : Index .typeDefinitions} {handle : UInt64}
    (inRange : (declarations.typeDefinitions.get? index).isSome)
    (isAddress : handle.toNat = layout.address.toNat + layout.typeDefinitionsOffset.toNat +
      index.position * layout.typeDefinitionSize.toNat) :
    Addressed declarations layout (.definition index) (.definitionHandle handle)
  | parameter {index : Index .genericParameters} {handle : UInt64}
    (inRange : (declarations.genericParameters.get? index).isSome)
    (isAddress : handle.toNat = layout.address.toNat + layout.genericParametersOffset.toNat +
      index.position * layout.genericParameterSize.toNat) :
    Addressed declarations layout (.parameter index) (.parameterHandle handle)

/-- The type references differ at most in that one refers by address where the other refers by
index. -/
def TypeReference.Addressed (declarations : Declarations) (layout : MemoryLayout)
    (reference other : TypeReference) : Prop :=
  ∃ data, reference.data.Addressed declarations layout data ∧ other = { reference with data }

theorem TypeReference.Addressed.resembles {declarations : Declarations} {layout : MemoryLayout}
    {reference other : TypeReference} (addressed : reference.Addressed declarations layout other) :
    reference.Resembles other := by
  obtain ⟨data, addressed, rfl⟩ := addressed
  refine ⟨data, ?_, rfl⟩
  generalize reference.data = original at addressed
  cases addressed with
  | same => exact .inl rfl
  | definition | parameter => exact .inr ⟨rfl, rfl⟩

namespace Metadata

/-- The dump with other type references. -/
def withTypes (metadata : Metadata) (types : Table .types TypeReference) : Metadata :=
  { metadata with
    registrations := { metadata.registrations with
      types := { metadata.registrations.types with types } } }

/-- The address of a record is translated into its index, as if the index had been looked up. -/
theorem fetch_eq_indexOfHandle {metadata : Metadata} {layout : MemoryLayout} {table : TableKind}
    {Record : Type} {records : Table table Record} {index : Index table} {handle : UInt64}
    {offset stride : MemoryLayout → UInt64} (hasHandles : metadata.revision = .handles)
    (isLayout : metadata.declarations.layout? = some layout) (hasSize : stride layout ≠ 0)
    (inRange : (records.get? index).isSome)
    (isAddress : handle.toNat = layout.address.toNat + (offset layout).toNat +
      index.position * (stride layout).toNat) :
    (do let _ ← records.fetch index; return index) =
      metadata.indexOfHandle table handle offset stride records.size := by
  obtain ⟨record, isRecord⟩ := Option.isSome_iff_exists.mp inRange
  have inside : index.position < records.size := by
    unfold Table.get? at isRecord
    split at isRecord
    next => exact (Array.getElem?_eq_some_iff.mp isRecord).1
    next => exact nomatch isRecord
  rw [Table.fetch_eq_ok_iff.mpr isRecord]
  exact (indexOfHandle_eq_ok_iff.mpr
    ⟨hasHandles, inside, layout, isLayout, hasSize, isAddress⟩).symm

/-- In a dump that says where its tables stood, some type references come to refer by address. -/
structure Readdresses (metadata : Metadata) (layout : MemoryLayout)
    (types : Table .types TypeReference) : Prop where
  version : ⟨27, 0⟩ ≤ metadata.version
  isLayout : metadata.declarations.layout? = some layout
  definitionSize : layout.typeDefinitionSize ≠ 0
  parameterSize : layout.genericParameterSize ≠ 0
  types : metadata.registrations.types.types.Related
    (TypeReference.Addressed metadata.declarations layout) types

namespace Readdresses

variable {metadata : Metadata} {layout : MemoryLayout} {types : Table .types TypeReference}
  (readdresses : metadata.Readdresses layout types)
include readdresses

theorem revision_eq : metadata.revision = .handles := if_pos readdresses.version

theorem definitionOf_eq (type : Index .types) :
    metadata.definitionOf type = (metadata.withTypes types).definitionOf type := by
  apply (readdresses.types.fetch type).bind_eq
  rintro reference _ ⟨data, addressed, rfl⟩
  dsimp only
  generalize reference.data = original at addressed
  cases addressed with
  | same => rfl
  | definition inRange isAddress =>
    exact fetch_eq_indexOfHandle readdresses.revision_eq readdresses.isLayout
      readdresses.definitionSize inRange isAddress
  | parameter => rfl

theorem parameterOf_eq (type : Index .types) :
    metadata.parameterOf type = (metadata.withTypes types).parameterOf type := by
  apply (readdresses.types.fetch type).bind_eq
  rintro reference _ ⟨data, addressed, rfl⟩
  dsimp only
  generalize reference.data = original at addressed
  cases addressed with
  | same => rfl
  | definition => rfl
  | parameter inRange isAddress =>
    exact fetch_eq_indexOfHandle readdresses.revision_eq readdresses.isLayout
      readdresses.parameterSize inRange isAddress

theorem openDefinition?_eq (index : Index .genericClasses) :
    metadata.openDefinition? index = (metadata.withTypes types).openDefinition? index := by
  unfold openDefinition?
  simp only [readdresses.definitionOf_eq]
  rfl

theorem agrees : metadata.Agrees (metadata.withTypes types) :=
  { Agrees.refl metadata with
    types := readdresses.types.mono fun _ _ addressed ↦ addressed.resembles
    definitionOf := readdresses.definitionOf_eq
    parameterOf := readdresses.parameterOf_eq
    openDefinition? := readdresses.openDefinition?_eq }

end Readdresses

end Metadata

namespace Catalogue

/-- **Addresses are transparent.** If type references refer by address instead of by index, the
build has the same result: the same catalogue, or the same error. -/
theorem result_withTypes {metadata : Metadata} {layout : MemoryLayout}
    {types : Table .types TypeReference} (readdresses : metadata.Readdresses layout types)
    (options : BuildOptions) (offsets : OffsetSource) :
    (buildWith metadata options offsets).result =
      (buildWith (metadata.withTypes types) options offsets).result := by
  have notLegacy : metadata.revision ≠ .legacy := by
    rw [readdresses.revision_eq]
    nofun
  apply result_eq_of_agrees
  exact Linkage.Agrees.of_modules readdresses.agrees notLegacy notLegacy rfl

end Catalogue

/-- A shelf with a pair on it, in a version that can refer by address. It refers by index only. -/
def Metadata.pairs : Metadata :=
  let shelf : TypeDefinition := { TypeDefinition.named "Demo" "Shelf" with
    fieldStart := ⟨0⟩, fieldCount := 1 }
  let pair : TypeDefinition := { TypeDefinition.named "Demo" "Pair`2" with
    genericContainer := ⟨0⟩, fieldStart := ⟨1⟩, fieldCount := 2 }
  let dump := Metadata.ofDefinitions [shelf, pair]
    [⟨"pair", ⟨4⟩, 0⟩, ⟨"key", ⟨2⟩, 0⟩, ⟨"value", ⟨3⟩, 0⟩]
    [(.int32, .none), (.classType, .definition ⟨1⟩), (.typeParameter, .parameter ⟨0⟩),
      (.typeParameter, .parameter ⟨1⟩), (.genericInstance, .genericClass ⟨0⟩), (.string, .none)]
    [(⟨1⟩, [⟨0⟩, ⟨5⟩])]
  { dump with
    version := ⟨27, 1⟩
    declarations := { dump.declarations with
      genericContainers := .ofList [⟨1, 2, false, ⟨0⟩⟩]
      genericParameters := .ofList [⟨⟨0⟩, "K", 0, 0⟩, ⟨⟨0⟩, "V", 1, 0⟩]
      layout? := some ⟨0x4000, 0x100, 88, 0x800, 16⟩ }
    registrations := { dump.registrations with
      code := ⟨[⟨"main.dll", [], .empty⟩]⟩
      types := { dump.registrations.types with
        genericClasses := .ofList [⟨.absent, ⟨1⟩, ⟨⟨0⟩, .absent⟩⟩] } } }

/-- The types of the shelf and the pair. The pair and its second parameter are referred to by
address, its first parameter by index. -/
def Metadata.pairTypes : Table .types TypeReference :=
  .ofList ([(.int32, .none), (.classType, .definitionHandle 0x4158),
      (.typeParameter, .parameter ⟨0⟩), (.typeParameter, .parameterHandle 0x4810),
      (.genericInstance, .genericClass ⟨0⟩), (.string, .none)].map fun (kind, data) ↦
    ⟨data, 0, kind, false, false, false⟩)

namespace Catalogue

set_option maxRecDepth 10000 in
/-- The second definition stands behind one record of 88 bytes, the second parameter behind one of
16 bytes. -/
theorem pairs_result_withTypes :
    Metadata.pairs.Readdresses ⟨0x4000, 0x100, 88, 0x800, 16⟩ Metadata.pairTypes ∧
      ∃ catalogue,
        (buildWith .pairs .default Metadata.pairs.fieldOffset).result = .ok catalogue ∧
        catalogue.outline = [("Demo.Shelf", none, ["Demo.Pair<int, string>*"]),
          ("Demo.Pair<K, V>", none, ["Il2CppObject*", "Il2CppObject*"]),
          ("Demo.Pair<int, string>", none, ["int32_t", "Il2CppString*"])] ∧
        (buildWith (Metadata.pairs.withTypes Metadata.pairTypes) .default
          Metadata.pairs.fieldOffset).result = .ok catalogue := by
  have isShown :
      (buildWith .pairs .default Metadata.pairs.fieldOffset).result.toOption.map outline =
      some [("Demo.Shelf", none, ["Demo.Pair<int, string>*"]),
        ("Demo.Pair<K, V>", none, ["Il2CppObject*", "Il2CppObject*"]),
        ("Demo.Pair<int, string>", none, ["int32_t", "Il2CppString*"])] := by
    decide +kernel
  have same (reference : TypeReference) : reference.Addressed Metadata.pairs.declarations
      ⟨0x4000, 0x100, 88, 0x800, 16⟩ reference := ⟨reference.data, .same _, rfl⟩
  have readdresses :
      Metadata.pairs.Readdresses ⟨0x4000, 0x100, 88, 0x800, 16⟩ Metadata.pairTypes := {
    version := by decide
    isLayout := rfl
    definitionSize := by decide
    parameterSize := by decide
    types := .cons (same _) <| .cons ⟨_, .definition rfl rfl, rfl⟩ <| .cons (same _) <|
      .cons ⟨_, .parameter rfl rfl, rfl⟩ <| .cons (same _) <| .cons (same _) .nil }
  obtain ⟨catalogue, built, shown⟩ := exists_of_shown isShown
  exact ⟨readdresses, catalogue, built, shown,
    (result_withTypes readdresses _ _).symm.trans built⟩

end Catalogue

end ManagedLayout
