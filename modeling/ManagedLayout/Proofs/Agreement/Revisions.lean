import ManagedLayout.Proofs.Agreement.Handles

/-!
# Parts of a dump that are not read

Not every version has all parts of a dump. A list of uses exists between versions 16 and 27 only,
runtime generic contexts moved to the code modules in version 24.2, and generic classes refer to
their definitions by index before version 27 and by type from then on, when types may refer by
address as well. Parts that the version of a dump does not have may still hold records. Whatever
these are, the build has the same result as without them.
-/

namespace ManagedLayout

/-- The definition without a place for its runtime generic context. -/
def TypeDefinition.withoutContext (definition : TypeDefinition) : TypeDefinition :=
  { definition with contextStart := .absent, contextCount := 0 }

/-- The method without a place for its runtime generic context. -/
def MethodDefinition.withoutContext (method : MethodDefinition) : MethodDefinition :=
  { method with contextStart := .absent, contextCount := 0 }

/-- The generic class without a type that refers to its definition. -/
def GenericClass.withoutType (record : GenericClass) : GenericClass :=
  { record with type := .absent }

/-- The generic class without the index of its definition. -/
def GenericClass.withoutDefinition (record : GenericClass) : GenericClass :=
  { record with definition := .absent }

namespace Metadata

/-- The dump with no list of uses, nor anything that only such a list needs. -/
def withoutUsages (metadata : Metadata) : Metadata where
  version := metadata.version
  declarations := { metadata.declarations with usagePairs := [] }
  registrations := { metadata.registrations with
    imageBase := 0
    types := { metadata.registrations.types with usageAddresses := #[] } }

/-- The dump without code modules. -/
def withoutModules (metadata : Metadata) : Metadata :=
  { metadata with registrations := { metadata.registrations with code := ⟨[]⟩ } }

/-- The dump without a table of runtime generic contexts, and without ranges of it. -/
def withoutContextTable (metadata : Metadata) : Metadata :=
  { metadata with
    declarations := { metadata.declarations with
      contextEntries := .empty
      typeDefinitions := metadata.declarations.typeDefinitions.map (·.withoutContext)
      methods := metadata.declarations.methods.map (·.withoutContext) } }

/-- The dump with other generic classes. -/
def mapClasses (metadata : Metadata) (change : GenericClass → GenericClass) : Metadata :=
  { metadata with
    registrations := { metadata.registrations with
      types := { metadata.registrations.types with
        genericClasses := metadata.registrations.types.genericClasses.map change } } }

/-- The dump without the places where its tables stood. -/
def withoutLayout (metadata : Metadata) : Metadata :=
  { metadata with declarations := { metadata.declarations with layout? := none } }

/-- The dump without the parts that its version does not have. -/
def essential (metadata : Metadata) : Metadata :=
  let uses :=
    if ⟨16, 0⟩ < metadata.version ∧ metadata.version < ⟨27, 0⟩ then metadata
    else metadata.withoutUsages
  let contexts :=
    if metadata.version < ⟨24, 2⟩ then uses.withoutModules else uses.withoutContextTable
  if metadata.version < ⟨27, 0⟩ then contexts.withoutLayout.mapClasses (·.withoutType)
  else contexts.mapClasses (·.withoutDefinition)

variable {metadata : Metadata}

theorem agrees_withoutUsages (unlisted : ¬metadata.version.listsUsages = true) :
    metadata.Agrees metadata.withoutUsages :=
  { Agrees.refl metadata with
    usageSites := by
      have noSites : metadata.withoutUsages.usageSites = .ok [] := usageSites_of_unlisted unlisted
      rw [usageSites_of_unlisted unlisted, noSites] }

theorem typeDefinition_withoutContextTable (index : Index .typeDefinitions) :
    LookupsRelated TypeDefinition.Resembles (metadata.typeDefinition index)
      (metadata.withoutContextTable.typeDefinition index) :=
  Table.Related.fetch (.map fun _ ↦ ⟨.absent, 0, rfl⟩) index

theorem method_withoutContextTable (index : Index .methods) :
    LookupsRelated MethodDefinition.Resembles (metadata.method index)
      (metadata.withoutContextTable.method index) :=
  Table.Related.fetch (.map fun _ ↦ ⟨.absent, 0, rfl⟩) index

theorem definitionOf_withoutContextTable (type : Index .types) :
    metadata.definitionOf type = metadata.withoutContextTable.definitionOf type := by
  have sameSize : metadata.withoutContextTable.declarations.typeDefinitions.size =
      metadata.declarations.typeDefinitions.size := Array.size_map ..
  unfold definitionOf
  rw [sameSize]
  apply congrArg (metadata.typeReference type >>= ·)
  funext reference
  cases reference.data with
  | definition index => exact (typeDefinition_withoutContextTable index).bind_eq fun _ _ _ ↦ rfl
  | none | definitionHandle | type | parameter | parameterHandle | genericClass | array => rfl

theorem openDefinition?_withoutContextTable (index : Index .genericClasses) :
    metadata.openDefinition? index = metadata.withoutContextTable.openDefinition? index := by
  have sameRevision : metadata.withoutContextTable.revision = metadata.revision := rfl
  unfold openDefinition?
  rw [sameRevision]
  apply congrArg (metadata.genericClass index >>= ·)
  funext record
  cases metadata.revision with
  | handles =>
    have sameDefinition (type : Index .types) :
        metadata.definitionOf type = metadata.withoutContextTable.definitionOf type :=
      definitionOf_withoutContextTable type
    simp only [sameDefinition]
  | legacy | tokenContexts =>
    dsimp only
    split
    next definition _ =>
      exact (typeDefinition_withoutContextTable definition).bind_eq fun _ _ _ ↦ rfl
    next => rfl

theorem vtableMethod_withoutContextTable (entry : Index .vtableMethods) :
    metadata.vtableMethod entry = metadata.withoutContextTable.vtableMethod entry := by
  have sameMethod (index : Index .methods) :
      (do let _ ← metadata.method index; return index) =
        (do let _ ← metadata.withoutContextTable.method index; return index) :=
    (method_withoutContextTable index).bind_eq fun _ _ _ ↦ rfl
  unfold vtableMethod
  simp only [sameMethod]
  rfl

theorem agrees_withoutContextTable (metadata : Metadata) :
    metadata.Agrees metadata.withoutContextTable :=
  { Agrees.refl metadata with
    typeDefinitions := .map fun _ ↦ ⟨.absent, 0, rfl⟩
    methods := .map fun _ ↦ ⟨.absent, 0, rfl⟩
    definitionOf := definitionOf_withoutContextTable
    openDefinition? := openDefinition?_withoutContextTable
    vtableMethod := vtableMethod_withoutContextTable }

/-- Where no table stood, no address is one of a record. Only revisions with addresses look. -/
theorem indexOfHandle_withoutLayout (noHandles : metadata.revision ≠ .handles) (table : TableKind)
    (handle : UInt64) (offset stride : MemoryLayout → UInt64) (size : Nat) :
    metadata.indexOfHandle table handle offset stride size =
      metadata.withoutLayout.indexOfHandle table handle offset stride size := by
  have sameRevision : metadata.withoutLayout.revision = metadata.revision := rfl
  unfold indexOfHandle
  rw [sameRevision]
  generalize metadata.revision = revision at noHandles ⊢
  cases revision with
  | legacy | tokenContexts => rfl
  | handles => contradiction

theorem agrees_withoutLayout (noHandles : metadata.revision ≠ .handles) :
    metadata.Agrees metadata.withoutLayout :=
  have sameDefinitionOf (type : Index .types) :
      metadata.definitionOf type = metadata.withoutLayout.definitionOf type := by
    unfold definitionOf
    simp only [indexOfHandle_withoutLayout noHandles]
    rfl
  { Agrees.refl metadata with
    definitionOf := sameDefinitionOf
    parameterOf type := by
      unfold parameterOf
      simp only [indexOfHandle_withoutLayout noHandles]
      rfl
    openDefinition? index := by
      unfold openDefinition?
      simp only [sameDefinitionOf]
      rfl }

/-- Generic classes may change in what their revision does not read. -/
theorem agrees_mapClasses {change : GenericClass → GenericClass}
    (resembles : ∀ record : GenericClass, record.Resembles (change record))
    (sameType : metadata.revision = .handles → ∀ record, (change record).type = record.type)
    (sameDefinition : metadata.revision ≠ .handles →
      ∀ record, (change record).definition = record.definition) :
    metadata.Agrees (metadata.mapClasses change) :=
  { Agrees.refl metadata with
    genericClasses := .map resembles
    openDefinition? index := by
      have changed : metadata.registrations.types.genericClasses.Related
          (fun record other ↦ change record = other)
          (metadata.mapClasses change).registrations.types.genericClasses := .map fun _ ↦ rfl
      apply (changed.fetch index).bind_eq
      rintro record _ rfl
      have sameRevision : (metadata.mapClasses change).revision = metadata.revision := rfl
      rw [sameRevision]
      cases isRevision : metadata.revision with
      | handles =>
        dsimp only
        rw [sameType isRevision record]
        rfl
      | legacy | tokenContexts =>
        have noHandles : metadata.revision ≠ .handles := by
          rw [isRevision]
          nofun
        dsimp only
        rw [sameDefinition noHandles record]
        rfl }

end Metadata

/-- Before 24.2, runtime generic contexts do not stand in the code modules. -/
theorem Linkage.contextEntries_of_table {first second : Linkage}
    (inTable : first.metadata.revision = .legacy) (otherInTable : second.metadata.revision = .legacy)
    (sameTable : first.metadata.declarations.contextEntries =
      second.metadata.declarations.contextEntries)
    (image : Image) (token : UInt32) (start : Index .contextEntries) (count : UInt32) :
    first.contextEntries image token start count =
      second.contextEntries image token start count := by
  unfold contextEntries
  rw [inTable, otherInTable, sameTable]

namespace Catalogue

variable {metadata : Metadata} (options : BuildOptions) (offsets : OffsetSource)

theorem result_withoutUsages (unlisted : ¬metadata.version.listsUsages = true) :
    (buildWith metadata options offsets).result =
      (buildWith metadata.withoutUsages options offsets).result :=
  result_eq_of_agrees (fun _ ↦ {
    metadata := Metadata.agrees_withoutUsages unlisted
    definitionTypes := rfl
    contextOfType _ _ := rfl
    contextOfMethod _ _ := rfl }) options offsets

theorem result_withoutModules (before : metadata.version < ⟨24, 2⟩) :
    (buildWith metadata options offsets).result =
      (buildWith metadata.withoutModules options offsets).result := by
  have inTable := Metadata.revision_eq_legacy before
  refine result_eq_of_agrees (fun _ ↦ ?_) options offsets
  exact {
    metadata := { Metadata.Agrees.refl metadata with }
    definitionTypes := rfl
    contextOfType _ definition := by
      apply congrArg (metadata.typeDefinition definition >>= ·)
      funext record
      apply Linkage.contextEntries_of_table
      · exact inTable
      · exact inTable
      · rfl
    contextOfMethod _ method := by
      apply congrArg (metadata.method method >>= ·)
      funext record
      apply Linkage.contextEntries_of_table
      · exact inTable
      · exact inTable
      · rfl }

theorem result_withoutContextTable (notBefore : ¬metadata.version < ⟨24, 2⟩) :
    (buildWith metadata options offsets).result =
      (buildWith metadata.withoutContextTable options offsets).result := by
  have inModules := Metadata.revision_ne_legacy notBefore
  apply result_eq_of_agrees
  exact Linkage.Agrees.of_modules (Metadata.agrees_withoutContextTable metadata) inModules inModules
    rfl

theorem result_withoutLayout (before : metadata.version < ⟨27, 0⟩) :
    (buildWith metadata options offsets).result =
      (buildWith metadata.withoutLayout options offsets).result :=
  result_eq_of_agrees (fun _ ↦ {
    metadata := Metadata.agrees_withoutLayout (Metadata.revision_ne_handles before)
    definitionTypes := rfl
    contextOfType _ _ := rfl
    contextOfMethod _ _ := rfl }) options offsets

theorem result_mapClasses {change : GenericClass → GenericClass}
    (agrees : metadata.Agrees (metadata.mapClasses change)) :
    (buildWith metadata options offsets).result =
      (buildWith (metadata.mapClasses change) options offsets).result :=
  result_eq_of_agrees (fun _ ↦ {
    metadata := agrees
    definitionTypes := rfl
    contextOfType _ _ := rfl
    contextOfMethod _ _ := rfl }) options offsets

/-- The parts that its version does not have make no difference to a dump. -/
theorem result_essential (metadata : Metadata) :
    (buildWith metadata options offsets).result =
      (buildWith metadata.essential options offsets).result := by
  unfold Metadata.essential
  extract_lets uses contexts
  have usesVersion : uses.version = metadata.version := by
    unfold uses
    split <;> rfl
  have contextsVersion : contexts.version = metadata.version := by
    unfold contexts
    split <;> exact usesVersion
  calc (buildWith metadata options offsets).result
      = (buildWith uses options offsets).result := by
        unfold uses
        split
        next => rfl
        next unlisted =>
          apply result_withoutUsages
          simpa only [Version.listsUsages, decide_eq_true_eq] using unlisted
    _ = (buildWith contexts options offsets).result := by
        unfold contexts
        rw [← usesVersion]
        split
        next before => exact result_withoutModules options offsets before
        next notBefore => exact result_withoutContextTable options offsets notBefore
    _ = _ := by
        rw [← contextsVersion]
        split
        next before =>
          rw [result_withoutLayout options offsets before]
          apply result_mapClasses
          apply Metadata.agrees_mapClasses
          · exact fun record ↦ ⟨record.definition, .absent, rfl⟩
          · exact fun isHandles ↦ absurd isHandles (Metadata.revision_ne_handles before)
          · exact fun _ _ ↦ rfl
        next notBefore =>
          apply result_mapClasses
          apply Metadata.agrees_mapClasses
          · exact fun record ↦ ⟨.absent, record.type, rfl⟩
          · exact fun _ _ ↦ rfl
          · exact fun noHandles ↦ absurd (Metadata.revision_eq_handles notBefore) noHandles

theorem fieldOffset_essential (metadata : Metadata) :
    metadata.essential.fieldOffset = metadata.fieldOffset := by
  unfold Metadata.essential
  dsimp only
  split <;> split <;> split <;> rfl

/-- **Only parts that the version has are read.** If two dumps of one version differ only in parts
that the version does not have, their builds have the same result: the same catalogue, or the same
error. -/
theorem result_eq_of_essential_eq {first second : Metadata}
    (same : first.essential = second.essential) (options : BuildOptions) :
    (build first options).result = (build second options).result ∧
      ∀ offsets, (buildWith first options offsets).result =
        (buildWith second options offsets).result := by
  have sameResult (offsets : OffsetSource) :
      (buildWith first options offsets).result = (buildWith second options offsets).result := by
    rw [result_essential options offsets first, same, ← result_essential]
  have sameOffsets : first.fieldOffset = second.fieldOffset := by
    rw [← fieldOffset_essential, same, fieldOffset_essential]
  refine ⟨?_, sameResult⟩
  unfold build
  rw [sameOffsets]
  exact sameResult second.fieldOffset

end Catalogue

/-- The shelf and its boxes, with a code module, addresses and a type for the definition of the
boxes. The records that these refer to do not exist, nor do these parts in version 24. -/
def Metadata.boxesAstray : Metadata :=
  let dump := Metadata.boxes.mapClasses ({ · with type := ⟨77⟩ })
  { dump with
    declarations := { dump.declarations with layout? := some ⟨0x4000, 0, 0, 0, 0⟩ }
    registrations := { dump.registrations with
      code := ⟨[⟨"main.dll", [⟨0, ⟨7, 7⟩⟩], .empty⟩]⟩ } }

/-- The shelf and the pair, with a list of uses, ranges in a table of runtime generic contexts and
an index for the definition of the pair. The records that these refer to do not exist, nor do these
parts in version 27. -/
def Metadata.pairsAstray : Metadata :=
  let dump := Metadata.pairs.mapClasses ({ · with definition := ⟨55⟩ })
  { dump with
    declarations := { dump.declarations with
      typeDefinitions :=
        dump.declarations.typeDefinitions.map ({ · with contextStart := ⟨7⟩, contextCount := 3 })
      contextEntries := .ofList [⟨.method, 99⟩]
      usagePairs := [⟨5, 0x60000009⟩] }
    registrations := { dump.registrations with imageBase := 0x10000 } }

namespace Catalogue

set_option maxRecDepth 10000 in
theorem astray_result_eq_of_essential_eq :
    (Metadata.boxes.essential = Metadata.boxesAstray.essential ∧
      ∃ catalogue, (build .boxes .default).result = .ok catalogue ∧
        catalogue.outline = [("Demo.Shelf", none, ["Demo.Box<int>_array*"]),
          ("Demo.Box", some "Demo.Shelf", []), ("Demo.Box<int>", some "Demo.Shelf", [])] ∧
        (build .boxesAstray .default).result = .ok catalogue) ∧
    Metadata.pairs.essential = Metadata.pairsAstray.essential ∧
      ∃ catalogue, (build .pairs .default).result = .ok catalogue ∧
        catalogue.outline = [("Demo.Shelf", none, ["Demo.Pair<int, string>*"]),
          ("Demo.Pair<K, V>", none, ["Il2CppObject*", "Il2CppObject*"]),
          ("Demo.Pair<int, string>", none, ["int32_t", "Il2CppString*"])] ∧
        (build .pairsAstray .default).result = .ok catalogue := by
  have boxesShown : (build .boxes .default).result.toOption.map outline =
      some [("Demo.Shelf", none, ["Demo.Box<int>_array*"]),
        ("Demo.Box", some "Demo.Shelf", []), ("Demo.Box<int>", some "Demo.Shelf", [])] := by
    decide +kernel
  have pairsShown : (build .pairs .default).result.toOption.map outline =
      some [("Demo.Shelf", none, ["Demo.Pair<int, string>*"]),
        ("Demo.Pair<K, V>", none, ["Il2CppObject*", "Il2CppObject*"]),
        ("Demo.Pair<int, string>", none, ["int32_t", "Il2CppString*"])] := by
    decide +kernel
  have sameBoxes : Metadata.boxes.essential = Metadata.boxesAstray.essential := by decide +kernel
  have samePairs : Metadata.pairs.essential = Metadata.pairsAstray.essential := by decide +kernel
  obtain ⟨boxes, boxesBuilt, boxesOutline⟩ := exists_of_shown boxesShown
  obtain ⟨pairs, pairsBuilt, pairsOutline⟩ := exists_of_shown pairsShown
  exact ⟨⟨sameBoxes, boxes, boxesBuilt, boxesOutline,
      (result_eq_of_essential_eq sameBoxes .default).1.symm.trans boxesBuilt⟩,
    samePairs, pairs, pairsBuilt, pairsOutline,
    (result_eq_of_essential_eq samePairs .default).1.symm.trans pairsBuilt⟩

end Catalogue

end ManagedLayout
