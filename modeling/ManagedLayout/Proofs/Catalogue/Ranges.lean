import ManagedLayout.Proofs.Catalogue.Composition
import ManagedLayout.Proofs.Catalogue.VirtualMethods
import ManagedLayout.Proofs.Reference.ContextRanges

/-!
# Ranges that leave their tables

The fields of a definition and the entries of a context are taken out of their tables at once; the
entries of a virtual table, the parameters of a container and the definitions of an image are gone
through one by one. Either way a range that leaves its table is refused: nothing is read behind the
end of a table, nor from its start again.
-/

namespace ManagedLayout

namespace Metadata

variable {metadata : Metadata}

theorem NamesMethod.isSome_get? {entry : Index .vtableMethods} {method : MethodDefinition}
    (names : metadata.NamesMethod entry method) :
    (metadata.declarations.vtableMethods.get? entry).isSome := by
  cases names with
  | direct isWord | instantiation isWord => exact Option.isSome_of_mem isWord

/-- The virtual methods of a definition are read only if all entries of its table are there. -/
theorem hasRange_of_virtualMethods {definition : TypeDefinition} {names : List String}
    (areMethods : metadata.virtualMethods definition = .ok names) :
    metadata.declarations.vtableMethods.HasRange definition.vtableStart
      definition.vtableCount.toUInt32 := by
  obtain ⟨methods, areNamed, -⟩ := exists_methods_of_virtualMethods areMethods
  apply Table.hasRange_of_forall_lt
  intro position inside
  obtain ⟨method, -, isNamed⟩ := forall₂_exists_left areNamed.flip (List.mem_range.mpr inside)
  exact isNamed.isSome_get?

theorem isSome_get?_of_parameterNames {count : Nat} {start : Index .genericParameters}
    {names : List String} (areNames : metadata.parameterNames count start = .ok names) :
    ∀ position < count, (metadata.declarations.genericParameters.get?
      (start.offset (UInt32.ofNat position))).isSome := by
  induction count generalizing start names with
  | zero => exact fun position inside ↦ absurd inside (Nat.not_lt_zero position)
  | succ count ih =>
    obtain ⟨parameter, isParameter, areNames⟩ := lookup_bind_eq_ok.mp areNames
    obtain ⟨rest, areRest, -⟩ := lookup_bind_eq_ok.mp areNames
    intro position inside
    cases position with
    | zero =>
      rw [← start.offset_zero] at isParameter
      exact Option.isSome_of_mem (Table.fetch_eq_ok_iff.mp isParameter)
    | succ position =>
      rw [← Index.offset_one_offset]
      exact ih areRest position (Nat.lt_of_succ_lt_succ inside)

/-- The parameters of a definition are read only if all those of its container are there. -/
theorem hasRange_of_declaredParameters {definition : TypeDefinition} {container : GenericContainer}
    {names : List String}
    (isContainer : metadata.declarations.genericContainers.get? definition.genericContainer =
      some container)
    (areNames : metadata.declaredParameters definition = .ok names) :
    metadata.declarations.genericParameters.HasRange container.parameterStart
      container.parameterCount := by
  have isPresent : definition.genericContainer.present? = some definition.genericContainer := by
    refine Index.present?_eq_some_iff.mpr ⟨rfl, fun isAbsent ↦ ?_⟩
    rw [isAbsent, Table.get?_absent] at isContainer
    exact nomatch isContainer
  have isFetched := Table.fetch_eq_ok_iff.mpr isContainer
  rw [declaredParameters, isPresent] at areNames
  obtain ⟨found, isFound, areNames⟩ := lookup_bind_eq_ok.mp areNames
  obtain rfl := Except.ok.inj (isFetched.symm.trans isFound)
  exact Table.hasRange_of_forall_lt (isSome_get?_of_parameterNames areNames)

end Metadata

/-- Every definition that has an owner exists. -/
def DefinitionNames.Exist (metadata : Metadata) (names : DefinitionNames) : Prop :=
  ∀ definition, names.owners[definition]?.isSome →
    (metadata.declarations.typeDefinitions.get? definition).isSome

namespace Linkage

open Resolve

variable {linkage : Linkage}

/-- An image claims a definition only if there is one. -/
theorem yields_claim_exist {names : DefinitionNames} (exist : names.Exist linkage.metadata)
    (image : Index .images) (definition : Index .typeDefinitions) :
    Yields (linkage.claim image definition names) (DefinitionNames.Exist linkage.metadata) := by
  unfold claim
  split
  next => exact .bind_any fun _ ↦ .pure exist
  next =>
    apply Yields.bind_any
    intro usage
    apply Yields.bind_any
    intro state
    apply Yields.bind_lookup
    intro builtin? isBuiltin
    obtain ⟨record, isRecord, -⟩ := lookup_bind_eq_ok.mp isBuiltin
    apply Yields.pure
    intro other isOwned
    simp only [DefinitionNames.insert, getElem?_insert_eq] at isOwned
    split at isOwned
    next same =>
      rw [← same]
      exact Option.isSome_of_mem (Table.fetch_eq_ok_iff.mp isRecord)
    next => exact exist other isOwned

theorem yields_claimRange_exist (image : Index .images) (count : Nat)
    (start : Index .typeDefinitions) {names : DefinitionNames}
    (exist : names.Exist linkage.metadata) :
    Yields (linkage.claimRange image count start names)
      (DefinitionNames.Exist linkage.metadata) := by
  induction count generalizing start names with
  | zero => exact .pure exist
  | succ count ih =>
    apply Yields.bind (yields_claim_exist exist image start)
    intro next existNext
    exact ih (start.offset 1) existNext

theorem yields_nameDefinitions_exist :
    Yields linkage.nameDefinitions (DefinitionNames.Exist linkage.metadata) := by
  have noneOwned : DefinitionNames.empty.Exist linkage.metadata := by
    simp [DefinitionNames.Exist, DefinitionNames.empty]
  apply Yields.foldlM (fun _ : List (Index .images × Image) ↦
    DefinitionNames.Exist linkage.metadata) ?_ _ _ noneOwned
  intro before source names exist
  exact yields_claimRange_exist source.1 source.2.typeCount.toNat source.2.typeStart exist

/-- Definitions are named only if all those in the ranges of the images are there. -/
theorem yields_nameDefinitions_hasRange {image : Image}
    (isImage : image ∈ linkage.metadata.declarations.images.toList) :
    Yields linkage.nameDefinitions fun _ ↦
      linkage.metadata.declarations.typeDefinitions.HasRange image.typeStart image.typeCount := by
  refine (yields_nameDefinitions.and yields_nameDefinitions_exist).mono ?_
  rintro names ⟨records, exist⟩
  obtain ⟨index, isIndexed⟩ := Table.exists_mem_indexed isImage
  apply Table.hasRange_of_forall_lt
  intro position inside
  have isClaimed : (index, image.typeStart.offset (UInt32.ofNat position)) ∈
      linkage.metadata.claims :=
    List.mem_flatMap.mpr ⟨_, isIndexed, List.mem_map.mpr ⟨_, List.mem_range.mpr inside, rfl⟩⟩
  exact exist _ ((records.isSome_owners _).mpr (List.mem_map.mpr ⟨_, isClaimed, rfl⟩))

/-- No range is read that leaves its table. Where a range is gone through index by index, the table
must not have a record for every index. -/
structure RefusesRanges (linkage : Linkage) : Prop where
  fields (names : BuildNames) (offsets : OffsetSource) (index : Index .typeDefinitions)
    (definition : TypeDefinition) (context : GenericContext) (state : ResolutionState) :
    linkage.metadata.declarations.fields.Leaves definition.fieldStart
      definition.fieldCount.toUInt32 →
    (linkage.splitFields names offsets index definition context).run.run state =
      (.error (.outOfRange .fields definition.fieldStart.raw), state)
  contexts (image : Image) (key : ContextKey) (range : ContextRange) :
    linkage.metadata.HasContextRange image key range →
    range.table.Leaves range.start range.count →
    linkage.contextEntries image key.token key.start key.count =
      .error (.outOfRange range.kind range.start.raw)
  virtualMethods (definition : TypeDefinition) :
    linkage.metadata.declarations.vtableMethods.size < UInt32.size →
    linkage.metadata.declarations.vtableMethods.Leaves definition.vtableStart
      definition.vtableCount.toUInt32 →
    ∃ error, linkage.metadata.virtualMethods definition = .error error
  parameters (definition : TypeDefinition) (container : GenericContainer) :
    linkage.metadata.declarations.genericContainers.get? definition.genericContainer =
      some container →
    linkage.metadata.declarations.genericParameters.size < UInt32.size →
    linkage.metadata.declarations.genericParameters.Leaves container.parameterStart
      container.parameterCount →
    ∃ error, linkage.metadata.declaredParameters definition = .error error
  images (image : Image) (state : ResolutionState) :
    image ∈ linkage.metadata.declarations.images.toList →
    linkage.metadata.declarations.typeDefinitions.size < UInt32.size →
    linkage.metadata.declarations.typeDefinitions.Leaves image.typeStart image.typeCount →
    ∃ error, (linkage.nameDefinitions.run.run state).1 = .error error

theorem refusesRanges {metadata : Metadata} (linked : ofMetadata metadata = .ok linkage) :
    linkage.RefusesRanges := by
  obtain ⟨rfl, -⟩ := modules_eq_of_ofMetadata linked
  constructor
  case fields =>
    intro names offsets index definition context state leaves
    rw [splitFields, Table.slice?_eq_none_iff.mpr leaves]
    rfl
  case contexts =>
    intro image key range hasRange leaves
    rw [contextEntries_eq_read linked hasRange]
    exact ContextRange.read_eq_error_iff.mpr ⟨leaves, rfl⟩
  case virtualMethods =>
    intro definition addressable leaves
    cases areMethods : linkage.metadata.virtualMethods definition with
    | error error => exact ⟨error, rfl⟩
    | ok names =>
      exact absurd (Metadata.hasRange_of_virtualMethods areMethods)
        ((Table.leaves_iff_not_hasRange addressable).mp leaves)
  case parameters =>
    intro definition container isContainer addressable leaves
    cases areNames : linkage.metadata.declaredParameters definition with
    | error error => exact ⟨error, rfl⟩
    | ok names =>
      exact absurd (Metadata.hasRange_of_declaredParameters isContainer areNames)
        ((Table.leaves_iff_not_hasRange addressable).mp leaves)
  case images =>
    intro image state isImage addressable leaves
    have notHasRange := (Table.leaves_iff_not_hasRange addressable).mp leaves
    exact (yields_nameDefinitions_hasRange isImage).exists_eq_error (fun _ ↦ notHasRange) state

/-- **A range is read whole or not at all.** In a table with fewer records than there are indices,
taking a range out at once and going through it index by index give the same records, and both fail
if the range leaves the table. -/
theorem ranges_whole_or_refused :
    (∀ {kind : TableKind} {Record : Type} (table : Table kind Record), table.size < UInt32.size →
      ∀ (start : Index kind) (count : UInt32),
        (∀ records, table.slice? start count = some records ↔ records.length = count.toNat ∧
          ∀ step < count, table.get? (start.offset step) = records[step.toNat]?) ∧
        (table.Leaves start count ↔ table.slice? start count = none) ∧
        (table.Leaves start count ↔ ∃ step < count, table.get? (start.offset step) = none)) ∧
    ∀ (metadata : Metadata) (linkage : Linkage), ofMetadata metadata = .ok linkage →
      linkage.RefusesRanges := by
  refine ⟨fun table addressable start count ↦
    ⟨fun records ↦ Table.slice?_eq_some_iff_get?_offset addressable,
      Table.slice?_eq_none_iff.symm, ?_⟩, fun metadata linkage linked ↦ refusesRanges linked⟩
  rw [Table.leaves_iff_not_hasRange addressable]
  simp [Table.HasRange]

end Linkage

/-- A box whose virtual table ends behind the last entry of all, in an image that claims one more
definition than there are. -/
def Metadata.overruns : Metadata :=
  { Metadata.dispatches with
    declarations := { Metadata.dispatches.declarations with
      typeDefinitions := .ofList [box]
      images := .ofList [⟨"main.dll", ⟨0⟩, 2, 0, 0, 0⟩] } }
where
  box : TypeDefinition :=
    { TypeDefinition.named "Demo" "Box`1" with vtableStart := ⟨3⟩, vtableCount := 4 }

namespace Linkage

theorem overruns_ranges_whole_or_refused :
    (∀ step < 2, Metadata.overruns.declarations.vtableMethods.get? ((⟨3⟩ : Index _).offset step) =
      [0x60000003, 0x60000001][step.toNat]?) ∧
    Metadata.overruns.declarations.vtableMethods.slice? ⟨3⟩ 4 = none ∧
    (∃ step < 4,
      Metadata.overruns.declarations.vtableMethods.get? ((⟨3⟩ : Index _).offset step) = none) ∧
    ∃ linkage, ofMetadata .overruns = .ok linkage ∧
      Metadata.overruns.typeDefinition ⟨0⟩ = .ok Metadata.overruns.box ∧
      (∃ error, Metadata.overruns.virtualMethods Metadata.overruns.box = .error error) ∧
      ∀ state, ∃ error, (linkage.nameDefinitions.run.run state).1 = .error error := by
  obtain ⟨agrees, refuses⟩ := ranges_whole_or_refused
  have addressable : Metadata.overruns.declarations.vtableMethods.size < UInt32.size := by decide
  have leaves : Metadata.overruns.declarations.vtableMethods.Leaves ⟨3⟩ 4 :=
    ⟨by decide, .inr (by decide)⟩
  obtain ⟨slices, -, -⟩ := agrees _ addressable ⟨3⟩ 2
  obtain ⟨-, sliceFails, walkFails⟩ := agrees _ addressable ⟨3⟩ 4
  have linked : ofMetadata .overruns = .ok ⟨.overruns, ∅, modulesByName .overruns⟩ := rfl
  have refused := refuses _ _ linked
  refine ⟨((slices _).mp rfl).2, sliceFails.mp leaves, walkFails.mp leaves, _, linked, rfl,
    refused.virtualMethods Metadata.overruns.box addressable leaves, fun state ↦ ?_⟩
  exact refused.images _ state List.mem_cons_self (by decide) ⟨by decide, .inr (by decide)⟩

end Linkage

end ManagedLayout
