import ManagedLayout.Catalogue.Build
import ManagedLayout.Proofs.Lookup
import ManagedLayout.Proofs.Resolution.Outcome

/-!
# The tables that the passes of a build make

What the first two passes of a build put into their tables depends on the resolution only for the
spellings. `DefinitionNames.Records` and `InstanceNames.Records` say which steps lead to a table: one
for each claim of an image, and one for each type reference. The last pass makes one layout for each
entry of the tables.
-/

namespace ManagedLayout

namespace Resolve

variable {Result Other : Type}

/-- Whatever state a computation starts in, its results are as `holds` says. -/
def Yields (computation : Resolve Result) (holds : Result → Prop) : Prop :=
  ∀ state, Ensures computation state (fun result _ ↦ holds result) fun _ _ ↦ True

namespace Yields

variable {holds weaker : Result → Prop}

theorem pure {result : Result} (isResult : holds result) : Yields (Pure.pure result) holds :=
  fun _ ↦ isResult

theorem throw {error : LayoutError} : Yields (MonadExcept.throw error : Resolve Result) holds :=
  fun _ ↦ trivial

theorem trivial (computation : Resolve Result) : Yields computation fun _ ↦ True := by
  intro state
  unfold Ensures
  split <;> exact True.intro

theorem mono {computation : Resolve Result} (yields : Yields computation holds)
    (implies : ∀ result, holds result → weaker result) : Yields computation weaker :=
  fun state ↦ (yields state).mono (fun result _ ↦ implies result) fun _ _ _ ↦ True.intro

theorem and {computation : Resolve Result} {other : Result → Prop}
    (yields : Yields computation holds) (yieldsOther : Yields computation other) :
    Yields computation fun result ↦ holds result ∧ other result :=
  fun state ↦ ((yields state).and (yieldsOther state)).mono (fun _ _ both ↦ both)
    fun _ _ _ ↦ True.intro

/-- A computation without a possible result fails. -/
theorem exists_eq_error {computation : Resolve Result} (yields : Yields computation holds)
    (never : ∀ result, ¬holds result) (state : ResolutionState) :
    ∃ error, (computation.run.run state).1 = .error error := by
  have ensured := yields state
  unfold Ensures at ensured
  split at ensured
  next => exact absurd ensured (never _)
  next error _ ran => exact ⟨error, by rw [ran]⟩

theorem bind {first : Resolve Other} {next : Other → Resolve Result} {middle : Other → Prop}
    (yields : Yields first middle) (nextYields : ∀ result, middle result → Yields (next result) holds) :
    Yields (first >>= next) holds := by
  intro state
  rw [ensures_bind]
  exact (yields state).mono (fun result after isMiddle ↦ nextYields result isMiddle after)
    fun _ _ _ ↦ True.intro

/-- What comes before does not matter if nothing that comes after depends on it. -/
theorem bind_any {first : Resolve Other} {next : Other → Resolve Result}
    (nextYields : ∀ result, Yields (next result) holds) : Yields (first >>= next) holds :=
  bind (trivial first) fun result _ ↦ nextYields result

theorem bind_lookup {lookup : Except LayoutError Other} {next : Other → Resolve Result}
    (nextYields : ∀ found, lookup = .ok found → Yields (next found) holds) :
    Yields (liftM lookup >>= next) holds := by
  intro state
  rw [ensures_bind, ensures_lookup]
  exact ⟨fun found isFound ↦ nextYields found isFound state, fun _ _ ↦ True.intro⟩

theorem mapM {compute : Other → Resolve Result} {related : Other → Result → Prop}
    (yields : ∀ source, Yields (compute source) (related source)) (sources : List Other) :
    Yields (sources.mapM compute) (List.Forall₂ related sources) := by
  induction sources with
  | nil => exact .pure .nil
  | cons source rest ih =>
    rw [List.mapM_cons]
    apply bind (yields source)
    intro result isRelated
    apply bind ih
    intro results areRelated
    exact .pure (.cons isRelated areRelated)

/-- A loop over a list keeps an invariant of what it has gone through. -/
theorem foldlM {Source Accumulator : Type} {step : Accumulator → Source → Resolve Accumulator}
    (invariant : List Source → Accumulator → Prop)
    (yields : ∀ before source accumulator, invariant before accumulator →
      Yields (step accumulator source) (invariant (before ++ [source])))
    (sources : List Source) (initial : Accumulator) (holds : invariant [] initial) :
    Yields (sources.foldlM step initial) (invariant sources) := by
  have from_prefix (before rest : List Source) : ∀ accumulator, invariant before accumulator →
      Yields (rest.foldlM step accumulator) (invariant (before ++ rest)) := by
    induction rest generalizing before with
    | nil =>
      intro accumulator holds
      exact .pure (by rwa [List.append_nil])
    | cons source rest ih =>
      intro accumulator holds
      rw [List.foldlM_cons, List.append_cons]
      exact bind (yields before source accumulator holds) (ih (before ++ [source]))
  exact from_prefix [] sources initial holds

end Yields

end Resolve

/-- The claims of `count` consecutive definitions. -/
def Image.claimsFrom (image : Index .images) (count : Nat) (start : Index .typeDefinitions) :
    List (Index .images × Index .typeDefinitions) :=
  (List.range count).map fun position ↦ (image, start.offset (UInt32.ofNat position))

/-- What the images claim, image by image: each claims the definitions of its range. -/
def Metadata.claims (metadata : Metadata) : List (Index .images × Index .typeDefinitions) :=
  metadata.declarations.images.indexed.flatMap fun pair ↦
    Image.claimsFrom pair.1 pair.2.typeCount.toNat pair.2.typeStart

theorem Image.claimsFrom_succ (image : Index .images) (count : Nat)
    (start : Index .typeDefinitions) :
    claimsFrom image (count + 1) start =
      (image, start) :: claimsFrom image count (start.offset 1) := by
  simp [claimsFrom, List.range_succ_eq_map, Index.offset_one_offset]

/-- The generic class that a type reference uses. -/
def TypeReference.usedClass? (reference : TypeReference) : Option (Index .genericClasses) :=
  match reference.kind, reference.data with
  | .genericInstance, .genericClass genericClass => some genericClass
  | _, _ => none

/-- The generic classes that type references use, in the order of the references. -/
def Metadata.usedClasses (metadata : Metadata) : List (Index .genericClasses) :=
  metadata.registrations.types.types.toList.filterMap TypeReference.usedClass?

/-- The tables of definitions that a sequence of claims leads to: a definition is named by the first
image that claims it. -/
inductive DefinitionNames.Records :
    List (Index .images × Index .typeDefinitions) → DefinitionNames → Prop
  | start : Records [] .empty
  | again {claims : List (Index .images × Index .typeDefinitions)} {names : DefinitionNames}
    (records : Records claims names) (image : Index .images) {definition : Index .typeDefinitions}
    (owned : names.owners[definition]?.isSome) : Records (claims ++ [(image, definition)]) names
  | first {claims : List (Index .images × Index .typeDefinitions)} {names : DefinitionNames}
    (records : Records claims names) (image : Index .images) {definition : Index .typeDefinitions}
    (unowned : names.owners[definition]? = none) (descriptor : DescriptorId) (spelling : String)
    (builtin? : Option TypeKind) :
    Records (claims ++ [(image, definition)])
      (names.insert image definition descriptor spelling builtin?)

/-- The tables of instantiations that a sequence of type references leads to: a generic class with a
definition is named by the first reference that uses it. -/
inductive InstanceNames.Records (metadata : Metadata) (definitions : DefinitionNames) :
    List TypeReference → InstanceNames → Prop
  | start : Records metadata definitions [] .empty
  | skip {references : List TypeReference} {instances : InstanceNames}
    (records : Records metadata definitions references instances) {reference : TypeReference}
    (settled : ∀ genericClass ∈ reference.usedClass?, instances.names[genericClass]?.isSome ∨
      metadata.openDefinition? genericClass = .ok none) :
    Records metadata definitions (references ++ [reference]) instances
  | name {references : List TypeReference} {instances : InstanceNames}
    (records : Records metadata definitions references instances) {reference : TypeReference}
    {entry : NamedInstance} (uses : reference.usedClass? = some entry.genericClass)
    (unnamed : instances.names[entry.genericClass]? = none)
    (isOpen : metadata.openDefinition? entry.genericClass = .ok (some entry.definition)) :
    Records metadata definitions (references ++ [reference]) (instances.insert definitions entry)

/-- The tables come from the claims of the images, and from the type references. -/
structure BuildNames.Records (metadata : Metadata) (names : BuildNames) : Prop where
  definitions : names.definitions.Records metadata.claims
  instances : names.instances.Records metadata names.definitions
    metadata.registrations.types.types.toList

namespace Linkage

open Resolve

variable {linkage : Linkage}

theorem yields_claim {claims : List (Index .images × Index .typeDefinitions)}
    {names : DefinitionNames} (records : names.Records claims) (image : Index .images)
    (definition : Index .typeDefinitions) :
    Yields (linkage.claim image definition names)
      (DefinitionNames.Records (claims ++ [(image, definition)])) := by
  unfold claim
  split
  next owner isOwner =>
    exact .bind_any fun _ ↦ .pure (records.again image (by rw [isOwner]; rfl))
  next unowned =>
    apply Yields.bind_any
    intro usage
    apply Yields.bind_any
    intro state
    apply Yields.bind_any
    intro builtin?
    exact .pure (records.first image unowned usage.descriptor _ builtin?)

theorem yields_claimRange (image : Index .images) (count : Nat) (start : Index .typeDefinitions)
    {claims : List (Index .images × Index .typeDefinitions)} {names : DefinitionNames}
    (records : names.Records claims) :
    Yields (linkage.claimRange image count start names)
      (DefinitionNames.Records (claims ++ Image.claimsFrom image count start)) := by
  induction count generalizing start claims names with
  | zero => exact .pure (by simpa [Image.claimsFrom] using records)
  | succ count ih =>
    rw [Image.claimsFrom_succ, List.append_cons]
    apply Yields.bind (yields_claim records image start)
    intro next recordsNext
    exact ih (start.offset 1) recordsNext

theorem yields_nameDefinitions :
    Yields linkage.nameDefinitions (DefinitionNames.Records linkage.metadata.claims) := by
  apply Yields.foldlM (fun images : List (Index .images × Image) ↦
    DefinitionNames.Records (images.flatMap fun pair ↦
      Image.claimsFrom pair.1 pair.2.typeCount.toNat pair.2.typeStart)) ?_ _ _ .start
  intro before ⟨index, image⟩ names records
  rw [List.flatMap_append, List.flatMap_singleton]
  exact yields_claimRange index image.typeCount.toNat image.typeStart records

theorem yields_nameInstance {definitions : DefinitionNames} {references : List TypeReference}
    {instances : InstanceNames}
    (records : instances.Records linkage.metadata definitions references) (type : Index .types)
    (reference : TypeReference) :
    Yields (linkage.nameInstance definitions instances type reference)
      (InstanceNames.Records linkage.metadata definitions (references ++ [reference])) := by
  unfold nameInstance
  split
  next genericClass isKind isData =>
    have uses : reference.usedClass? = some genericClass := by
      rw [TypeReference.usedClass?, isKind, isData]
    rw [Std.TreeMap.contains_eq_isSome_getElem?]
    split
    next named =>
      apply Yields.pure
      apply records.skip
      intro other isUsed
      obtain rfl := Option.some.inj (uses.symm.trans isUsed)
      exact .inl named
    next unnamed =>
      apply Yields.bind_lookup
      intro definition? isOpen
      cases definition? with
      | none =>
        apply Yields.pure
        apply records.skip
        intro other isUsed
        obtain rfl := Option.some.inj (uses.symm.trans isUsed)
        exact .inr isOpen
      | some definition =>
        dsimp only
        split
        next =>
          apply Yields.bind_any
          intro usage
          apply Yields.bind_any
          intro _
          apply Yields.bind_any
          intro state
          apply Yields.bind_any
          intro _
          exact .pure (records.name uses (by simpa using unnamed) isOpen)
        next => exact .throw
  next => exact .throw
  next otherKind =>
    apply Yields.pure
    apply records.skip
    intro genericClass isUsed
    unfold TypeReference.usedClass? at isUsed
    split at isUsed
    next isKind isData => exact (otherKind _ isKind isData).elim
    next => exact nomatch isUsed

theorem yields_nameInstances (definitions : DefinitionNames) :
    Yields (linkage.nameInstances definitions)
      (InstanceNames.Records linkage.metadata definitions
        linkage.metadata.registrations.types.types.toList) := by
  have whole : linkage.metadata.registrations.types.types.indexed.map Prod.snd =
      linkage.metadata.registrations.types.types.toList := by
    simp [Table.indexed, Function.comp_def]
  rw [← whole]
  apply Yields.foldlM (fun references : List (Index .types × TypeReference) ↦
    InstanceNames.Records linkage.metadata definitions (references.map Prod.snd)) ?_ _ _ .start
  rintro before ⟨type, reference⟩ instances records
  rw [List.map_append]
  exact yields_nameInstance records type reference

end Linkage

/-- The name of an image, if layouts have it. -/
def Metadata.shownImage? (metadata : Metadata) (options : BuildOptions)
    (image? : Option (Index .images)) : Option String :=
  if options.imageNames then (image?.bind metadata.declarations.images.get?).map (·.name) else none

namespace BuildPlan

open Resolve

/-- There is one layout for each entry, with its name and the name of its image. Those of the
instantiations are left out if they are not asked for. -/
structure Lists (plan : BuildPlan) (definitions instances : List StructRecord) : Prop where
  definitions : List.Forall₂
    (fun entry layout ↦ layout.typeName = entry.name ∧
      layout.imageName? = plan.linkage.metadata.shownImage? plan.options entry.image)
    plan.names.definitions.entries.toList definitions
  instances : if plan.options.genericInstances then List.Forall₂
      (fun entry layout ↦ layout.typeName = entry.name ∧ layout.imageName? =
        plan.linkage.metadata.shownImage? plan.options
          plan.names.definitions.owners[entry.definition]?)
      plan.names.instances.entries.toList instances
    else instances = []

variable (plan : BuildPlan)

theorem yields_definitionLayout (entry : NamedDefinition) :
    Yields (plan.definitionLayout entry) fun layout ↦ layout.typeName = entry.name ∧
      layout.imageName? = plan.linkage.metadata.shownImage? plan.options entry.image := by
  apply Yields.bind_any
  intro definition
  apply Yields.bind_lookup
  intro image isImage
  have found := Table.fetch_eq_ok_iff.mp isImage
  iterate 7
    apply Yields.bind_any
    intro _
  apply Yields.pure
  refine ⟨rfl, ?_⟩
  simp [imageName?, Metadata.shownImage?, found]

theorem yields_instanceLayout (entry : NamedInstance) :
    Yields (plan.instanceLayout entry) fun layout ↦ layout.typeName = entry.name ∧
      layout.imageName? = plan.linkage.metadata.shownImage? plan.options
        plan.names.definitions.owners[entry.definition]? := by
  iterate 7
    apply Yields.bind_any
    intro _
  exact .pure ⟨rfl, rfl⟩

/-- There is one layout for each entry, and what is said of the layouts of entries holds of them. -/
theorem yields_layouts_of {ofDefinition : NamedDefinition → StructRecord → Prop}
    {ofInstance : NamedInstance → StructRecord → Prop}
    (yieldsDefinition : ∀ entry, Yields (plan.definitionLayout entry) (ofDefinition entry))
    (yieldsInstance : ∀ entry, Yields (plan.instanceLayout entry) (ofInstance entry)) :
    Yields plan.layouts fun layouts ↦ ∃ definitions instances,
      layouts = definitions ++ instances ∧
        List.Forall₂ ofDefinition plan.names.definitions.entries.toList definitions ∧
        if plan.options.genericInstances then
          List.Forall₂ ofInstance plan.names.instances.entries.toList instances
        else instances = [] := by
  apply Yields.bind (Yields.mapM yieldsDefinition _)
  intro definitions areDefinitions
  split
  next asked =>
    apply Yields.bind (Yields.mapM yieldsInstance _)
    intro instances areInstances
    exact .pure ⟨definitions, instances, rfl, areDefinitions, areInstances⟩
  next unasked => exact .pure ⟨definitions, [], rfl, areDefinitions, rfl⟩

theorem yields_layouts :
    Yields plan.layouts fun layouts ↦ ∃ definitions instances,
      layouts = definitions ++ instances ∧ plan.Lists definitions instances :=
  (plan.yields_layouts_of plan.yields_definitionLayout plan.yields_instanceLayout).mono
    fun _ ⟨definitions, instances, whole, areDefinitions, areInstances⟩ ↦
      ⟨definitions, instances, whole, areDefinitions, areInstances⟩

end BuildPlan

namespace Linkage

open Resolve

/-- The passes before the layouts. -/
def namingPasses (linkage : Linkage) : Resolve BuildNames := do
  Resolve.report (.started linkage.metadata.version)
  let definitions ← linkage.nameDefinitions
  Resolve.report (.definitionsIndexed definitions.entries.size)
  let instances ← linkage.nameInstances definitions
  Resolve.report (.instancesNamed instances.names.size instances.entries.size)
  let callSites ← linkage.groupCallSites definitions
  Resolve.report (.usagesGrouped callSites.size)
  return { definitions, instances, callSites }

/-- What the last pass depends on. -/
def plan (linkage : Linkage) (options : BuildOptions) (offsets : OffsetSource)
    (names : BuildNames) : BuildPlan :=
  ⟨linkage, options, offsets, names, linkage.metadata.methodsByDefinition⟩

/-- A build is the naming passes, and then the layouts. -/
theorem catalogue_eq (linkage : Linkage) (options : BuildOptions) (offsets : OffsetSource) :
    linkage.catalogue options offsets = do
      let names ← linkage.namingPasses
      let structs ← (linkage.plan options offsets names).layouts
      Resolve.report (.synthesized structs.length (← get).resolvedCount)
      return {
        structs
        displayNames := names.definitions.displayNames
        instanceNames := names.instances.names
        callSites := names.callSites } := by
  simp only [catalogue, namingPasses, plan, bind_assoc, pure_bind]

theorem yields_namingPasses (linkage : Linkage) :
    Yields linkage.namingPasses (BuildNames.Records linkage.metadata) := by
  apply Yields.bind_any
  intro _
  apply Yields.bind yields_nameDefinitions
  intro definitions definitionRecords
  apply Yields.bind_any
  intro _
  apply Yields.bind (yields_nameInstances definitions)
  intro instances instanceRecords
  iterate 3
    apply Yields.bind_any
    intro _
  exact .pure ⟨definitionRecords, instanceRecords⟩

end Linkage

/-- A catalogue has the names and the layouts that a build has made. -/
structure Catalogue.ListedBy (plan : BuildPlan) (catalogue : Catalogue)
    (definitions instances : List StructRecord) : Prop where
  structs : catalogue.structs = definitions ++ instances
  displayNames : catalogue.displayNames = plan.names.definitions.displayNames
  instanceNames : catalogue.instanceNames = plan.names.instances.names
  records : plan.names.Records plan.linkage.metadata
  lists : plan.Lists definitions instances

namespace Linkage

open Resolve

/-- What is said of the layouts that a plan makes holds of those of the catalogue. -/
theorem yields_catalogue_of {holds : BuildPlan → List StructRecord → Prop}
    (yieldsLayouts : ∀ plan : BuildPlan, Yields plan.layouts (holds plan)) (linkage : Linkage)
    (options : BuildOptions) (offsets : OffsetSource) :
    Yields (linkage.catalogue options offsets) fun catalogue ↦ ∃ names : BuildNames,
      names.Records linkage.metadata ∧ catalogue.displayNames = names.definitions.displayNames ∧
        catalogue.instanceNames = names.instances.names ∧
        holds (linkage.plan options offsets names) catalogue.structs := by
  rw [catalogue_eq]
  apply Yields.bind linkage.yields_namingPasses
  intro names records
  apply Yields.bind (yieldsLayouts (linkage.plan options offsets names))
  intro structs areLayouts
  apply Yields.bind_any
  intro _
  apply Yields.bind_any
  intro _
  exact .pure ⟨names, records, rfl, rfl, areLayouts⟩

theorem yields_catalogue (linkage : Linkage) (options : BuildOptions) (offsets : OffsetSource) :
    Yields (linkage.catalogue options offsets) fun catalogue ↦ ∃ names definitions instances,
      catalogue.ListedBy (linkage.plan options offsets names) definitions instances :=
  (yields_catalogue_of BuildPlan.yields_layouts linkage options offsets).mono
    fun _ ⟨names, records, displayNames, instanceNames, definitions, instances, structs, lists⟩ ↦
      ⟨names, definitions, instances, structs, displayNames, instanceNames, records, lists⟩

theorem metadata_of_ofMetadata {metadata : Metadata} {linkage : Linkage}
    (linked : ofMetadata metadata = .ok linkage) : linkage.metadata = metadata := by
  obtain ⟨types, -, isLinkage⟩ := lookup_bind_eq_ok.mp linked
  obtain rfl := lookup_pure_eq_ok.mp isLinkage
  rfl

end Linkage

namespace Catalogue

variable {metadata : Metadata} {options : BuildOptions} {offsets : OffsetSource}
  {catalogue : Catalogue}

/-- A build that succeeds has linked the dump, and made the catalogue from it. -/
theorem exists_run (built : (buildWith metadata options offsets).result = .ok catalogue) :
    ∃ linkage, Linkage.ofMetadata metadata = .ok linkage ∧ linkage.metadata = metadata ∧
      ((linkage.catalogue options offsets).run.run .empty).1 = .ok catalogue := by
  unfold buildWith at built
  cases linked : Linkage.ofMetadata metadata with
  | error error =>
    rw [linked] at built
    exact nomatch built
  | ok linkage =>
    rw [linked] at built
    exact ⟨linkage, rfl, Linkage.metadata_of_ofMetadata linked, built⟩

/-- A catalogue lists what the passes have put into their tables. -/
theorem exists_listedBy (built : (buildWith metadata options offsets).result = .ok catalogue) :
    ∃ plan definitions instances, plan.linkage.metadata = metadata ∧ plan.options = options ∧
      catalogue.ListedBy plan definitions instances := by
  obtain ⟨linkage, -, same, ran⟩ := exists_run built
  obtain ⟨names, definitions, instances, listedBy⟩ :=
    (linkage.yields_catalogue options offsets .empty).of_run_eq_ok (Resolve.run_eq_of_fst_eq ran)
  exact ⟨_, definitions, instances, same, rfl, listedBy⟩

end Catalogue

end ManagedLayout
