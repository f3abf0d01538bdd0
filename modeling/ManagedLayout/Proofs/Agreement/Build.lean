import ManagedLayout.Proofs.Agreement.Resolution
import ManagedLayout.Proofs.Catalogue.Passes

/-!
# Builds of dumps that agree

Pass by pass, two dumps that agree are treated alike: the same definitions and generic classes get
the same names, the same places in code are found, and the layouts have the same members. So their
builds have the same result. What the builds report differs, if only in the version.
-/

namespace ManagedLayout

open Resolve

theorem Linkage.nameInstance_of_resembles (linkage : Linkage) (definitions : DefinitionNames)
    (instances : InstanceNames) (type : Index .types) {reference other : TypeReference}
    (resembles : reference.Resembles other) :
    linkage.nameInstance definitions instances type reference =
      linkage.nameInstance definitions instances type other := by
  apply resembles.congr
  intro reference data isDeclaration
  unfold nameInstance
  dsimp only
  generalize reference.kind = kind
  cases data with
  | none | type | genericClass | array => contradiction
  | definition | definitionHandle | parameter | parameterHandle => cases kind <;> rfl

/-- A version without a usage table is like one with a table that lists no use. -/
theorem Metadata.usageSites_of_unlisted {metadata : Metadata}
    (unlisted : ¬metadata.version.listsUsages = true) : metadata.usageSites = .ok [] :=
  if_neg unlisted

namespace Linkage.Agrees

variable {first second : Linkage}

theorem alike_claim (agrees : first.Agrees second) (image : Index .images)
    (definition : Index .typeDefinitions) (names : DefinitionNames) :
    Alike (first.claim image definition names) (second.claim image definition names) := by
  unfold claim
  split
  next owner _ => exact .bind (.report _ _) fun _ ↦ .pure names
  next =>
    apply Alike.bind (agrees.alike_definitionUsage definition .name)
    intro usage
    apply Alike.bind_get
    intro state events
    rw [ResolutionState.usageText_withEvents]
    apply Alike.bind_lookup_eq (agrees.metadata.builtinKind? definition)
    intro builtin?
    exact .pure _

theorem alike_claimRange (agrees : first.Agrees second) (image : Index .images) (count : Nat)
    (definition : Index .typeDefinitions) (names : DefinitionNames) :
    Alike (first.claimRange image count definition names)
      (second.claimRange image count definition names) := by
  induction count generalizing definition names with
  | zero => exact .pure names
  | succ count ih => exact .bind (agrees.alike_claim image definition names) (ih _)

theorem alike_nameDefinitions (agrees : first.Agrees second) :
    Alike first.nameDefinitions second.nameDefinitions := by
  unfold nameDefinitions
  rw [agrees.metadata.images]
  apply Alike.foldlM_same
  rintro ⟨index, image⟩ names
  exact agrees.alike_claimRange index _ _ names

theorem alike_addInstance (agrees : first.Agrees second) (definitions : DefinitionNames)
    (instances : InstanceNames) (genericClass : Index .genericClasses)
    (definition : Index .typeDefinitions) (type : Index .types) :
    Alike (first.addInstance definitions instances genericClass definition type)
      (second.addInstance definitions instances genericClass definition type) := by
  apply Alike.bind (agrees.alike_resolve type .empty .name)
  intro usage
  apply Alike.bind (agrees.alike_describe definition)
  intro _
  apply Alike.bind_get
  intro state events
  rw [ResolutionState.instanceName?_withEvents, ResolutionState.usageText_withEvents]
  exact .bind (.report _ _) fun _ ↦ .pure _

theorem alike_nameInstance (agrees : first.Agrees second) (definitions : DefinitionNames)
    (instances : InstanceNames) (type : Index .types) (reference : TypeReference) :
    Alike (first.nameInstance definitions instances type reference)
      (second.nameInstance definitions instances type reference) := by
  unfold nameInstance
  split
  next genericClass _ _ =>
    split
    next => exact .pure instances
    next =>
      apply Alike.bind_lookup_eq (agrees.metadata.openDefinition? genericClass)
      intro definition?
      cases definition? with
      | none => exact .pure instances
      | some definition =>
        dsimp only
        split
        next => exact agrees.alike_addInstance definitions instances genericClass definition type
        next => exact .throw _
  next => exact .throw _
  next => exact .pure instances

theorem alike_nameInstances (agrees : first.Agrees second) (definitions : DefinitionNames) :
    Alike (first.nameInstances definitions) (second.nameInstances definitions) := by
  apply Alike.foldlM _ agrees.metadata.types.indexed
  rintro ⟨type, reference⟩ ⟨_, other⟩ instances ⟨rfl, resembles⟩
  dsimp only at resembles ⊢
  rw [← second.nameInstance_of_resembles definitions instances type resembles]
  exact agrees.alike_nameInstance definitions instances type reference

theorem alike_callSiteKey (agrees : first.Agrees second) (definitions : DefinitionNames)
    (definition : Index .typeDefinitions) :
    Alike (first.callSiteKey definitions definition)
      (second.callSiteKey definitions definition) := by
  unfold callSiteKey
  split
  next name _ => exact .pure name
  next =>
    apply Alike.bind (agrees.alike_describe definition)
    intro descriptor
    apply Alike.bind_get
    intro state events
    rw [ResolutionState.descriptorText_withEvents]
    exact .pure _

theorem alike_instantiationText? (agrees : first.Agrees second)
    (index? : Option (Index .genericInstantiations)) :
    Alike (first.instantiationText? index?) (second.instantiationText? index?) := by
  cases index? with
  | none => exact .pure none
  | some index => exact .bind (agrees.alike_instantiationText index) fun text ↦ .pure (some text)

theorem alike_callSite (agrees : first.Agrees second) (definitions : DefinitionNames)
    (site : UsageSite) :
    Alike (first.callSite definitions site) (second.callSite definitions site) := by
  obtain ⟨address, index | index⟩ := site
  · apply Alike.bind_lookup (agrees.metadata.method index)
    rintro method _ ⟨start, count, rfl⟩
    apply Alike.bind (agrees.alike_callSiteKey definitions method.declaringType)
    intro key
    exact .pure _
  · apply Alike.bind_lookup_eq (agrees.metadata.specContext index)
    intro context
    apply Alike.bind_lookup_eq (agrees.metadata.methodSpec index)
    intro spec
    apply Alike.bind_lookup (agrees.metadata.method spec.method)
    rintro method _ ⟨start, count, rfl⟩
    apply Alike.bind (agrees.alike_callSiteKey definitions method.declaringType)
    intro key
    apply Alike.bind (agrees.alike_instantiationText? context.methodArguments?)
    intro methodArguments?
    apply Alike.bind (agrees.alike_instantiationText? context.classArguments?)
    intro typeArguments?
    exact .pure _

/-- It does not matter which of the dumps has a usage table, as long as they list the same sites. -/
theorem alike_groupCallSites (agrees : first.Agrees second) (definitions : DefinitionNames) :
    Alike (first.groupCallSites definitions) (second.groupCallSites definitions) := by
  have sameSites := agrees.metadata.usageSites
  unfold groupCallSites
  split <;> split
  next =>
    apply Alike.bind_lookup_eq sameSites
    intro sites
    apply Alike.foldlM_same
    intro site groups
    exact .bind (agrees.alike_callSite definitions site) fun _ ↦ .pure _
  next isListed unlisted =>
    rw [sameSites, Metadata.usageSites_of_unlisted unlisted]
    exact .bind_report _ (.pure ∅)
  next unlisted isListed =>
    rw [← sameSites, Metadata.usageSites_of_unlisted unlisted]
    exact .symm (.bind_report _ (.pure ∅))
  next => exact .bind (.report _ _) fun _ ↦ .pure ∅

theorem alike_addField (agrees : first.Agrees second) (names : BuildNames) (offsets : OffsetSource)
    (index : Index .typeDefinitions) (definition : TypeDefinition) (context : GenericContext)
    (split : FieldSplit) (field : FieldDefinition) (ordinal : Nat) :
    Alike (first.addField names offsets index definition context split field ordinal)
      (second.addField names offsets index definition context split field ordinal) := by
  apply Alike.bind_lookup (agrees.metadata.typeReference field.type)
  intro reference other resembles
  rw [resembles.isLiteral_eq, resembles.isStatic_eq]
  split
  next => exact .pure split
  next =>
    apply Alike.bind (agrees.alike_resolve field.type context .value)
    intro usage
    apply Alike.bind_get
    intro state events
    rw [BuildNames.fieldTypeName_withEvents, ResolutionState.isValueType_withEvents,
      ResolutionState.isCustomType_withEvents]
    exact .pure _

theorem alike_splitFields (agrees : first.Agrees second) (names : BuildNames)
    (offsets : OffsetSource) (index : Index .typeDefinitions) (definition : TypeDefinition)
    (context : GenericContext) :
    Alike (first.splitFields names offsets index definition context)
      (second.splitFields names offsets index definition context) := by
  unfold splitFields
  rw [agrees.metadata.fields]
  split
  next => exact .throw _
  next fields _ =>
    apply Alike.foldlM_same
    rintro ⟨field, ordinal⟩ split
    exact agrees.alike_addField names offsets index definition context split field ordinal

theorem alike_parentName? (agrees : first.Agrees second) (names : BuildNames)
    (index : Index .typeDefinitions) (definition : TypeDefinition) (context : GenericContext) :
    Alike (first.parentName? names index definition context)
      (second.parentName? names index definition context) := by
  unfold parentName?
  split
  next => exact .pure none
  next =>
    split
    next => exact .pure none
    next parent _ =>
      apply Alike.bind (agrees.alike_resolve parent context .name)
      intro usage
      apply Alike.bind_get
      intro state events
      simp only [ResolutionState.descriptor_withEvents, BuildNames.structName_withEvents,
        ResolutionState.usageText_withEvents]
      split
      next => exact .pure none
      next =>
        split
        next => exact .bind (.report _ _) fun _ ↦ .pure none
        next => exact .pure _
      next => exact .pure _
      iterate 2 next => exact .bind (.report _ _) fun _ ↦ .pure none

theorem alike_contextRecord (agrees : first.Agrees second) (entry : ContextEntry) :
    Alike (first.contextRecord entry) (second.contextRecord entry) := by
  unfold contextRecord
  split
  iterate 2
    next =>
      apply Alike.bind (agrees.alike_resolve ⟨entry.data⟩ .empty .name)
      intro usage
      apply Alike.bind_get
      intro state events
      rw [ResolutionState.usageText_withEvents]
      exact .pure _
  next =>
    apply Alike.bind_lookup_eq (agrees.metadata.specContext ⟨entry.data⟩)
    intro context
    apply Alike.bind_lookup_eq (agrees.metadata.methodSpec ⟨entry.data⟩)
    intro spec
    apply Alike.bind_lookup (agrees.metadata.method spec.method)
    rintro method _ ⟨start, count, rfl⟩
    apply Alike.bind (agrees.alike_describe method.declaringType)
    intro declaring
    apply Alike.bind_get
    intro state events
    rw [ResolutionState.descriptorText_withEvents]
    apply Alike.bind (agrees.alike_instantiationText? context.classArguments?)
    intro classArguments?
    apply Alike.bind (agrees.alike_instantiationText? context.methodArguments?)
    intro methodArguments?
    exact .pure _
  next => exact .throw _

theorem alike_methodContexts (agrees : first.Agrees second) (image : Image)
    (methods : List (Index .methods)) :
    Alike (first.methodContexts image methods) (second.methodContexts image methods) := by
  apply Alike.filterMapM
  intro index
  apply Alike.bind_lookup_eq (agrees.contextOfMethod image index)
  intro entries
  split
  next => exact .pure none
  next =>
    apply Alike.bind_lookup (agrees.metadata.method index)
    rintro method _ ⟨start, count, rfl⟩
    apply Alike.bind (.mapM agrees.alike_contextRecord entries)
    intro records
    exact .pure _

theorem alike_definitionLayout (agrees : first.Agrees second) (options : BuildOptions)
    (offsets : OffsetSource) (names : BuildNames) (entry : NamedDefinition) :
    Alike ((first.plan options offsets names).definitionLayout entry)
      ((second.plan options offsets names).definitionLayout entry) := by
  apply Alike.bind_lookup (agrees.metadata.typeDefinition entry.definition)
  rintro definition _ ⟨start, count, rfl⟩
  apply Alike.bind_lookup_eq (congrArg (·.fetch entry.image) agrees.metadata.images)
  intro image
  apply Alike.bind_get
  intro state events
  rw [ResolutionState.rootNamespace_withEvents]
  apply Alike.bind (agrees.alike_parentName? names entry.definition definition .empty)
  intro parent?
  apply Alike.bind (agrees.alike_splitFields names offsets entry.definition definition .empty)
  intro split
  apply Alike.bind_lookup_eq (agrees.metadata.virtualMethods definition)
  intro virtualMethods
  apply Alike.bind_lookup_eq (agrees.contextOfType image entry.definition)
  intro entries
  apply Alike.bind (.mapM agrees.alike_contextRecord entries)
  intro contextEntries
  rw [plan, plan, agrees.metadata.methodsByDefinition]
  apply Alike.bind (agrees.alike_methodContexts image _)
  intro methodContexts
  exact .pure _

theorem alike_instanceLayout (agrees : first.Agrees second) (options : BuildOptions)
    (offsets : OffsetSource) (names : BuildNames) (entry : NamedInstance) :
    Alike ((first.plan options offsets names).instanceLayout entry)
      ((second.plan options offsets names).instanceLayout entry) := by
  apply Alike.bind_lookup (agrees.metadata.typeDefinition entry.definition)
  rintro definition _ ⟨start, count, rfl⟩
  apply Alike.bind_lookup (agrees.metadata.genericClass entry.genericClass)
  rintro record _ ⟨_, _, rfl⟩
  apply Alike.bind_get
  intro state events
  rw [ResolutionState.rootNamespace_withEvents]
  apply Alike.bind (agrees.alike_parentName? names entry.definition definition _)
  intro parent?
  apply Alike.bind (agrees.alike_splitFields names offsets entry.definition definition _)
  intro split
  apply Alike.bind (agrees.alike_instantiationText? _)
  intro typeArguments?
  apply Alike.bind_lookup_eq (agrees.metadata.virtualMethods definition)
  intro virtualMethods
  simp only [plan, agrees.metadata.images]
  exact .pure _

theorem alike_layouts (agrees : first.Agrees second) (options : BuildOptions)
    (offsets : OffsetSource) (names : BuildNames) :
    Alike (first.plan options offsets names).layouts
      (second.plan options offsets names).layouts := by
  apply Alike.bind (.mapM (agrees.alike_definitionLayout options offsets names) _)
  intro definitions
  by_cases asked : options.genericInstances = true
  · rw [plan, plan, if_pos asked, if_pos asked]
    exact .bind (.mapM (agrees.alike_instanceLayout options offsets names) _) fun _ ↦ .pure _
  · rw [plan, plan, if_neg asked, if_neg asked]
    exact .pure _

theorem alike_namingPasses (agrees : first.Agrees second) :
    Alike first.namingPasses second.namingPasses := by
  apply Alike.bind (.report _ _)
  intro _
  apply Alike.bind agrees.alike_nameDefinitions
  intro definitions
  apply Alike.bind (.report _ _)
  intro _
  apply Alike.bind (agrees.alike_nameInstances definitions)
  intro instances
  apply Alike.bind (.report _ _)
  intro _
  apply Alike.bind (agrees.alike_groupCallSites definitions)
  intro callSites
  exact .bind (.report _ _) fun _ ↦ .pure _

theorem alike_catalogue (agrees : first.Agrees second) (options : BuildOptions)
    (offsets : OffsetSource) :
    Alike (first.catalogue options offsets) (second.catalogue options offsets) := by
  rw [catalogue_eq, catalogue_eq]
  apply Alike.bind agrees.alike_namingPasses
  intro names
  apply Alike.bind (agrees.alike_layouts options offsets names)
  intro structs
  apply Alike.bind_get
  intro state events
  exact .bind (.report _ _) fun _ ↦ .pure _

end Linkage.Agrees

/-- If two dumps find the same type for each definition, and are linked alike, then their builds
have the same result. -/
theorem Catalogue.result_eq_of_agrees {first second : Metadata}
    (agrees : ∀ types, Linkage.Agrees ⟨first, types, Linkage.modulesByName first⟩
      ⟨second, types, Linkage.modulesByName second⟩)
    (options : BuildOptions) (offsets : OffsetSource) :
    (buildWith first options offsets).result = (buildWith second options offsets).result := by
  unfold buildWith Linkage.ofMetadata
  rw [(agrees ∅).metadata.typesByDefinition]
  cases Linkage.typesByDefinition second with
  | error error => rfl
  | ok types => exact ((agrees types).alike_catalogue options offsets).outcome_eq .empty

end ManagedLayout
