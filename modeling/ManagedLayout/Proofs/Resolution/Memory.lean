import ManagedLayout.Proofs.Resolution.Arena

/-!
# What a resolution remembers

A state of a resolution is faithful to a dump if what it remembers is what the dump says: every
usage that is done stands for the expansion of its type reference, and every descriptor for the
record that it was made from. Both stay so when the state grows, since what is remembered is never
changed.
-/

namespace ManagedLayout

namespace ResolutionState

/-- What is done in one state is done in the other one, with the same result. -/
structure Extends (before after : ResolutionState) : Prop where
  arena : before.ArenaGrows after
  usages : ∀ (key : UsageKey) usage, before.usages[key]? = some (.done usage) →
    after.usages[key]? = some (.done usage)
  definitions : ∀ (definition : Index .typeDefinitions) id,
    before.definitions[definition]? = some (.done id) →
      after.definitions[definition]? = some (.done id)

/-- One state is reached from the other one by work that is over: nothing more, and nothing less, is
underway. -/
structure Grows (before after : ResolutionState) : Prop extends Extends before after where
  usagesUnderway : ∀ key : UsageKey,
    after.usages[key]? = some .underway ↔ before.usages[key]? = some .underway
  definitionsUnderway : ∀ definition : Index .typeDefinitions,
    after.definitions[definition]? = some .underway ↔
      before.definitions[definition]? = some .underway

variable {before middle after state : ResolutionState} {metadata : Metadata} {id : DescriptorId}

theorem Extends.trans (first : before.Extends middle) (second : middle.Extends after) :
    before.Extends after where
  arena := first.arena.trans second.arena
  usages key usage done := second.usages key usage (first.usages key usage done)
  definitions definition id done :=
    second.definitions definition id (first.definitions definition id done)

theorem Extends.refl : state.Extends state := ⟨.refl, fun _ _ done ↦ done, fun _ _ done ↦ done⟩

theorem Grows.refl : state.Grows state := ⟨.refl, fun _ ↦ .rfl, fun _ ↦ .rfl⟩

theorem Grows.trans (first : before.Grows middle) (second : middle.Grows after) :
    before.Grows after where
  toExtends := first.toExtends.trans second.toExtends
  usagesUnderway key := (second.usagesUnderway key).trans (first.usagesUnderway key)
  definitionsUnderway definition :=
    (second.definitionsUnderway definition).trans (first.definitionsUnderway definition)

/-- The tree of a usage whose result is remembered. -/
def remembered (state : ResolutionState) (metadata : Metadata) (key : UsageKey) :
    Except LayoutError TypeTree :=
  match state.usages[metadata.normal key]? with
  | some (.done usage) => .ok (state.usageTree usage)
  | _ => .error (.nonTerminating .types key.type.raw)

theorem remembered_eq_ok {key : UsageKey} {tree : TypeTree} :
    state.remembered metadata key = .ok tree ↔
      ∃ usage, state.usages[metadata.normal key]? = some (.done usage) ∧
        state.usageTree usage = tree := by
  unfold remembered
  cases found : state.usages[metadata.normal key]? with
  | none => simp
  | some progress => cases progress <;> simp

/-- There is a descriptor of this kind at this place. -/
def Shows (state : ResolutionState) (id : DescriptorId) (kind : DescriptorKind) : Prop :=
  ∃ descriptor, state.descriptors[id.position]? = some descriptor ∧ descriptor.kind = kind

theorem Shows.stored {kind : DescriptorKind} (shows : state.Shows id kind) :
    id.position < state.descriptors.size := by
  obtain ⟨_, found, _⟩ := shows
  exact (Array.getElem?_eq_some_iff.mp found).1

theorem Shows.mono {kind : DescriptorKind} (grows : before.ArenaGrows after)
    (shows : before.Shows id kind) : after.Shows id kind := by
  obtain ⟨descriptor, found, isKind⟩ := shows
  exact ⟨descriptor, grows.getElem?_eq_some found, isKind⟩

/-- A usage is the result for a type reference: it stands for the expansion of the reference, and
whatever the reference is made of is done as well. -/
structure Known (metadata : Metadata) (state : ResolutionState) (key : UsageKey) (usage : Usage) :
    Prop where
  stored : usage.descriptor.position < state.descriptors.size
  expands : metadata.Expands key (state.usageTree usage)
  parts : ∀ layer, metadata.layer key = .ok layer → ∀ part ∈ layer.parts,
    ∃ found, state.usages[metadata.normal part]? = some (.done found)

theorem Known.mono {key : UsageKey} {usage : Usage} (extend : before.Extends after)
    (known : before.Known metadata key usage) : after.Known metadata key usage where
  stored := Nat.lt_of_lt_of_le known.stored extend.arena.size_le
  expands := extend.arena.usageTree_eq known.stored ▸ known.expands
  parts layer isLayer part mem := by
    obtain ⟨found, done⟩ := known.parts layer isLayer part mem
    exact ⟨found, extend.usages _ _ done⟩

/-- A descriptor is what the record of a definition says. -/
structure MatchesRecord (metadata : Metadata) (state : ResolutionState) (id : DescriptorId)
    (record : TypeDefinition) (descriptor : Descriptor) : Prop where
  name : descriptor.name = baseName record.name ∨
    ∃ suffix, descriptor.name = NamePool.suffixed (baseName record.name) suffix
  namespaceName : descriptor.namespaceName = record.namespaceName
  declaringType? : Option.Rel
    (fun type declaring ↦ declaring.position < id.position ∧ ∃ usage,
      state.usages[metadata.normal ⟨type, .empty, .name⟩]? = some (.done usage) ∧
        usage.descriptor = declaring)
    record.declaringType.present? descriptor.declaringType?
  typeArguments : descriptor.typeArguments = []
  parameterNames : metadata.declaredParameters record = .ok descriptor.parameterNames
  isValueType : descriptor.isValueType = record.isValueType
  isEnum : descriptor.isEnum = record.isEnum

theorem MatchesRecord.mono {record : TypeDefinition} {descriptor : Descriptor}
    (extend : before.Extends after) (fits : before.MatchesRecord metadata id record descriptor) :
    after.MatchesRecord metadata id record descriptor where
  __ := fits
  declaringType? :=
    optionRel_mono
      (fun _ _ ⟨earlier, usage, done, isDeclaring⟩ ↦
        ⟨earlier, usage, extend.usages _ _ done, isDeclaring⟩)
      fits.declaringType?

theorem MatchesRecord.declaring_earlier {record : TypeDefinition} {descriptor : Descriptor}
    (fits : state.MatchesRecord metadata id record descriptor) :
    ∀ declaring ∈ descriptor.declaringType?, declaring.position < id.position := by
  intro declaring isDeclaring
  have related := fits.declaringType?
  rw [Option.mem_def.mp isDeclaring] at related
  generalize record.declaringType.present? = type? at related
  cases related with
  | some known => exact known.1

/-- The declaring type in a descriptor is the one that the record names. -/
theorem MatchesRecord.declaring_tree {definition : Index .typeDefinitions} {record : TypeDefinition}
    {descriptor : Descriptor} (fits : state.MatchesRecord metadata id record descriptor)
    (found : metadata.typeDefinition definition = .ok record) :
    ∃ declaring?, metadata.declaringUsage? definition = .ok declaring? ∧
      (declaring?.mapM fun part ↦ TypeTree.core <$> state.remembered metadata part) =
        .ok (descriptor.declaringType?.map state.descriptorTree) := by
  refine ⟨record.declaringType.present?.map (⟨·, .empty, .name⟩), ?_, ?_⟩
  · simp only [Metadata.declaringUsage?, lookup_bind_eq_ok, lookup_pure_eq_ok]
    exact ⟨record, found, _, fits.parameterNames, rfl⟩
  · have related := fits.declaringType?
    generalize record.declaringType.present? = type? at related ⊢
    generalize descriptor.declaringType? = id? at related ⊢
    cases related with
    | none => rfl
    | some known =>
      obtain ⟨-, usage, done, rfl⟩ := known
      refine lookup_optionMapM_eq_ok.mpr (.inr ⟨_, _, rfl, rfl, ?_⟩)
      refine lookup_map_eq_ok.mpr ⟨_, remembered_eq_ok.mpr ⟨usage, done, rfl⟩, ?_⟩
      exact core_usageTree

/-- A descriptor is that of a definition, but with arguments that stand before it in the arena. -/
structure MatchesOpen (state : ResolutionState) (id : DescriptorId)
    (genericClass : Index .genericClasses) (definition : Index .typeDefinitions)
    (openId : DescriptorId) (openDescriptor descriptor : Descriptor) : Prop where
  done : state.definitions[definition]? = some (.done openId)
  earlier : openId.position < id.position
  found : state.descriptors[openId.position]? = some openDescriptor
  eq : descriptor = { openDescriptor with
    kind := .instantiation genericClass definition
    typeArguments := descriptor.typeArguments
    parameterNames := [] }
  arguments : ∀ argument ∈ descriptor.typeArguments, argument.descriptor.position < id.position

theorem MatchesOpen.mono {genericClass : Index .genericClasses}
    {definition : Index .typeDefinitions} {openId : DescriptorId}
    {openDescriptor descriptor : Descriptor} (extend : before.Extends after)
    (fits : before.MatchesOpen id genericClass definition openId openDescriptor descriptor) :
    after.MatchesOpen id genericClass definition openId openDescriptor descriptor where
  __ := fits
  done := extend.definitions _ _ fits.done
  found := extend.arena.getElem?_eq_some fits.found

/-- What a descriptor says is true of the dump, and of the descriptors before it. -/
def Describes (metadata : Metadata) (state : ResolutionState) (id : DescriptorId)
    (descriptor : Descriptor) : Prop :=
  match descriptor.kind with
  | .builtin kind =>
    ∃ spelling, kind.builtin? = some spelling ∧
      descriptor = .named (.builtin kind) spelling.keyword
  | .parameter parameter =>
    ∃ record, metadata.genericParameter parameter = .ok record ∧
      descriptor = .named (.parameter parameter) record.name
  | .definition definition =>
    state.definitions[definition]? = some (.done id) ∧
      ∃ record, metadata.typeDefinition definition = .ok record ∧
        state.MatchesRecord metadata id record descriptor
  | .instantiation genericClass definition =>
    metadata.UsesClass genericClass ∧
      metadata.openDefinition? genericClass = .ok (some definition) ∧
      ∃ openId openDescriptor,
        state.MatchesOpen id genericClass definition openId openDescriptor descriptor

theorem MatchesOpen.kind_eq {genericClass : Index .genericClasses}
    {definition : Index .typeDefinitions} {openId : DescriptorId}
    {openDescriptor descriptor : Descriptor}
    (fits : state.MatchesOpen id genericClass definition openId openDescriptor descriptor) :
    descriptor.kind = .instantiation genericClass definition := by
  rw [fits.eq]

theorem MatchesOpen.describes {genericClass : Index .genericClasses}
    {definition : Index .typeDefinitions} {openId : DescriptorId}
    {openDescriptor descriptor : Descriptor}
    (fits : state.MatchesOpen id genericClass definition openId openDescriptor descriptor)
    (used : metadata.UsesClass genericClass)
    (isOpen : metadata.openDefinition? genericClass = .ok (some definition)) :
    state.Describes metadata id descriptor := by
  simp only [Describes, fits.kind_eq]
  exact ⟨used, isOpen, openId, openDescriptor, fits⟩

theorem Describes.mono {descriptor : Descriptor} (extend : before.Extends after)
    (describes : before.Describes metadata id descriptor) :
    after.Describes metadata id descriptor := by
  unfold Describes at describes ⊢
  split at describes
  · exact describes
  · exact describes
  · obtain ⟨done, record, found, fits⟩ := describes
    exact ⟨extend.definitions _ _ done, record, found, fits.mono extend⟩
  · obtain ⟨used, isOpen, openId, openDescriptor, fits⟩ := describes
    exact ⟨used, isOpen, openId, openDescriptor, fits.mono extend⟩

/-- Whatever a state remembers is true of the dump. -/
structure Faithful (metadata : Metadata) (state : ResolutionState) : Prop where
  descriptors : ∀ (id : DescriptorId) descriptor, state.descriptors[id.position]? = some descriptor →
    state.Describes metadata id descriptor
  usages : ∀ (key : UsageKey) usage, state.usages[key]? = some (.done usage) →
    state.Known metadata key usage
  definitions : ∀ (definition : Index .typeDefinitions) id,
    state.definitions[definition]? = some (.done id) → state.Shows id (.definition definition)
  parameters : ∀ (parameter : Index .genericParameters) id,
    state.parameters[parameter]? = some id → state.Shows id (.parameter parameter)
  builtins : ∀ (kind : TypeKind) id, state.builtins[kind]? = some id → state.Shows id (.builtin kind)

theorem faithful_empty : empty.Faithful metadata := by
  constructor <;> simp [empty]

/-- A descriptor is that of a definition, but for its arguments. -/
structure DeclaredBy (metadata : Metadata) (state : ResolutionState) (id : DescriptorId)
    (descriptor : Descriptor) (definition : Index .typeDefinitions) (openId : DescriptorId)
    (openDescriptor : Descriptor) (record : TypeDefinition) : Prop where
  done : state.definitions[definition]? = some (.done openId)
  notLater : openId.position ≤ id.position
  found : state.descriptors[openId.position]? = some openDescriptor
  isDefinition : openDescriptor.kind = .definition definition
  isRecord : metadata.typeDefinition definition = .ok record
  fits : state.MatchesRecord metadata openId record openDescriptor
  eq : descriptor = { openDescriptor with
    kind := descriptor.kind
    typeArguments := descriptor.typeArguments
    parameterNames := descriptor.parameterNames }

theorem Faithful.declaredBy_definition {definition : Index .typeDefinitions}
    {descriptor : Descriptor} (faithful : state.Faithful metadata)
    (found : state.descriptors[id.position]? = some descriptor)
    (isDefinition : descriptor.kind = .definition definition) :
    ∃ record, state.DeclaredBy metadata id descriptor definition id descriptor record := by
  have describes := faithful.descriptors id descriptor found
  simp only [Describes, isDefinition] at describes
  obtain ⟨done, record, isRecord, fits⟩ := describes
  exact ⟨record, done, Nat.le_refl _, found, isDefinition, isRecord, fits, rfl⟩

theorem Faithful.declaredBy_instantiation {genericClass : Index .genericClasses}
    {definition : Index .typeDefinitions} {descriptor : Descriptor}
    (faithful : state.Faithful metadata)
    (found : state.descriptors[id.position]? = some descriptor)
    (isInstantiation : descriptor.kind = .instantiation genericClass definition) :
    ∃ openId openDescriptor record,
      state.DeclaredBy metadata id descriptor definition openId openDescriptor record := by
  have describes := faithful.descriptors id descriptor found
  simp only [Describes, isInstantiation] at describes
  obtain ⟨-, -, openId, openDescriptor, fits⟩ := describes
  obtain ⟨openFound, openStored, isDefinition⟩ := faithful.definitions definition openId fits.done
  obtain rfl : openDescriptor = openFound := Option.some.inj (fits.found.symm.trans openStored)
  obtain ⟨record, declared⟩ := faithful.declaredBy_definition openStored isDefinition
  refine ⟨openId, openDescriptor, record, { declared with
    notLater := Nat.le_of_lt fits.earlier
    eq := ?_ }⟩
  rw [fits.eq]

theorem Faithful.arguments_earlier {genericClass : Index .genericClasses}
    {definition : Index .typeDefinitions} {descriptor : Descriptor}
    (faithful : state.Faithful metadata)
    (found : state.descriptors[id.position]? = some descriptor)
    (isInstantiation : descriptor.kind = .instantiation genericClass definition) :
    ∀ argument ∈ descriptor.typeArguments, argument.descriptor.position < id.position := by
  have describes := faithful.descriptors id descriptor found
  simp only [Describes, isInstantiation] at describes
  obtain ⟨-, -, openId, openDescriptor, fits⟩ := describes
  exact fits.arguments

section DeclaredBy

variable {definition : Index .typeDefinitions} {descriptor openDescriptor : Descriptor}
  {openId : DescriptorId} {record : TypeDefinition}

theorem DeclaredBy.name_eq
    (declared : state.DeclaredBy metadata id descriptor definition openId openDescriptor record) :
    descriptor.name = openDescriptor.name := by
  rw [declared.eq]

theorem DeclaredBy.declaringType?_eq
    (declared : state.DeclaredBy metadata id descriptor definition openId openDescriptor record) :
    descriptor.declaringType? = openDescriptor.declaringType? := by
  rw [declared.eq]

theorem DeclaredBy.isValueType_eq
    (declared : state.DeclaredBy metadata id descriptor definition openId openDescriptor record) :
    descriptor.isValueType = record.isValueType := by
  rw [declared.eq]
  exact declared.fits.isValueType

theorem DeclaredBy.declaring_earlier
    (declared : state.DeclaredBy metadata id descriptor definition openId openDescriptor record) :
    ∀ declaring ∈ descriptor.declaringType?, declaring.position < id.position := by
  intro declaring isDeclaring
  rw [declared.declaringType?_eq] at isDeclaring
  have earlier := declared.fits.declaring_earlier declaring isDeclaring
  exact Nat.lt_of_lt_of_le earlier declared.notLater

end DeclaredBy

theorem Faithful.definition_tree {definition : Index .typeDefinitions}
    (faithful : state.Faithful metadata)
    (done : state.definitions[definition]? = some (.done id)) :
    ∃ declaring?, metadata.declaringUsage? definition = .ok declaring? ∧
      (TypeLayer.definition definition declaring?).tree (state.remembered metadata) =
        .ok (state.descriptorTree id) := by
  obtain ⟨descriptor, stored, isDefinition⟩ := faithful.definitions definition id done
  have describes := faithful.descriptors id descriptor stored
  simp only [Describes, isDefinition] at describes
  obtain ⟨-, record, found, fits⟩ := describes
  obtain ⟨declaring?, isDeclaring, expanded⟩ := fits.declaring_tree found
  refine ⟨declaring?, isDeclaring, ?_⟩
  simp only [TypeLayer.tree, lookup_bind_eq_ok, lookup_pure_eq_ok]
  refine ⟨_, expanded, ?_⟩
  rw [descriptorTree_definition stored isDefinition fits.declaring_earlier]

/-- The tree of an instantiation is made of those of its arguments, if these are remembered. -/
theorem Faithful.instantiation_tree {genericClass : Index .genericClasses}
    {definition : Index .typeDefinitions} {descriptor openDescriptor : Descriptor}
    {openId : DescriptorId} {context : GenericContext} {types : List (Index .types)}
    (faithful : state.Faithful metadata)
    (stored : state.descriptors[id.position]? = some descriptor)
    (fits : state.MatchesOpen id genericClass definition openId openDescriptor descriptor)
    (arguments : List.Forall₂
      (fun type usage ↦ state.usages[metadata.normal ⟨type, context, .name⟩]? = some (.done usage))
      types descriptor.typeArguments) :
    ∃ declaring?, metadata.declaringUsage? definition = .ok declaring? ∧
      (TypeLayer.instantiation genericClass definition declaring?
          (types.map (⟨·, context, .name⟩))).tree (state.remembered metadata) =
        .ok (state.descriptorTree id) := by
  obtain ⟨_, _, record, declared⟩ := faithful.declaredBy_instantiation stored fits.kind_eq
  obtain ⟨declaring?, isDeclaring, expanded⟩ := declared.fits.declaring_tree declared.isRecord
  have trees : (types.map (⟨·, context, .name⟩)).mapM (state.remembered metadata) =
      .ok (descriptor.typeArguments.map state.usageTree) := by
    rw [lookup_mapM_eq_ok, List.forall₂_map_left_iff, List.forall₂_map_right_iff]
    exact arguments.imp fun type usage done ↦ remembered_eq_ok.mpr ⟨usage, done, rfl⟩
  refine ⟨declaring?, isDeclaring, ?_⟩
  simp only [TypeLayer.tree, lookup_bind_eq_ok, lookup_pure_eq_ok]
  refine ⟨_, expanded, _, trees, ?_⟩
  rw [descriptorTree_instantiation stored fits.kind_eq declared.declaring_earlier fits.arguments,
    declared.declaringType?_eq]

/-- A state that remembers more is faithful if the rest of what it remembers is true. -/
theorem Faithful.extend (faithful : before.Faithful metadata) (extend : before.Extends after)
    (descriptors : ∀ (id : DescriptorId) descriptor, after.descriptors[id.position]? = some descriptor →
      before.descriptors[id.position]? = some descriptor ∨ after.Describes metadata id descriptor)
    (usages : ∀ (key : UsageKey) usage, after.usages[key]? = some (.done usage) →
      before.usages[key]? = some (.done usage) ∨ after.Known metadata key usage)
    (definitions : ∀ (definition : Index .typeDefinitions) id,
      after.definitions[definition]? = some (.done id) →
      before.definitions[definition]? = some (.done id) ∨ after.Shows id (.definition definition))
    (parameters : ∀ (parameter : Index .genericParameters) id,
      after.parameters[parameter]? = some id →
      before.parameters[parameter]? = some id ∨ after.Shows id (.parameter parameter))
    (builtins : ∀ (kind : TypeKind) id, after.builtins[kind]? = some id →
      before.builtins[kind]? = some id ∨ after.Shows id (.builtin kind)) :
    after.Faithful metadata where
  descriptors id descriptor found :=
    (descriptors id descriptor found).elim
      (fun old ↦ (faithful.descriptors id descriptor old).mono extend) fun new ↦ new
  usages key usage done :=
    (usages key usage done).elim (fun old ↦ (faithful.usages key usage old).mono extend) fun new ↦ new
  definitions definition id done :=
    (definitions definition id done).elim
      (fun old ↦ (faithful.definitions definition id old).mono extend.arena) fun new ↦ new
  parameters parameter id found :=
    (parameters parameter id found).elim
      (fun old ↦ (faithful.parameters parameter id old).mono extend.arena) fun new ↦ new
  builtins kind id found :=
    (builtins kind id found).elim
      (fun old ↦ (faithful.builtins kind id old).mono extend.arena) fun new ↦ new

/-- A usage is known if its tree is that of the layer with what is remembered of the parts. -/
theorem Faithful.known_of_layer {key : UsageKey} {usage : Usage} {layer : TypeLayer}
    (faithful : state.Faithful metadata)
    (stored : usage.descriptor.position < state.descriptors.size)
    (isLayer : metadata.layer key = .ok layer)
    (assembled : layer.tree (state.remembered metadata) = .ok (state.usageTree usage)) :
    state.Known metadata key usage where
  stored := stored
  expands := by
    refine Metadata.expands_of_layer isLayer assembled fun part _ tree expanded ↦ ?_
    obtain ⟨found, done, rfl⟩ := remembered_eq_ok.mp expanded
    exact Metadata.expands_normal.mp (faithful.usages _ _ done).expands
  parts other isOther part mem := by
    obtain rfl := Except.ok.inj (isLayer.symm.trans isOther)
    obtain ⟨tree, expanded⟩ := TypeLayer.expand_of_mem_parts assembled mem
    obtain ⟨found, done, -⟩ := remembered_eq_ok.mp expanded
    exact ⟨found, done⟩

end ResolutionState

end ManagedLayout
