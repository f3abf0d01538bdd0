import ManagedLayout.Proofs.Resolution.Unwinding

/-!
# The arena is well formed

Whatever refers to a descriptor refers to a place in the arena, and descriptors only to places before
their own. A built-in type, a parameter and a definition each have at most one descriptor, which is
the one that is looked up for them.

That what is looked up is right is part of a faithful state. The other direction is not: a descriptor
of a built-in type or of a parameter comes into the arena first, and can be looked up only after
that. `Indexed` says that no descriptor is left that cannot be.
-/

namespace ManagedLayout

namespace ResolutionState

/-- The descriptors of built-in types and parameters are those that are looked up, and types that
names are unique in are in the arena. -/
structure Indexed (state : ResolutionState) : Prop where
  builtins : ∀ (id : DescriptorId) kind, state.Shows id (.builtin kind) →
    state.builtins[kind]? = some id
  parameters : ∀ (id : DescriptorId) parameter, state.Shows id (.parameter parameter) →
    state.parameters[parameter]? = some id
  scopes : ∀ (declaring : DescriptorId) pool, state.names[NameScope.inType declaring]? = some pool →
    declaring.position < state.descriptors.size

variable {state after : ResolutionState} {id : DescriptorId} {descriptor : Descriptor}

theorem indexed_empty : empty.Indexed := by
  constructor <;> simp [empty, Shows]

/-- Other parts of the state do not matter. -/
theorem Indexed.frame (indexed : state.Indexed) (descriptors : after.descriptors = state.descriptors)
    (builtins : after.builtins = state.builtins) (parameters : after.parameters = state.parameters)
    (names : after.names = state.names) : after.Indexed := by
  constructor
  case builtins => simpa only [Shows, descriptors, builtins] using indexed.builtins
  case parameters => simpa only [Shows, descriptors, parameters] using indexed.parameters
  case scopes => simpa only [names, descriptors] using indexed.scopes

/-- What a descriptor shows has been there before, or belongs to the one that was appended. -/
theorem shows_push {kind : DescriptorKind} (shows : (state.push descriptor).2.Shows id kind) :
    state.Shows id kind ∨ id = (state.push descriptor).1 ∧ kind = descriptor.kind := by
  obtain ⟨found, isFound, isKind⟩ := shows
  obtain old | ⟨rfl, rfl⟩ := getElem?_push isFound
  · exact .inl ⟨found, old, isKind⟩
  · exact .inr ⟨rfl, isKind.symm⟩

theorem Indexed.scopes_push (indexed : state.Indexed) (declaring : DescriptorId) (pool : NamePool)
    (found : (state.push descriptor).2.names[NameScope.inType declaring]? = some pool) :
    declaring.position < (state.push descriptor).2.descriptors.size :=
  Nat.lt_of_lt_of_le (indexed.scopes declaring pool found) (push_grows descriptor).arena.size_le

/-- A descriptor of something that is declared. -/
theorem Indexed.push (indexed : state.Indexed)
    (notBuiltin : ∀ kind, descriptor.kind ≠ .builtin kind)
    (notParameter : ∀ parameter, descriptor.kind ≠ .parameter parameter) :
    (state.push descriptor).2.Indexed where
  builtins id kind shows := by
    obtain old | ⟨-, isKind⟩ := shows_push shows
    · exact indexed.builtins id kind old
    · exact absurd isKind.symm (notBuiltin kind)
  parameters id parameter shows := by
    obtain old | ⟨-, isKind⟩ := shows_push shows
    · exact indexed.parameters id parameter old
    · exact absurd isKind.symm (notParameter parameter)
  scopes := indexed.scopes_push

/-- A descriptor of a built-in type that had none, which is looked up from now on. -/
theorem Indexed.push_builtin {kind : TypeKind} (indexed : state.Indexed)
    (fresh : state.builtins[kind]? = none) (isKind : descriptor.kind = .builtin kind) :
    { (state.push descriptor).2 with
      builtins := state.builtins.insert kind (state.push descriptor).1 : ResolutionState
    }.Indexed where
  builtins id other shows := by
    rw [getElem?_insert_eq]
    obtain old | ⟨rfl, isOther⟩ := shows_push shows
    · have known := indexed.builtins id other old
      split
      next same =>
        rw [← same, fresh] at known
        exact nomatch known
      next => exact known
    · cases isKind.symm.trans isOther.symm
      rw [if_pos rfl]
  parameters id parameter shows := by
    obtain old | ⟨-, isParameter⟩ := shows_push shows
    · exact indexed.parameters id parameter old
    · exact nomatch isKind.symm.trans isParameter.symm
  scopes := indexed.scopes_push

/-- A descriptor of a parameter that had none, which is looked up from now on. -/
theorem Indexed.push_parameter {parameter : Index .genericParameters} (indexed : state.Indexed)
    (fresh : state.parameters[parameter]? = none) (isKind : descriptor.kind = .parameter parameter) :
    { (state.push descriptor).2 with
      parameters := state.parameters.insert parameter (state.push descriptor).1 : ResolutionState
    }.Indexed where
  builtins id kind shows := by
    obtain old | ⟨-, isBuiltin⟩ := shows_push shows
    · exact indexed.builtins id kind old
    · exact nomatch isKind.symm.trans isBuiltin.symm
  parameters id other shows := by
    rw [getElem?_insert_eq]
    obtain old | ⟨rfl, isOther⟩ := shows_push shows
    · have known := indexed.parameters id other old
      split
      next same =>
        rw [← same, fresh] at known
        exact nomatch known
      next => exact known
    · cases isKind.symm.trans isOther.symm
      rw [if_pos rfl]
  scopes := indexed.scopes_push

/-- Names are given out in a namespace, or in a type that is in the arena. -/
theorem Indexed.request (indexed : state.Indexed) {scope : NameScope} {pool : NamePool}
    (inside : ∀ declaring ∈ scope.declaring?, declaring.position < state.descriptors.size) :
    { state with names := state.names.insert scope pool }.Indexed where
  builtins := indexed.builtins
  parameters := indexed.parameters
  scopes declaring other found := by
    obtain old | ⟨rfl, -⟩ := getElem?_of_insert found
    · exact indexed.scopes declaring other old
    · exact inside declaring rfl

end ResolutionState

namespace Resolve

variable {Result Other : Type} {metadata : Metadata} {state : ResolutionState}

/-- Whatever comes of it, the computation leaves no descriptor behind that cannot be looked up. -/
def Indexes (metadata : Metadata) (computation : Resolve Result) (state : ResolutionState) : Prop :=
  state.Faithful metadata → state.Indexed →
    Ensures computation state (fun _ after ↦ after.Indexed) fun _ after ↦ after.Indexed

namespace Indexes

theorem pure {result : Result} : Indexes metadata (Pure.pure result) state :=
  fun _ indexed ↦ indexed

theorem throw {error : LayoutError} :
    Indexes metadata (MonadExcept.throw error : Resolve Result) state :=
  fun _ indexed ↦ indexed

theorem bind_pure {computation : Resolve Other} {change : Other → Result}
    (indexes : Indexes metadata computation state) :
    Indexes metadata (do return change (← computation)) state :=
  fun faithful indexed ↦ ensures_bind.mpr (indexes faithful indexed)

theorem map {computation : Resolve Other} {change : Other → Result}
    (indexes : Indexes metadata computation state) :
    Indexes metadata (change <$> computation) state :=
  fun faithful indexed ↦ ensures_map.mpr (indexes faithful indexed)

theorem bind_lookup {lookup : Except LayoutError Other} {next : Other → Resolve Result}
    (indexes : ∀ found, lookup = .ok found → Indexes metadata (next found) state) :
    Indexes metadata (liftM lookup >>= next) state := by
  intro faithful indexed
  rw [ensures_bind, ensures_lookup]
  exact ⟨fun found isFound ↦ indexes found isFound faithful indexed, fun _ _ ↦ indexed⟩

theorem bind_get {next : ResolutionState → Resolve Result}
    (indexes : Indexes metadata (next state) state) : Indexes metadata (get >>= next) state :=
  fun faithful indexed ↦ ensures_bind.mpr (ensures_get.mpr (indexes faithful indexed))

theorem bind {first : Resolve Other} {next : Other → Resolve Result}
    {middle : Other → ResolutionState → Prop} (indexes : Indexes metadata first state)
    (kept : Keeps metadata first state middle)
    (nextIndexes : ∀ result after, after.Faithful metadata → middle result after →
      Indexes metadata (next result) after) :
    Indexes metadata (first >>= next) state := by
  intro faithful indexed
  refine ensures_bind.mpr (((kept faithful).and (indexes faithful indexed)).mono ?_ ?_)
  · rintro result after ⟨⟨faithful, -, isMiddle⟩, indexed⟩
    exact nextIndexes result after faithful isMiddle faithful indexed
  · exact fun _ _ ⟨_, indexed⟩ ↦ indexed

theorem mapM {compute : Other → Resolve Result} {holds : Other → Result → ResolutionState → Prop}
    (kept : ∀ source state, Keeps metadata (compute source) state (holds source))
    (indexes : ∀ source state, Indexes metadata (compute source) state) (sources : List Other) :
    Indexes metadata (sources.mapM compute) state := by
  induction sources generalizing state with
  | nil => exact .pure
  | cons source rest ih =>
    rw [List.mapM_cons]
    exact .bind (indexes source state) (kept source state) fun _ _ _ _ ↦ .bind_pure ih

end Indexes

theorem indexes_report (event : Event) : Indexes metadata (report event) state :=
  fun _ indexed ↦ indexed.frame rfl rfl rfl rfl

theorem indexes_builtin (kind : TypeKind) : Indexes metadata (builtin kind) state := by
  refine .bind_get ?_
  split
  next => exact .pure
  next fresh => exact fun _ indexed ↦ indexed.push_builtin fresh rfl

theorem indexes_parameter (index : Index .genericParameters) :
    Indexes metadata (parameter metadata index) state := by
  refine .bind_get ?_
  split
  next => exact .pure
  next fresh => exact .bind_lookup fun record _ _ indexed ↦ indexed.push_parameter fresh rfl

theorem indexes_uniqueName {scope : NameScope} (name : String)
    (inside : ∀ declaring ∈ scope.declaring?, declaring.position < state.descriptors.size) :
    Indexes metadata (uniqueName scope name) state :=
  fun _ indexed ↦ indexed.request inside

/-- A descriptor of something that is declared. -/
theorem indexes_push {descriptor : Descriptor}
    (notBuiltin : ∀ kind, descriptor.kind ≠ .builtin kind)
    (notParameter : ∀ parameter, descriptor.kind ≠ .parameter parameter) :
    Indexes metadata (push descriptor) state :=
  fun _ indexed ↦ indexed.push notBuiltin notParameter

theorem indexes_usageOnce {key : UsageKey} {compute : Resolve Usage}
    (fresh : state.usages[key]? = none) (indexes : ∀ state, Indexes metadata compute state) :
    Indexes metadata (usageOnce key compute) state := by
  intro faithful indexed
  simp only [usageOnce, ensures_bind, ensures_modify, ensures_tryCatch, ensures_throw, ensures_pure]
  obtain ⟨begun, -⟩ := faithful.begin_usage fresh
  refine (indexes _ begun (indexed.frame rfl rfl rfl rfl)).mono ?_ ?_
  · exact fun _ _ indexed ↦ indexed.frame rfl rfl rfl rfl
  · exact fun _ _ indexed ↦ indexed.frame rfl rfl rfl rfl

theorem indexes_definitionOnce {definition : Index .typeDefinitions}
    {compute : Resolve DescriptorId} (fresh : state.definitions[definition]? = none)
    (indexes : ∀ state, Indexes metadata compute state) :
    Indexes metadata (definitionOnce definition compute) state := by
  intro faithful indexed
  simp only [definitionOnce, ensures_bind, ensures_modify, ensures_tryCatch, ensures_throw,
    ensures_pure]
  obtain ⟨begun, -⟩ := faithful.begin_definition fresh
  refine (indexes _ begun (indexed.frame rfl rfl rfl rfl)).mono ?_ ?_
  · exact fun _ _ indexed ↦ indexed.frame rfl rfl rfl rfl
  · exact fun _ _ indexed ↦ indexed.frame rfl rfl rfl rfl

end Resolve

namespace Linkage

open Resolve

variable {linkage : Linkage} {resolveParts : ResolveParts} {state after : ResolutionState}

/-- The recursive call: it leaves no descriptor behind that cannot be looked up. -/
def IndexesParts (metadata : Metadata) (resolveParts : ResolveParts) : Prop :=
  ∀ type context mode state, Indexes metadata (resolveParts type context mode) state

theorem indexes_declaringDescriptor? (indexes : IndexesParts linkage.metadata resolveParts)
    (record : TypeDefinition) :
    Indexes linkage.metadata (record.declaringDescriptor? resolveParts) state := by
  unfold TypeDefinition.declaringDescriptor?
  cases record.declaringType.present? with
  | none => exact .pure
  | some declaring => exact .map (.bind_pure (indexes declaring .empty .name state))

/-- The declaring type that the name is unique in has been resolved just before. -/
theorem indexes_buildDefinition (indexes : IndexesParts linkage.metadata resolveParts)
    (remembers : Remembers linkage.metadata resolveParts) (definition : Index .typeDefinitions) :
    Indexes linkage.metadata (linkage.buildDefinition resolveParts definition) state := by
  refine .bind_lookup fun record _ ↦ ?_
  refine .bind (indexes_declaringDescriptor? indexes record)
    (keeps_declaringDescriptor? remembers record) fun declaringType? middle faithful known ↦ ?_
  refine .bind (indexes_uniqueName _ ?_) (keeps_uniqueName _ _) fun name last _ _ ↦ ?_
  · cases declaringType? with
    | none => exact nofun
    | some declaring =>
      rintro _ ⟨⟩
      obtain ⟨type, -, usage, done, rfl⟩ := optionRel_exists_left known
      exact (faithful.usages _ usage done).stored
  · exact .bind_lookup fun parameterNames _ ↦ indexes_push nofun nofun

theorem indexes_describeWith (indexes : IndexesParts linkage.metadata resolveParts)
    (remembers : Remembers linkage.metadata resolveParts) (definition : Index .typeDefinitions) :
    Indexes linkage.metadata (linkage.describeWith resolveParts definition) state := by
  refine .bind_get ?_
  split
  next => exact .pure
  next => exact .throw
  next fresh =>
    exact indexes_definitionOnce fresh fun _ ↦ indexes_buildDefinition indexes remembers definition

theorem indexes_buildInstantiation (indexes : IndexesParts linkage.metadata resolveParts)
    (remembers : Remembers linkage.metadata resolveParts) (genericClass : Index .genericClasses)
    (definition : Index .typeDefinitions) (context : GenericContext) :
    Indexes linkage.metadata
      (linkage.buildInstantiation resolveParts genericClass definition context) state := by
  refine .bind (indexes_describeWith indexes remembers definition)
    (keeps_describeWith remembers definition) fun openId middle _ _ ↦ ?_
  refine .bind_lookup fun arguments _ ↦ ?_
  refine .bind (.mapM (fun argument state ↦ remembers argument context .name state)
    (fun argument state ↦ indexes argument context .name state) arguments)
    (keeps_arguments remembers arguments context) fun typeArguments last _ _ ↦ ?_
  exact .bind_get (indexes_push nofun nofun)

theorem indexes_follow (indexes : IndexesParts linkage.metadata resolveParts)
    (remembers : Remembers linkage.metadata resolveParts) (recipe : Recipe) :
    Indexes linkage.metadata (linkage.follow resolveParts recipe) state := by
  cases recipe with
  | builtin kind => exact .bind_pure (indexes_builtin kind)
  | parameter parameter => exact .bind_pure (indexes_parameter parameter)
  | replaced part => exact indexes part.type part.context part.mode state
  | pointer part | array _ part => exact .bind_pure (indexes part.type part.context part.mode state)
  | definition definition => exact .bind_pure (indexes_describeWith indexes remembers definition)
  | undefined genericClass =>
    exact .bind (indexes_report _) (keeps_report _) fun _ _ _ _ ↦
      .bind_pure (indexes_builtin .object)
  | instantiation genericClass definition context =>
    exact .bind_pure (indexes_buildInstantiation indexes remembers genericClass definition context)

theorem indexes_resolveWithin (room : Nat) :
    IndexesParts linkage.metadata (linkage.resolveWithin room) := by
  induction room with
  | zero =>
    intro type context mode state
    unfold resolveWithin
    refine .bind_lookup fun reference _ ↦ .bind_get ?_
    split
    next => exact .pure
    next => exact .throw
    next => exact .throw
  | succ room ih =>
    intro type context mode state
    unfold resolveWithin
    refine .bind_lookup fun reference isReference ↦ .bind_get ?_
    split
    next => exact .pure
    next => exact .throw
    next fresh =>
      refine indexes_usageOnce fresh fun middle ↦ ?_
      rw [expand_eq ⟨type, _, mode⟩ isReference]
      exact .bind_lookup fun recipe _ ↦ indexes_follow ih (remembers_resolveWithin room) recipe

theorem indexes_answer (call : Call) : Indexes linkage.metadata (linkage.answer call) state := by
  have indexes : IndexesParts linkage.metadata linkage.resolve := indexes_resolveWithin maxNesting
  cases call with
  | resolve type context mode => exact indexes type context mode state
  | describe definition => exact indexes_describeWith indexes remembers_resolve definition
  | definitionUsage definition mode =>
    refine .bind_lookup fun type? _ ↦ ?_
    cases type? with
    | none => exact .bind_pure (indexes_describeWith indexes remembers_resolve definition)
    | some type =>
      refine .bind_lookup fun reference _ ↦ ?_
      split
      · exact .bind_pure (indexes_describeWith indexes remembers_resolve definition)
      · exact indexes type .empty mode state
  | instantiationText index =>
    refine .bind_lookup fun instantiation _ ↦ .bind_pure ?_
    refine .mapM (fun argument _ ↦ keeps_argumentText remembers_resolve argument)
      (fun argument state ↦ ?_) _
    exact .bind (indexes argument .empty .name state) (remembers_resolve argument .empty .name state)
      fun _ _ _ _ ↦ .bind_get .pure

/-- Every call keeps the descriptors that cannot be looked up from coming into being. -/
theorem stateAfter_indexed (faithful : state.Faithful linkage.metadata) (indexed : state.Indexed)
    (call : Call) : (linkage.stateAfter state call).Indexed := by
  rw [stateAfter_eq]
  have ensured := indexes_answer call faithful indexed
  unfold Ensures at ensured
  split at ensured
  next found => exact found ▸ ensured
  next found => exact found ▸ ensured

theorem Reachable.indexed (reachable : linkage.Reachable state) : state.Indexed := by
  induction reachable with
  | fresh => exact ResolutionState.indexed_empty
  | call reachable call ih => exact stateAfter_indexed reachable.faithful ih call

end Linkage

namespace ResolutionState

/-- There is a descriptor at this place of the arena. -/
def Stores (state : ResolutionState) (id : DescriptorId) : Prop :=
  id.position < state.descriptors.size

/-- Places of descriptors are in the arena, and descriptors refer to places before their own. What
has one descriptor at most is looked up under it. -/
structure WellFormed (state : ResolutionState) : Prop where
  usages : ∀ (key : UsageKey) usage, state.usages[key]? = some (.done usage) →
    state.Stores usage.descriptor
  scopes : ∀ (declaring : DescriptorId) pool, state.names[NameScope.inType declaring]? = some pool →
    state.Stores declaring
  declaringTypes : ∀ (id : DescriptorId) descriptor,
    state.descriptors[id.position]? = some descriptor →
      ∀ declaring ∈ descriptor.declaringType?, declaring.position < id.position
  typeArguments : ∀ (id : DescriptorId) descriptor,
    state.descriptors[id.position]? = some descriptor →
      ∀ argument ∈ descriptor.typeArguments, argument.descriptor.position < id.position
  builtins : ∀ (id : DescriptorId) kind,
    state.Shows id (.builtin kind) ↔ state.builtins[kind]? = some id
  parameters : ∀ (id : DescriptorId) parameter,
    state.Shows id (.parameter parameter) ↔ state.parameters[parameter]? = some id
  definitions : ∀ (id : DescriptorId) definition,
    state.Shows id (.definition definition) ↔ state.definitions[definition]? = some (.done id)

variable {state : ResolutionState} {metadata : Metadata}

/-- What a descriptor refers to comes before it. -/
theorem Faithful.earlier (faithful : state.Faithful metadata) {id : DescriptorId}
    {descriptor : Descriptor} (found : state.descriptors[id.position]? = some descriptor) :
    (∀ declaring ∈ descriptor.declaringType?, declaring.position < id.position) ∧
      ∀ argument ∈ descriptor.typeArguments, argument.descriptor.position < id.position := by
  have describes := faithful.descriptors id descriptor found
  cases isKind : descriptor.kind with
  | builtin kind =>
    simp only [Describes, isKind] at describes
    obtain ⟨_, _, rfl⟩ := describes
    simp [Descriptor.named]
  | parameter parameter =>
    simp only [Describes, isKind] at describes
    obtain ⟨_, _, rfl⟩ := describes
    simp [Descriptor.named]
  | definition definition =>
    simp only [Describes, isKind] at describes
    obtain ⟨_, _, _, fits⟩ := describes
    refine ⟨fits.declaring_earlier, ?_⟩
    simp [fits.typeArguments]
  | instantiation genericClass definition =>
    obtain ⟨openId, openDescriptor, record, declared⟩ :=
      faithful.declaredBy_instantiation found isKind
    exact ⟨declared.declaring_earlier, faithful.arguments_earlier found isKind⟩

/-- A definition that has a descriptor is done, with this descriptor. -/
theorem Faithful.done_of_shows (faithful : state.Faithful metadata) {id : DescriptorId}
    {definition : Index .typeDefinitions} (shows : state.Shows id (.definition definition)) :
    state.definitions[definition]? = some (.done id) := by
  obtain ⟨descriptor, found, isKind⟩ := shows
  have describes := faithful.descriptors id descriptor found
  simp only [Describes, isKind] at describes
  exact describes.1

theorem Faithful.wellFormed (faithful : state.Faithful metadata) (indexed : state.Indexed) :
    state.WellFormed where
  usages key usage done := (faithful.usages key usage done).stored
  scopes := indexed.scopes
  declaringTypes _ _ found := (faithful.earlier found).1
  typeArguments _ _ found := (faithful.earlier found).2
  builtins id kind := ⟨indexed.builtins id kind, faithful.builtins kind id⟩
  parameters id parameter := ⟨indexed.parameters id parameter, faithful.parameters parameter id⟩
  definitions id definition := ⟨faithful.done_of_shows, faithful.definitions definition id⟩

end ResolutionState

end ManagedLayout
