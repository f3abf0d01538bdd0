import ManagedLayout.Proofs.Resolution.Memory
import ManagedLayout.Proofs.Resolution.Outcome

/-!
# Steps of a resolution

Every step of a resolution keeps the state faithful, whether it succeeds or fails, and its result is
in the memory of the state that it ends in. There is one lemma for each step, with the recursive
call as a parameter, and one rule for each way of putting steps together.
-/

namespace ManagedLayout

namespace Resolve

variable {Result Other : Type} {metadata : Metadata} {state : ResolutionState}

/-- From a faithful state the computation ends in a faithful one that remembers more. If it has a
result, then one as `done` says. -/
def Keeps (metadata : Metadata) (computation : Resolve Result) (state : ResolutionState)
    (done : Result → ResolutionState → Prop) : Prop :=
  state.Faithful metadata →
    Ensures computation state
      (fun result after ↦ after.Faithful metadata ∧ state.Grows after ∧ done result after)
      (fun _ after ↦ after.Faithful metadata ∧ state.Grows after)

namespace Keeps

variable {done weaker : Result → ResolutionState → Prop}

/-- The state that a computation starts in may be taken to be faithful. -/
theorem of_faithful {computation : Resolve Result}
    (kept : state.Faithful metadata → Keeps metadata computation state done) :
    Keeps metadata computation state done :=
  fun faithful ↦ kept faithful faithful

theorem pure {result : Result} (holds : done result state) :
    Keeps metadata (Pure.pure result) state done :=
  fun faithful ↦ ⟨faithful, .refl, holds⟩

theorem throw {error : LayoutError} :
    Keeps metadata (MonadExcept.throw error : Resolve Result) state done :=
  fun faithful ↦ ⟨faithful, .refl⟩

/-- How a computation goes on after one that keeps the state faithful. -/
theorem ensures_bind {first : Resolve Other} {next : Other → Resolve Result}
    {middle : Other → ResolutionState → Prop} {failed : LayoutError → ResolutionState → Prop}
    (kept : Keeps metadata first state middle) (faithful : state.Faithful metadata)
    (failing : ∀ error after, after.Faithful metadata → state.Grows after → failed error after)
    (nextEnsured : ∀ result after, after.Faithful metadata → state.Grows after →
      middle result after → Ensures (next result) after done failed) :
    Ensures (first >>= next) state done failed := by
  rw [Resolve.ensures_bind]
  exact (kept faithful).mono
    (fun result after ⟨faithful, grows, holds⟩ ↦ nextEnsured result after faithful grows holds)
    fun error after ⟨faithful, grows⟩ ↦ failing error after faithful grows

theorem bind {first : Resolve Other} {next : Other → Resolve Result}
    {middle : Other → ResolutionState → Prop} (kept : Keeps metadata first state middle)
    (nextKept : ∀ result after, after.Faithful metadata → state.Grows after →
      middle result after → Keeps metadata (next result) after done) :
    Keeps metadata (first >>= next) state done := by
  intro faithful
  refine kept.ensures_bind faithful (fun _ _ faithful grows ↦ ⟨faithful, grows⟩)
    fun result after faithful grows holds ↦ ?_
  refine (nextKept result after faithful grows holds faithful).mono ?_ ?_
  · exact fun _ _ ⟨faithful, growsMore, holds⟩ ↦ ⟨faithful, grows.trans growsMore, holds⟩
  · exact fun _ _ ⟨faithful, growsMore⟩ ↦ ⟨faithful, grows.trans growsMore⟩

theorem bind_lookup {lookup : Except LayoutError Other} {next : Other → Resolve Result}
    (nextKept : ∀ found, lookup = .ok found → Keeps metadata (next found) state done) :
    Keeps metadata (liftM lookup >>= next) state done := by
  intro faithful
  rw [Resolve.ensures_bind, ensures_lookup]
  exact ⟨fun found isFound ↦ nextKept found isFound faithful, fun _ _ ↦ ⟨faithful, .refl⟩⟩

theorem bind_get {next : ResolutionState → Resolve Result}
    (nextKept : Keeps metadata (next state) state done) :
    Keeps metadata (get >>= next) state done :=
  fun faithful ↦ Resolve.ensures_bind.mpr (ensures_get.mpr (nextKept faithful))

theorem mono {computation : Resolve Result} (kept : Keeps metadata computation state done)
    (implies : ∀ result after, after.Faithful metadata → state.Grows after → done result after →
      weaker result after) :
    Keeps metadata computation state weaker :=
  fun faithful ↦ (kept faithful).mono
    (fun result after ⟨faithful, grows, holds⟩ ↦
      ⟨faithful, grows, implies result after faithful grows holds⟩)
    fun _ _ kept ↦ kept

theorem map {computation : Resolve Other} {change : Other → Result}
    (kept : Keeps metadata computation state fun result after ↦ done (change result) after) :
    Keeps metadata (change <$> computation) state done :=
  fun faithful ↦ ensures_map.mpr (kept faithful)

theorem after {computation : Resolve Result} (kept : Keeps metadata computation state done)
    (faithful : state.Faithful metadata) :
    (computation.run.run state).2.Faithful metadata ∧ state.Grows (computation.run.run state).2 := by
  have ensured := kept faithful
  unfold Ensures at ensured
  split at ensured
  next found => exact found ▸ ⟨ensured.1, ensured.2.1⟩
  next found => exact found ▸ ensured

/-- A list is gone through in order, and what holds of a result goes on to hold. Each step starts from
a state that the first one has grown into. -/
theorem mapM_of_grows {compute : Other → Resolve Result}
    (holds : Other → Result → ResolutionState → Prop)
    (lasting : ∀ source result before after, before.Faithful metadata → before.Grows after →
      holds source result before → holds source result after)
    (sources : List Other) (state : ResolutionState)
    (kept : ∀ source ∈ sources, ∀ after, state.Grows after →
      Keeps metadata (compute source) after (holds source)) :
    Keeps metadata (sources.mapM compute) state
      (fun results after ↦
        List.Forall₂ (fun source result ↦ holds source result after) sources results) := by
  induction sources generalizing state with
  | nil => exact .pure .nil
  | cons source rest ih =>
    rw [List.mapM_cons]
    refine .bind (kept source (by simp) state .refl) fun result middle faithful grows holdsResult ↦ ?_
    have restKept := ih middle fun other mem after growsMore ↦
      kept other (by simp [mem]) after (grows.trans growsMore)
    refine .bind restKept fun results after _ grows holdsResults ↦ .pure ?_
    exact .cons (lasting source result middle after faithful grows holdsResult) holdsResults

theorem mapM {compute : Other → Resolve Result} (holds : Other → Result → ResolutionState → Prop)
    (lasting : ∀ source result before after, before.Faithful metadata → before.Grows after →
      holds source result before → holds source result after)
    (kept : ∀ source state, Keeps metadata (compute source) state (holds source))
    (sources : List Other) (state : ResolutionState) :
    Keeps metadata (sources.mapM compute) state
      (fun results after ↦
        List.Forall₂ (fun source result ↦ holds source result after) sources results) :=
  mapM_of_grows holds lasting sources state fun source _ after _ ↦ kept source after

theorem mapM_trivial {compute : Other → Resolve Result}
    (kept : ∀ source state, Keeps metadata (compute source) state fun _ _ ↦ True)
    (sources : List Other) (state : ResolutionState) :
    Keeps metadata (sources.mapM compute) state fun _ _ ↦ True :=
  (mapM (fun _ _ _ ↦ True) (fun _ _ _ _ _ _ _ ↦ trivial) kept sources state).mono
    fun _ _ _ _ _ ↦ trivial

theorem filterMapM_trivial {compute : Other → Resolve (Option Result)}
    (kept : ∀ source state, Keeps metadata (compute source) state fun _ _ ↦ True)
    (sources : List Other) (state : ResolutionState) :
    Keeps metadata (sources.filterMapM compute) state fun _ _ ↦ True := by
  induction sources generalizing state with
  | nil => exact .pure trivial
  | cons source rest ih =>
    rw [List.filterMapM_cons]
    apply Keeps.bind (kept source state)
    intro result? middle _ _ _
    cases result? with
    | none => exact ih middle
    | some result =>
      apply Keeps.map
      exact ih middle

/-- A loop over a list keeps an invariant of what it has gone through. -/
theorem foldlM {Source Accumulator : Type} {step : Accumulator → Source → Resolve Accumulator}
    {sources : List Source} (holds : List Source → Accumulator → ResolutionState → Prop)
    (kept : ∀ before source rest, sources = before ++ source :: rest →
      ∀ accumulator state, holds before accumulator state →
        Keeps metadata (step accumulator source) state (holds (before ++ [source])))
    (initial : Accumulator) (start : holds [] initial state) :
    Keeps metadata (sources.foldlM step initial) state (holds sources) := by
  have from_prefix (before rest : List Source) (whole : sources = before ++ rest) :
      ∀ accumulator state, holds before accumulator state →
        Keeps metadata (rest.foldlM step accumulator) state (holds sources) := by
    induction rest generalizing before with
    | nil =>
      intro accumulator state invariant
      rw [List.append_nil] at whole
      exact .pure (whole ▸ invariant)
    | cons source rest ih =>
      intro accumulator state invariant
      rw [List.foldlM_cons]
      apply Keeps.bind (kept before source rest whole accumulator state invariant)
      intro result middle _ _ invariant
      exact ih (before ++ [source]) (by simp [whole]) result middle invariant
  exact from_prefix [] sources rfl initial state start

end Keeps

end Resolve

namespace ResolutionState

variable {before after state : ResolutionState} {metadata : Metadata}

/-- What is neither in the arena nor in the memory does not matter. -/
theorem Faithful.frame (faithful : before.Faithful metadata)
    (descriptors : after.descriptors = before.descriptors) (usages : after.usages = before.usages)
    (definitions : after.definitions = before.definitions)
    (parameters : after.parameters = before.parameters)
    (builtins : after.builtins = before.builtins) :
    after.Faithful metadata ∧ before.Grows after := by
  have grows : before.Grows after := by
    constructor
    · constructor
      · simp [ArenaGrows, descriptors]
      · simp [usages]
      · simp [definitions]
    · simp [usages]
    · simp [definitions]
  refine ⟨faithful.extend grows.toExtends ?_ ?_ ?_ ?_ ?_, grows⟩
  · simp +contextual [descriptors]
  · simp +contextual [usages]
  · simp +contextual [definitions]
  · simp +contextual [parameters]
  · simp +contextual [builtins]

theorem push_grows (descriptor : Descriptor) : state.Grows (state.push descriptor).2 where
  arena := ArenaGrows.push descriptor
  usages _ _ done := done
  definitions _ _ done := done
  usagesUnderway _ := .rfl
  definitionsUnderway _ := .rfl

theorem getElem?_push {descriptor found : Descriptor} {id : DescriptorId}
    (isFound : (state.push descriptor).2.descriptors[id.position]? = some found) :
    state.descriptors[id.position]? = some found ∨
      id = (state.push descriptor).1 ∧ found = descriptor := by
  simp only [push, Array.getElem?_push] at isFound ⊢
  split at isFound
  next last =>
    obtain rfl := Option.some.inj isFound
    exact .inr ⟨congrArg DescriptorId.mk last, rfl⟩
  next => exact .inl isFound

theorem push_shows (descriptor : Descriptor) :
    (state.push descriptor).2.Shows (state.push descriptor).1 descriptor.kind :=
  ⟨descriptor, by simp [push], rfl⟩

theorem Faithful.push {descriptor : Descriptor} (faithful : state.Faithful metadata)
    (describes : (state.push descriptor).2.Describes metadata (state.push descriptor).1 descriptor) :
    (state.push descriptor).2.Faithful metadata := by
  refine faithful.extend (push_grows descriptor).toExtends (fun id found isFound ↦ ?_)
    (fun _ _ done ↦ .inl done) (fun _ _ done ↦ .inl done) (fun _ _ done ↦ .inl done)
    (fun _ _ done ↦ .inl done)
  obtain old | ⟨rfl, rfl⟩ := getElem?_push isFound
  · exact .inl old
  · exact .inr describes

theorem Faithful.insert_builtin {kind : TypeKind} {id : DescriptorId}
    (faithful : state.Faithful metadata) (shows : state.Shows id (.builtin kind)) :
    { state with builtins := state.builtins.insert kind id }.Faithful metadata ∧
      state.Grows { state with builtins := state.builtins.insert kind id } := by
  refine ⟨faithful.extend ⟨.refl, fun _ _ done ↦ done, fun _ _ done ↦ done⟩
    (fun _ _ found ↦ .inl found) (fun _ _ done ↦ .inl done) (fun _ _ done ↦ .inl done)
    (fun _ _ found ↦ .inl found) fun other found isFound ↦ ?_,
    ⟨.refl, fun _ _ done ↦ done, fun _ _ done ↦ done⟩, fun _ ↦ .rfl, fun _ ↦ .rfl⟩
  obtain old | ⟨rfl, rfl⟩ := getElem?_of_insert isFound
  · exact .inl old
  · exact .inr shows

theorem Faithful.insert_parameter {parameter : Index .genericParameters} {id : DescriptorId}
    (faithful : state.Faithful metadata) (shows : state.Shows id (.parameter parameter)) :
    { state with parameters := state.parameters.insert parameter id }.Faithful metadata ∧
      state.Grows { state with parameters := state.parameters.insert parameter id } := by
  refine ⟨faithful.extend ⟨.refl, fun _ _ done ↦ done, fun _ _ done ↦ done⟩
    (fun _ _ found ↦ .inl found) (fun _ _ done ↦ .inl done) (fun _ _ done ↦ .inl done)
    (fun other found isFound ↦ ?_) fun _ _ found ↦ .inl found,
    ⟨.refl, fun _ _ done ↦ done, fun _ _ done ↦ done⟩, fun _ ↦ .rfl, fun _ ↦ .rfl⟩
  obtain old | ⟨rfl, rfl⟩ := getElem?_of_insert isFound
  · exact .inl old
  · exact .inr shows

/-- Whatever is found out about a usage that is not done, the rest stays faithful. -/
theorem Faithful.change_usage (faithful : state.Faithful metadata) (key : UsageKey)
    (usages : Std.TreeMap UsageKey (Progress Usage)) (count : Nat)
    (unfinished : ∀ usage, state.usages[key]? ≠ some (.done usage))
    (others : ∀ other, key ≠ other → usages[other]? = state.usages[other]?)
    (known : ∀ usage, usages[key]? = some (.done usage) → state.Known metadata key usage) :
    { state with usages, resolvedCount := count }.Faithful metadata ∧
      state.Extends { state with usages, resolvedCount := count } := by
  have extend : state.Extends { state with usages, resolvedCount := count } := by
    refine ⟨.refl, fun other usage done ↦ ?_, fun _ _ done ↦ done⟩
    have different : key ≠ other := by
      rintro rfl
      exact unfinished usage done
    exact (others other different).trans done
  refine ⟨faithful.extend extend (fun _ _ found ↦ .inl found) (fun other usage done ↦ ?_)
    (fun _ _ done ↦ .inl done) (fun _ _ found ↦ .inl found) fun _ _ found ↦ .inl found, extend⟩
  by_cases same : key = other
  · subst same
    exact .inr ((known usage done).mono extend)
  · exact .inl ((others other same).symm.trans done)

theorem Faithful.begin_usage {key : UsageKey} {count : Nat} (faithful : state.Faithful metadata)
    (fresh : state.usages[key]? = none) :
    { state with
        usages := state.usages.insert key .underway, resolvedCount := count }.Faithful metadata ∧
      state.Extends
        { state with usages := state.usages.insert key .underway, resolvedCount := count } :=
  faithful.change_usage key _ count (by simp [fresh]) (by simp +contextual [getElem?_insert_eq])
    (by simp)

/-- A definition that is not done may be begun, or abandoned. -/
theorem Faithful.change_definition (faithful : state.Faithful metadata)
    (definition : Index .typeDefinitions)
    (definitions : Std.TreeMap (Index .typeDefinitions) (Progress DescriptorId))
    (unfinished : ∀ id, state.definitions[definition]? ≠ some (.done id))
    (others : ∀ other, definition ≠ other → definitions[other]? = state.definitions[other]?)
    (undone : ∀ id, definitions[definition]? ≠ some (.done id)) :
    { state with definitions }.Faithful metadata ∧ state.Extends { state with definitions } := by
  have extend : state.Extends { state with definitions } := by
    refine ⟨.refl, fun _ _ done ↦ done, fun other id done ↦ ?_⟩
    have different : definition ≠ other := by
      rintro rfl
      exact unfinished id done
    exact (others other different).trans done
  refine ⟨faithful.extend extend (fun _ _ found ↦ .inl found) (fun _ _ done ↦ .inl done)
    (fun other id done ↦ ?_) (fun _ _ found ↦ .inl found) fun _ _ found ↦ .inl found, extend⟩
  by_cases same : definition = other
  · subst same
    exact absurd done (undone id)
  · exact .inl ((others other same).symm.trans done)

theorem Faithful.begin_definition {definition : Index .typeDefinitions}
    (faithful : state.Faithful metadata) (fresh : state.definitions[definition]? = none) :
    { state with
        definitions := state.definitions.insert definition .underway }.Faithful metadata ∧
      state.Extends { state with definitions := state.definitions.insert definition .underway } :=
  faithful.change_definition definition _ (by simp [fresh])
    (by simp +contextual [getElem?_insert_eq]) (by simp)

/-- A definition is done once its descriptor is in the arena. -/
theorem Faithful.push_definition {definition : Index .typeDefinitions} {record : TypeDefinition}
    {descriptor : Descriptor} (faithful : state.Faithful metadata)
    (underway : state.definitions[definition]? = some .underway)
    (isDefinition : descriptor.kind = .definition definition)
    (isRecord : metadata.typeDefinition definition = .ok record)
    (fits : state.MatchesRecord metadata (state.push descriptor).1 record descriptor) :
    { (state.push descriptor).2 with
        definitions := state.definitions.insert definition
          (.done (state.push descriptor).1) }.Faithful metadata ∧
      state.Extends { (state.push descriptor).2 with
        definitions := state.definitions.insert definition (.done (state.push descriptor).1) } := by
  have extend : state.Extends { (state.push descriptor).2 with
      definitions := state.definitions.insert definition (.done (state.push descriptor).1) } := by
    refine ⟨ArenaGrows.push descriptor, fun _ _ done ↦ done, fun other id done ↦ ?_⟩
    rw [getElem?_insert_eq, if_neg]
    · exact done
    · rintro rfl
      simp [underway] at done
  refine ⟨faithful.extend extend (fun id found isFound ↦ ?_) (fun _ _ done ↦ .inl done)
    (fun other id done ↦ ?_) (fun _ _ found ↦ .inl found) fun _ _ found ↦ .inl found, extend⟩
  · obtain old | ⟨rfl, rfl⟩ := getElem?_push isFound
    · exact .inl old
    · refine .inr ?_
      simp only [Describes, isDefinition]
      exact ⟨Std.TreeMap.getElem?_insert_self, record, isRecord, fits.mono extend⟩
  · obtain old | ⟨rfl, same⟩ := getElem?_of_insert done
    · exact .inl old
    · obtain rfl := Progress.done.inj same
      exact .inr ⟨descriptor, by simp [ResolutionState.push], isDefinition⟩

end ResolutionState

namespace Resolve

variable {metadata : Metadata} {state : ResolutionState}

theorem keeps_modify {change : ResolutionState → ResolutionState}
    (kept : state.Faithful metadata →
      (change state).Faithful metadata ∧ state.Grows (change state)) :
    Keeps metadata (modify change) state fun _ _ ↦ True := by
  intro faithful
  obtain ⟨faithful, grows⟩ := kept faithful
  exact ⟨faithful, grows, trivial⟩

theorem keeps_report (event : Event) : Keeps metadata (report event) state fun _ _ ↦ True :=
  keeps_modify fun faithful ↦ faithful.frame rfl rfl rfl rfl rfl

theorem keeps_uniqueName (scope : NameScope) (name : String) :
    Keeps metadata (uniqueName scope name) state
      fun unique _ ↦ unique = name ∨ ∃ suffix, unique = NamePool.suffixed name suffix := by
  intro faithful
  simp only [uniqueName, ensures_modifyGet]
  exact And.imp_right (⟨·, NamePool.request_eq_or_suffixed⟩) (faithful.frame rfl rfl rfl rfl rfl)

theorem keeps_push {descriptor : Descriptor}
    (describes : (state.push descriptor).2.Describes metadata (state.push descriptor).1 descriptor) :
    Keeps metadata (push descriptor) state
      fun id after ↦ (id, after) = state.push descriptor ∧ after.Shows id descriptor.kind :=
  fun faithful ↦ ensures_modifyGet.mpr
    ⟨faithful.push describes, ResolutionState.push_grows descriptor, rfl,
      ResolutionState.push_shows descriptor⟩

theorem keeps_builtin {kind : TypeKind} (isBuiltin : kind.isBuiltin) :
    Keeps metadata (builtin kind) state fun id after ↦ after.Shows id (.builtin kind) := by
  refine Keeps.bind_get ?_
  split
  next id found => exact fun faithful ↦ ⟨faithful, .refl, faithful.builtins kind id found⟩
  next =>
    obtain ⟨spelling, isSpelling⟩ := Option.isSome_iff_exists.mp isBuiltin
    refine .bind (keeps_push ⟨spelling, isSpelling, by simp [isSpelling]⟩) ?_
    rintro id after - - ⟨-, shows⟩
    refine .bind (keeps_modify fun faithful ↦ faithful.insert_builtin shows) fun _ _ _ grows _ ↦ ?_
    exact .pure (shows.mono grows.arena)

theorem keeps_parameter (index : Index .genericParameters) :
    Keeps metadata (parameter metadata index) state
      fun id after ↦ after.Shows id (.parameter index) ∧
        ∃ record, metadata.genericParameter index = .ok record := by
  refine Keeps.bind_get ?_
  split
  next id found =>
    intro faithful
    have shows := faithful.parameters index id found
    obtain ⟨descriptor, stored, isParameter⟩ := shows
    have describes := faithful.descriptors id descriptor stored
    simp only [ResolutionState.Describes, isParameter] at describes
    obtain ⟨record, isRecord, -⟩ := describes
    exact ⟨faithful, .refl, ⟨descriptor, stored, isParameter⟩, record, isRecord⟩
  next =>
    refine .bind_lookup fun record isRecord ↦ ?_
    refine .bind (keeps_push ⟨record, isRecord, rfl⟩) ?_
    rintro id after - - ⟨-, shows⟩
    refine .bind (keeps_modify fun faithful ↦ faithful.insert_parameter shows) fun _ _ _ grows _ ↦ ?_
    exact .pure ⟨shows.mono grows.arena, record, isRecord⟩

/-- Work on a usage that ends with the tree of its layer makes the usage known. -/
theorem keeps_usageOnce {key : UsageKey} {compute : Resolve Usage}
    (fresh : state.usages[key]? = none)
    (kept : ∀ middle, Keeps metadata compute middle fun usage after ↦
      usage.descriptor.position < after.descriptors.size ∧ ∃ layer, metadata.layer key = .ok layer ∧
        layer.tree (after.remembered metadata) = .ok (after.usageTree usage)) :
    Keeps metadata (usageOnce key compute) state
      fun usage after ↦ after.usages[key]? = some (.done usage) := by
  intro faithful
  simp only [usageOnce, ensures_bind, ensures_modify, ensures_tryCatch, ensures_throw, ensures_pure]
  obtain ⟨faithful, begun⟩ := faithful.begin_usage fresh
  refine (kept _ faithful).mono ?_ ?_
  · rintro usage after ⟨faithful, grows, stored, layer, isLayer, assembled⟩
    have underway := (grows.usagesUnderway key).mpr (by simp)
    have known := faithful.known_of_layer stored isLayer assembled
    obtain ⟨faithful, finished⟩ :=
      faithful.change_usage key (after.usages.insert key (.done usage)) after.resolvedCount
        (by simp [underway]) (by simp +contextual [getElem?_insert_eq])
        (by simpa using known)
    refine ⟨faithful, ⟨(begun.trans grows.toExtends).trans finished, fun other ↦ ?_, ?_⟩, ?_⟩
    · have same := grows.usagesUnderway other
      rw [getElem?_insert_eq] at same ⊢
      grind
    · exact grows.definitionsUnderway
    · simp
  · rintro _ after ⟨faithful, grows⟩
    have underway := (grows.usagesUnderway key).mpr (by simp)
    obtain ⟨faithful, abandoned⟩ :=
      faithful.change_usage key (after.usages.erase key) after.resolvedCount
        (by simp [underway]) (by simp +contextual [getElem?_erase_eq]) (by simp)
    refine ⟨faithful, (begun.trans grows.toExtends).trans abandoned, fun other ↦ ?_,
      grows.definitionsUnderway⟩
    have same := grows.usagesUnderway other
    rw [getElem?_insert_eq] at same
    rw [getElem?_erase_eq]
    grind

/-- The computation appends the descriptor of a definition to the arena, as the last thing that it
does. -/
def Describes (metadata : Metadata) (definition : Index .typeDefinitions)
    (compute : Resolve DescriptorId) : Prop :=
  ∀ state : ResolutionState, state.Faithful metadata → Ensures compute state
    (fun id after ↦ ∃ last descriptor record, last.Faithful metadata ∧ state.Grows last ∧
      last.push descriptor = (id, after) ∧ descriptor.kind = .definition definition ∧
      metadata.typeDefinition definition = .ok record ∧
      last.MatchesRecord metadata id record descriptor)
    (fun _ after ↦ after.Faithful metadata ∧ state.Grows after)

theorem keeps_definitionOnce {definition : Index .typeDefinitions} {compute : Resolve DescriptorId}
    (fresh : state.definitions[definition]? = none)
    (describes : Describes metadata definition compute) :
    Keeps metadata (definitionOnce definition compute) state
      fun id after ↦ after.definitions[definition]? = some (.done id) := by
  intro faithful
  simp only [definitionOnce, ensures_bind, ensures_modify, ensures_tryCatch, ensures_throw,
    ensures_pure]
  obtain ⟨faithful, begun⟩ := faithful.begin_definition fresh
  refine (describes _ faithful).mono ?_ ?_
  · rintro id after ⟨last, descriptor, record, faithful, grows, pushed, isDefinition, isRecord, fits⟩
    obtain ⟨rfl, rfl⟩ := Prod.mk.inj pushed
    have underway := (grows.definitionsUnderway definition).mpr (by simp)
    obtain ⟨faithful, finished⟩ := faithful.push_definition underway isDefinition isRecord fits
    refine ⟨faithful, ⟨(begun.trans grows.toExtends).trans finished, grows.usagesUnderway,
      fun other ↦ ?_⟩, ?_⟩
    · have same := grows.definitionsUnderway other
      rw [getElem?_insert_eq] at same
      simp only [getElem?_insert_eq]
      grind
    · simp
  · rintro _ after ⟨faithful, grows⟩
    have underway := (grows.definitionsUnderway definition).mpr (by simp)
    obtain ⟨faithful, abandoned⟩ :=
      faithful.change_definition definition (after.definitions.erase definition)
        (by simp [underway]) (by simp +contextual [getElem?_erase_eq]) (by simp)
    refine ⟨faithful, (begun.trans grows.toExtends).trans abandoned, grows.usagesUnderway,
      fun other ↦ ?_⟩
    have same := grows.definitionsUnderway other
    rw [getElem?_insert_eq] at same
    rw [getElem?_erase_eq]
    grind

/-- The recursive call: its result is remembered as that for the usage. -/
def Remembers (metadata : Metadata) (resolveParts : ResolveParts) : Prop :=
  ∀ type context mode state, Keeps metadata (resolveParts type context mode) state
    fun usage after ↦
      after.usages[metadata.normal ⟨type, context, mode⟩]? = some (.done usage)

end Resolve

namespace Linkage

open Resolve

variable {linkage : Linkage} {resolveParts : ResolveParts} {state : ResolutionState}

/-- The declaring type of a definition, if it has one, is remembered. -/
theorem keeps_declaringDescriptor? (remembers : Remembers linkage.metadata resolveParts)
    (record : TypeDefinition) :
    Keeps linkage.metadata (record.declaringDescriptor? resolveParts) state
      fun declaringType? after ↦ Option.Rel
        (fun type declaring ↦ ∃ usage,
          after.usages[linkage.metadata.normal ⟨type, .empty, .name⟩]? = some (.done usage) ∧
            usage.descriptor = declaring)
        record.declaringType.present? declaringType? := by
  unfold TypeDefinition.declaringDescriptor?
  cases record.declaringType.present? with
  | none => exact .pure .none
  | some declaring =>
    refine .map (.bind (remembers declaring .empty .name state) fun usage after _ _ done ↦ .pure ?_)
    exact .some ⟨usage, done, rfl⟩

theorem describes_buildDefinition (remembers : Remembers linkage.metadata resolveParts)
    (definition : Index .typeDefinitions) :
    Describes linkage.metadata definition (linkage.buildDefinition resolveParts definition) := by
  intro state faithful
  unfold buildDefinition
  rw [ensures_bind, ensures_lookup]
  refine ⟨fun record isRecord ↦ ?_, fun _ _ ↦ ⟨faithful, .refl⟩⟩
  refine (keeps_declaringDescriptor? remembers record).ensures_bind faithful
    (fun _ _ faithful grows ↦ ⟨faithful, grows⟩) fun declaringType? middle faithful grows known ↦ ?_
  refine (keeps_uniqueName _ _).ensures_bind faithful
    (fun _ _ faithful more ↦ ⟨faithful, grows.trans more⟩) fun name last faithful more named ↦ ?_
  rw [ensures_bind, ensures_lookup]
  refine ⟨fun parameterNames isNames ↦ ?_, fun _ _ ↦ ⟨faithful, grows.trans more⟩⟩
  refine ensures_modifyGet.mpr
    ⟨last, _, record, faithful, grows.trans more, rfl, rfl, isRecord, ?_⟩
  exact {
    name := named
    namespaceName := rfl
    declaringType? := optionRel_mono (fun type declaring ⟨usage, done, isDeclaring⟩ ↦
      have done := more.usages _ _ done
      ⟨isDeclaring ▸ (faithful.usages _ usage done).stored, usage, done, isDeclaring⟩) known
    typeArguments := rfl
    parameterNames := isNames
    isValueType := rfl
    isEnum := rfl }

theorem keeps_describeWith (remembers : Remembers linkage.metadata resolveParts)
    (definition : Index .typeDefinitions) :
    Keeps linkage.metadata (linkage.describeWith resolveParts definition) state
      fun id after ↦ after.definitions[definition]? = some (.done id) := by
  refine .bind_get ?_
  split
  next id done => exact .pure done
  next => exact .throw
  next fresh => exact keeps_definitionOnce fresh (describes_buildDefinition remembers definition)

theorem keeps_arguments (remembers : Remembers linkage.metadata resolveParts)
    (types : List (Index .types)) (context : GenericContext) :
    Keeps linkage.metadata (types.mapM fun type ↦ resolveParts type context .name) state
      fun usages after ↦ List.Forall₂
        (fun type usage ↦
          after.usages[linkage.metadata.normal ⟨type, context, .name⟩]? = some (.done usage))
        types usages :=
  .mapM
    (fun type usage after ↦
      after.usages[linkage.metadata.normal ⟨type, context, .name⟩]? = some (.done usage))
    (fun _ usage _ _ _ grows done ↦ grows.usages _ usage done)
    (fun type state ↦ remembers type context .name state) types state

theorem keeps_buildInstantiation (remembers : Remembers linkage.metadata resolveParts)
    {genericClass : Index .genericClasses} {definition : Index .typeDefinitions}
    (isOpen : linkage.metadata.openDefinition? genericClass = .ok (some definition))
    (used : linkage.metadata.UsesClass genericClass) (context : GenericContext) :
    Keeps linkage.metadata
      (linkage.buildInstantiation resolveParts genericClass definition context) state
      fun id after ↦ ∃ arguments openId openDescriptor descriptor,
        linkage.metadata.classArguments genericClass = .ok arguments ∧
        after.descriptors[id.position]? = some descriptor ∧
        after.MatchesOpen id genericClass definition openId openDescriptor descriptor ∧
        List.Forall₂ (fun type usage ↦
            after.usages[linkage.metadata.normal ⟨type, context, .name⟩]? = some (.done usage))
          arguments descriptor.typeArguments := by
  refine .bind (keeps_describeWith remembers definition) fun openId middle _ _ done ↦ ?_
  refine .bind_lookup fun arguments isArguments ↦ ?_
  refine .bind (keeps_arguments remembers arguments context) fun usages last faithful grows known ↦ ?_
  refine .bind_get ?_
  have done := grows.definitions _ _ done
  obtain ⟨openDescriptor, found, isDefinition⟩ := faithful.definitions definition openId done
  have fits : last.MatchesOpen ⟨last.descriptors.size⟩ genericClass definition openId openDescriptor
      { openDescriptor with
        kind := .instantiation genericClass definition
        typeArguments := usages
        parameterNames := [] } := {
    done := done
    earlier := (faithful.definitions definition openId done).stored
    found := found
    eq := rfl
    arguments := fun usage mem ↦ by
      obtain ⟨type, _, known⟩ := forall₂_exists_left known mem
      exact (faithful.usages _ usage known).stored }
  rw [found, Option.getD_some]
  refine (keeps_push ((fits.mono (ResolutionState.push_grows _).toExtends).describes used isOpen)).mono
    fun id after _ more ⟨pushed, _⟩ ↦ ?_
  obtain ⟨rfl, rfl⟩ := Prod.mk.inj pushed
  exact ⟨arguments, openId, openDescriptor, _, isArguments, Array.getElem?_push_size,
    fits.mono more.toExtends, known⟩

/-- What working on a usage comes to: a usage with the tree of the outermost layer. -/
def Assembles (metadata : Metadata) (key : UsageKey) (usage : Usage) (state : ResolutionState) :
    Prop :=
  usage.descriptor.position < state.descriptors.size ∧ ∃ layer, metadata.layer key = .ok layer ∧
    layer.tree (state.remembered metadata) = .ok (state.usageTree usage)

theorem assembles_builtin {metadata : Metadata} {key : UsageKey} {kind : TypeKind}
    {id : DescriptorId} (isLayer : metadata.layer key = .ok (.builtin kind))
    (shows : state.Shows id (.builtin kind)) : Assembles metadata key (.plain id) state := by
  refine ⟨shows.stored, _, isLayer, ?_⟩
  obtain ⟨descriptor, found, isBuiltin⟩ := shows
  simp [TypeLayer.tree, ResolutionState.descriptorTree_builtin found isBuiltin]

theorem assembles_parameter {metadata : Metadata} {key : UsageKey}
    {parameter : Index .genericParameters} {id : DescriptorId}
    (isLayer : metadata.layer key = .ok (.parameter parameter))
    (shows : state.Shows id (.parameter parameter)) : Assembles metadata key (.plain id) state := by
  refine ⟨shows.stored, _, isLayer, ?_⟩
  obtain ⟨descriptor, found, isParameter⟩ := shows
  simp [TypeLayer.tree, ResolutionState.descriptorTree_parameter found isParameter]

/-- A usage that is only replaced by another one. -/
theorem keeps_replaced (remembers : Remembers linkage.metadata resolveParts)
    {key part : UsageKey} (isLayer : linkage.metadata.layer key = .ok (.replaced part)) :
    Keeps linkage.metadata (resolveParts part.type part.context part.mode) state
      (Assembles linkage.metadata key) := by
  refine (remembers part.type part.context part.mode state).mono fun usage after faithful _ done ↦ ?_
  refine ⟨(faithful.usages _ usage done).stored, _, isLayer, ?_⟩
  exact ResolutionState.remembered_eq_ok.mpr ⟨usage, done, rfl⟩

theorem keeps_pointer (remembers : Remembers linkage.metadata resolveParts) {key part : UsageKey}
    (isLayer : linkage.metadata.layer key = .ok (.pointer part)) :
    Keeps linkage.metadata
      (do return (← resolveParts part.type part.context part.mode).pointer) state
      (Assembles linkage.metadata key) := by
  refine .bind (remembers part.type part.context part.mode state)
    fun usage after faithful _ done ↦ .pure ⟨(faithful.usages _ usage done).stored, _, isLayer, ?_⟩
  simp only [TypeLayer.tree, lookup_bind_eq_ok, lookup_pure_eq_ok]
  exact ⟨_, ResolutionState.remembered_eq_ok.mpr ⟨usage, done, rfl⟩, rfl⟩

theorem keeps_array (remembers : Remembers linkage.metadata resolveParts) {key part : UsageKey}
    {shape : ArrayShape} (isLayer : linkage.metadata.layer key = .ok (.array shape part)) :
    Keeps linkage.metadata
      (do return (← resolveParts part.type part.context part.mode).arrayOf shape) state
      (Assembles linkage.metadata key) := by
  refine .bind (remembers part.type part.context part.mode state)
    fun usage after faithful _ done ↦ .pure ⟨(faithful.usages _ usage done).stored, _, isLayer, ?_⟩
  simp only [TypeLayer.tree, lookup_bind_eq_ok, lookup_pure_eq_ok]
  refine ⟨_, ResolutionState.remembered_eq_ok.mpr ⟨usage, done, rfl⟩, ?_⟩
  rw [ResolutionState.usageTree_arrayOf]

/-- Following the recipe for a usage comes to what its outermost layer says. -/
theorem keeps_follow (remembers : Remembers linkage.metadata resolveParts) {key : UsageKey}
    {recipe : Recipe} (isRecipe : linkage.metadata.recipe key = .ok recipe) :
    Keeps linkage.metadata (linkage.follow resolveParts recipe) state
      (Assembles linkage.metadata key) := by
  have isLayer := Metadata.layer_of_recipe isRecipe
  cases recipe with
  | builtin kind =>
    exact .bind (keeps_builtin (Metadata.isBuiltin_of_recipe isRecipe))
      fun id after _ _ shows ↦ .pure (assembles_builtin isLayer shows)
  | parameter parameter =>
    refine .bind (keeps_parameter parameter) ?_
    rintro id after - - ⟨shows, record, isRecord⟩
    refine .pure (assembles_parameter ?_ shows)
    rw [isLayer, Metadata.recipeLayer, isRecord]
    rfl
  | replaced part => exact keeps_replaced remembers isLayer
  | pointer part => exact keeps_pointer remembers isLayer
  | array shape part => exact keeps_array remembers isLayer
  | definition definition =>
    refine .bind (keeps_describeWith remembers definition) fun id after faithful _ done ↦ .pure ?_
    obtain ⟨declaring?, isDeclaring, assembled⟩ := faithful.definition_tree done
    refine ⟨(faithful.definitions definition id done).stored, _, ?_, assembled⟩
    rw [isLayer, Metadata.recipeLayer, isDeclaring]
    rfl
  | undefined genericClass =>
    refine .bind (keeps_report _) fun _ middle _ _ _ ↦ ?_
    exact .bind (keeps_builtin rfl) fun id after _ _ shows ↦ .pure (assembles_builtin isLayer shows)
  | instantiation genericClass definition context =>
    obtain ⟨used, isOpen⟩ := Metadata.usesClass_of_recipe isRecipe
    refine .bind (keeps_buildInstantiation remembers isOpen used context) ?_
    rintro id after faithful -
      ⟨arguments, openId, openDescriptor, descriptor, isArguments, found, fits, known⟩
    obtain ⟨declaring?, isDeclaring, assembled⟩ := faithful.instantiation_tree found fits known
    refine .pure ⟨(Array.getElem?_eq_some_iff.mp found).1, _, ?_, assembled⟩
    rw [isLayer, Metadata.recipeLayer, isDeclaring, lookup_ok_bind, isArguments]
    rfl

/-- One step of the resolution comes to what the outermost layer of the type says. -/
theorem keeps_expand (remembers : Remembers linkage.metadata resolveParts) (key : UsageKey)
    {reference : TypeReference}
    (isReference : linkage.metadata.typeReference key.type = .ok reference) :
    Keeps linkage.metadata
      (linkage.expand resolveParts key.type reference key.context key.mode) state
      (Assembles linkage.metadata key) := by
  rw [expand_eq key isReference]
  exact .bind_lookup fun recipe isRecipe ↦ keeps_follow remembers isRecipe

/-- The recursion remembers what it finds, however much nesting is left. -/
theorem remembers_resolveWithin (room : Nat) :
    Remembers linkage.metadata (linkage.resolveWithin room) := by
  induction room with
  | zero =>
    intro type context mode state
    unfold resolveWithin
    refine .bind_lookup fun reference isReference ↦ .bind_get ?_
    rw [Metadata.normal_eq isReference]
    split
    next usage done => exact .pure done
    next => exact .throw
    next => exact .throw
  | succ room ih =>
    intro type context mode state
    unfold resolveWithin
    refine .bind_lookup fun reference isReference ↦ .bind_get ?_
    rw [Metadata.normal_eq isReference]
    split
    next usage done => exact .pure done
    next => exact .throw
    next fresh => exact keeps_usageOnce fresh fun middle ↦ keeps_expand ih ⟨_, _, _⟩ isReference

end Linkage

end ManagedLayout
