import ManagedLayout.Proofs.Resolution.Cycles
import ManagedLayout.Proofs.Resolution.Spelling

/-!
# Calls that are made again

A call that fails leaves behind what it found out before, and may give out names that it does not
use. If it is made again, it finds the parts that it has resolved in the memory, comes to the same
part as before, and fails there again. Each step of the resolution is shown to do so, for states
that remember the same as the one that it failed in.
-/

namespace ManagedLayout

namespace ResolutionState

variable {before after again state : ResolutionState}

/-- The two states remember the same. The names that have been given out, the count and the log may
differ. -/
structure SameMemory (state again : ResolutionState) : Prop where
  descriptors : again.descriptors = state.descriptors
  usages : ∀ key : UsageKey, again.usages[key]? = state.usages[key]?
  definitions : ∀ definition : Index .typeDefinitions,
    again.definitions[definition]? = state.definitions[definition]?
  parameters : ∀ parameter : Index .genericParameters,
    again.parameters[parameter]? = state.parameters[parameter]?

theorem SameMemory.refl : state.SameMemory state := ⟨rfl, fun _ ↦ rfl, fun _ ↦ rfl, fun _ ↦ rfl⟩

theorem SameMemory.extends (same : state.SameMemory again) : state.Extends again where
  arena := by simp [ArenaGrows, same.descriptors]
  usages key usage done := (same.usages key).trans done
  definitions definition id done := (same.definitions definition).trans done

/-- A usage that has been given up is begun again. -/
theorem SameMemory.begin_usage {key : UsageKey} {count : Nat}
    (same : { after with usages := after.usages.erase key }.SameMemory again)
    (underway : after.usages[key]? = some .underway) :
    after.SameMemory { again with
      usages := again.usages.insert key .underway
      resolvedCount := count } where
  descriptors := same.descriptors
  usages other := by
    have others := same.usages other
    rw [getElem?_erase_eq] at others
    rw [getElem?_insert_eq]
    split <;> simp_all
  definitions := same.definitions
  parameters := same.parameters

theorem SameMemory.begin_definition {definition : Index .typeDefinitions}
    (same : { after with definitions := after.definitions.erase definition }.SameMemory again)
    (underway : after.definitions[definition]? = some .underway) :
    after.SameMemory { again with
      definitions := again.definitions.insert definition .underway } where
  descriptors := same.descriptors
  usages := same.usages
  definitions other := by
    have others := same.definitions other
    rw [getElem?_erase_eq] at others
    rw [getElem?_insert_eq]
    split <;> simp_all
  parameters := same.parameters

end ResolutionState

namespace Resolve

variable {Result Other : Type} {metadata : Metadata} {state : ResolutionState}

/-- From the state, the computation fails with the error. -/
def FailsWith (computation : Resolve Result) (state : ResolutionState) (error : LayoutError) : Prop :=
  Ensures computation state (fun _ _ ↦ False) fun found _ ↦ found = error

/-- From the state, the computation has the result, and leaves the state as it is. -/
def Returns (computation : Resolve Result) (state : ResolutionState) (result : Result) : Prop :=
  Ensures computation state (fun found after ↦ found = result ∧ after = state) fun _ _ ↦ False

theorem ensures_true {computation : Resolve Result} :
    Ensures computation state (fun _ _ ↦ True) fun _ _ ↦ True := by
  unfold Ensures
  split <;> trivial

theorem failsWith_iff {computation : Resolve Result} {error : LayoutError} :
    FailsWith computation state error ↔ (computation.run.run state).1 = .error error := by
  unfold FailsWith Ensures
  rcases computation.run.run state with ⟨_ | _, _⟩ <;> simp

theorem returns_iff {computation : Resolve Result} {result : Result} :
    Returns computation state result ↔ computation.run.run state = (.ok result, state) := by
  unfold Returns Ensures
  rcases computation.run.run state with ⟨_ | found, after⟩
  · exact ⟨False.elim, fun same ↦ nomatch same⟩
  · constructor
    · rintro ⟨rfl, rfl⟩
      rfl
    · rintro ⟨⟩
      exact ⟨rfl, rfl⟩

theorem FailsWith.bind {first : Resolve Other} {next : Other → Resolve Result} {error : LayoutError}
    (fails : FailsWith first state error) : FailsWith (first >>= next) state error :=
  ensures_bind.mpr (fails.mono (fun _ _ impossible ↦ impossible.elim) fun _ _ same ↦ same)

theorem Returns.bind {first : Resolve Other} {next : Other → Resolve Result} {found : Other}
    {done : Result → ResolutionState → Prop} {failed : LayoutError → ResolutionState → Prop}
    (returns : Returns first state found) (ensured : Ensures (next found) state done failed) :
    Ensures (first >>= next) state done failed := by
  refine ensures_bind.mpr (returns.mono ?_ fun _ _ impossible ↦ impossible.elim)
  rintro _ _ ⟨rfl, rfl⟩
  exact ensured

theorem exists_returns_mapM {compute : Other → Resolve Result} {sources : List Other}
    (each : ∀ source ∈ sources, ∃ result, Returns (compute source) state result) :
    ∃ results, Returns (sources.mapM compute) state results := by
  induction sources with
  | nil => exact ⟨[], rfl, rfl⟩
  | cons source rest ih =>
    obtain ⟨result, returns⟩ := each source List.mem_cons_self
    obtain ⟨results, restReturns⟩ := ih fun other mem ↦ each other (List.mem_cons_of_mem _ mem)
    refine ⟨result :: results, ?_⟩
    rw [List.mapM_cons]
    exact returns.bind (restReturns.bind ⟨rfl, rfl⟩)

/-- If the computation fails, then it fails in the same way when it is started in a state that
remembers what is known by then. -/
def Repeats (metadata : Metadata) (computation : Resolve Result) (state : ResolutionState) : Prop :=
  state.Faithful metadata →
    Ensures computation state (fun _ _ ↦ True)
      fun error after ↦ state.Extends after ∧
        ∀ again, after.SameMemory again → FailsWith computation again error

/-- If the computation has a result, then it has the same one in all later states, and leaves these
as they are. -/
def Lasts (metadata : Metadata) (computation : Resolve Result) (state : ResolutionState) : Prop :=
  state.Faithful metadata →
    Ensures computation state
      (fun result after ↦ ∀ later, after.Extends later → Returns computation later result)
      fun _ _ ↦ True

namespace Lasts

theorem pure {result : Result} : Lasts metadata (Pure.pure result) state :=
  fun _ _ _ ↦ ⟨rfl, rfl⟩

theorem bind_pure {computation : Resolve Other} {change : Other → Result}
    (lasts : Lasts metadata computation state) :
    Lasts metadata (do return change (← computation)) state := by
  intro faithful
  refine ensures_bind.mpr ((lasts faithful).mono (fun result after same later extend ↦ ?_)
    fun _ _ _ ↦ trivial)
  exact (same later extend).bind ⟨rfl, rfl⟩

theorem map {computation : Resolve Other} {change : Other → Result}
    (lasts : Lasts metadata computation state) : Lasts metadata (change <$> computation) state := by
  rw [← bind_pure_comp]
  exact lasts.bind_pure

theorem bind_lookup {lookup : Except LayoutError Other} {next : Other → Resolve Result}
    (lasts : ∀ found, lookup = .ok found → Lasts metadata (next found) state) :
    Lasts metadata (liftM lookup >>= next) state := by
  cases lookup with
  | error => exact fun _ ↦ trivial
  | ok found => exact lasts found rfl

/-- What the first part found is still known when the second part has a result. -/
theorem bind {first : Resolve Other} {next : Other → Resolve Result}
    {middle : Other → ResolutionState → Prop} (lasts : Lasts metadata first state)
    (kept : Keeps metadata first state middle)
    (nextLasts : ∀ result after, Lasts metadata (next result) after)
    (nextKept : ∀ result after, Keeps metadata (next result) after fun _ _ ↦ True) :
    Lasts metadata (first >>= next) state := by
  intro faithful
  refine ensures_bind.mpr (((kept faithful).and (lasts faithful)).mono ?_ fun _ _ _ ↦ trivial)
  rintro found after ⟨⟨faithful, -, -⟩, same⟩
  refine ((nextKept found after faithful).and (nextLasts found after faithful)).mono ?_
    fun _ _ _ ↦ trivial
  rintro result final ⟨⟨-, grows, -⟩, sameNext⟩ later extend
  exact (same later (grows.toExtends.trans extend)).bind (sameNext later extend)

theorem mapM {compute : Other → Resolve Result}
    (kept : ∀ source state, Keeps metadata (compute source) state fun _ _ ↦ True)
    (lasts : ∀ source state, Lasts metadata (compute source) state) (sources : List Other) :
    Lasts metadata (sources.mapM compute) state := by
  induction sources generalizing state with
  | nil => exact .pure
  | cons source rest ih =>
    have restKept (state : ResolutionState) :
        Keeps metadata (rest.mapM compute) state fun _ _ ↦ True := .mapM_trivial kept rest state
    rw [List.mapM_cons]
    refine .bind (lasts source state) (kept source state) (fun _ _ ↦ .bind_pure ih) fun _ after ↦ ?_
    exact .bind (restKept after) fun _ _ _ _ _ ↦ .pure trivial

end Lasts

namespace Repeats

theorem of_never_fails {computation : Resolve Result}
    (safe : Ensures computation state (fun _ _ ↦ True) fun _ _ ↦ False) :
    Repeats metadata computation state :=
  fun _ ↦ safe.mono (fun _ _ _ ↦ trivial) fun _ _ impossible ↦ impossible.elim

theorem of_always_fails {computation : Resolve Result} {error : LayoutError}
    (fails : ∀ state, Ensures computation state (fun _ _ ↦ False)
      fun found after ↦ found = error ∧ state.Extends after) :
    Repeats metadata computation state := by
  refine fun _ ↦ (fails state).mono (fun _ _ _ ↦ trivial) ?_
  rintro _ after ⟨rfl, extend⟩
  refine ⟨extend, fun again _ ↦ ?_⟩
  exact (fails again).mono (fun _ _ impossible ↦ impossible) fun _ _ ⟨same, _⟩ ↦ same

theorem pure {result : Result} : Repeats metadata (Pure.pure result) state :=
  of_never_fails trivial

theorem throw {error : LayoutError} :
    Repeats metadata (MonadExcept.throw error : Resolve Result) state :=
  of_always_fails fun _ ↦ ⟨rfl, .refl⟩

theorem bind_lookup {lookup : Except LayoutError Other} {next : Other → Resolve Result}
    (repeats : ∀ found, lookup = .ok found → Repeats metadata (next found) state) :
    Repeats metadata (liftM lookup >>= next) state := by
  cases lookup with
  | error => exact .of_always_fails fun _ ↦ ⟨rfl, .refl⟩
  | ok found => exact repeats found rfl

/-- If the first part has a result, then it has the same one when the rest fails and all of it is
started again. -/
theorem bind {first : Resolve Other} {next : Other → Resolve Result}
    {middle : Other → ResolutionState → Prop} (repeats : Repeats metadata first state)
    (lasts : Lasts metadata first state) (kept : Keeps metadata first state middle)
    (nextRepeats : ∀ result after, Repeats metadata (next result) after) :
    Repeats metadata (first >>= next) state := by
  intro faithful
  refine ensures_bind.mpr ((((kept faithful).and (lasts faithful)).and (repeats faithful)).mono ?_ ?_)
  · rintro result after ⟨⟨⟨faithful, grows, -⟩, same⟩, -⟩
    refine (nextRepeats result after faithful).mono (fun _ _ _ ↦ trivial) ?_
    rintro error last ⟨extend, fails⟩
    refine ⟨grows.toExtends.trans extend, fun again sameMemory ↦ ?_⟩
    -- What the first part found is still known where the rest has failed.
    exact (same again (extend.trans sameMemory.extends)).bind (fails again sameMemory)
  · rintro error after ⟨-, extend, fails⟩
    exact ⟨extend, fun again sameMemory ↦ (fails again sameMemory).bind⟩

/-- A computation that cannot fail comes last. -/
theorem bind_never_fails {first : Resolve Other} {next : Other → Resolve Result}
    (repeats : Repeats metadata first state)
    (safe : ∀ result after, Ensures (next result) after (fun _ _ ↦ True) fun _ _ ↦ False) :
    Repeats metadata (first >>= next) state := by
  intro faithful
  refine ensures_bind.mpr ((repeats faithful).mono (fun result after _ ↦ ?_) ?_)
  · exact (safe result after).mono (fun _ _ _ ↦ trivial) fun _ _ impossible ↦ impossible.elim
  · rintro error after ⟨extend, fails⟩
    exact ⟨extend, fun again sameMemory ↦ (fails again sameMemory).bind⟩

theorem bind_pure {computation : Resolve Other} {change : Other → Result}
    (repeats : Repeats metadata computation state) :
    Repeats metadata (do return change (← computation)) state :=
  repeats.bind_never_fails fun _ _ ↦ trivial

theorem map {computation : Resolve Other} {change : Other → Result}
    (repeats : Repeats metadata computation state) :
    Repeats metadata (change <$> computation) state := by
  rw [← bind_pure_comp]
  exact repeats.bind_pure

theorem mapM {compute : Other → Resolve Result} {holds : Other → Result → ResolutionState → Prop}
    (kept : ∀ source state, Keeps metadata (compute source) state (holds source))
    (lasts : ∀ source state, Lasts metadata (compute source) state)
    (repeats : ∀ source state, Repeats metadata (compute source) state) (sources : List Other) :
    Repeats metadata (sources.mapM compute) state := by
  induction sources generalizing state with
  | nil => exact .pure
  | cons source rest ih =>
    rw [List.mapM_cons]
    refine .bind (repeats source state) (lasts source state) (kept source state) fun _ _ ↦ ?_
    exact .bind_pure ih

end Repeats

/-- The recursive call: it does the same when it is made again. -/
structure RepeatsParts (metadata : Metadata) (resolveParts : ResolveParts) : Prop where
  repeats : ∀ type context mode state, Repeats metadata (resolveParts type context mode) state
  lasts : ∀ type context mode state, Lasts metadata (resolveParts type context mode) state

theorem repeats_parameter (index : Index .genericParameters) :
    Repeats metadata (parameter metadata index) state := by
  intro faithful
  refine ensures_bind.mpr (ensures_get.mpr ?_)
  split
  next => trivial
  next fresh =>
    refine ensures_bind.mpr (ensures_lookup.mpr ⟨fun _ _ ↦ trivial, fun error missing ↦ ?_⟩)
    refine ⟨.refl, fun again sameMemory ↦ ?_⟩
    simp only [FailsWith, parameter, ensures_bind, ensures_get, sameMemory.parameters, fresh, missing]
    rfl

/-- A usage that fails is forgotten. -/
theorem forgets_usageOnce (key : UsageKey) (compute : Resolve Usage) :
    Ensures (usageOnce key compute) state (fun _ _ ↦ True)
      fun _ after ↦ after.usages[key]? = none := by
  simp [usageOnce, ensures_true]

theorem forgets_definitionOnce (definition : Index .typeDefinitions)
    (compute : Resolve DescriptorId) :
    Ensures (definitionOnce definition compute) state (fun _ _ ↦ True)
      fun _ after ↦ after.definitions[definition]? = none := by
  simp [definitionOnce, ensures_true]

/-- Work on a usage that failed is begun again in the state in which it was begun, but for what has
been found out since. -/
theorem repeats_usageOnce {key : UsageKey} {compute : Resolve Usage}
    {done middleDone : Usage → ResolutionState → Prop} (fresh : state.usages[key]? = none)
    (kept : Keeps metadata (usageOnce key compute) state done)
    (middleKept : ∀ middle, Keeps metadata compute middle middleDone)
    (repeats : ∀ middle, Repeats metadata compute middle) :
    Repeats metadata (usageOnce key compute) state := by
  intro faithful
  have failsAgain : Ensures (usageOnce key compute) state (fun _ _ ↦ True) fun error after ↦
      ∀ again, after.SameMemory again → FailsWith (usageOnce key compute) again error := by
    obtain ⟨begun, -⟩ := faithful.begin_usage fresh
    simp only [FailsWith, usageOnce, ensures_bind, ensures_modify, ensures_tryCatch, ensures_throw,
      ensures_pure]
    refine ((middleKept _ begun).and (repeats _ begun)).mono (fun _ _ _ ↦ trivial) ?_
    rintro error after ⟨⟨-, grows⟩, -, fails⟩ again sameMemory
    have underway := (grows.usagesUnderway key).mpr (by simp)
    exact (fails _ (sameMemory.begin_usage underway)).mono (fun _ _ impossible ↦ impossible)
      fun _ _ same ↦ same
  refine ((kept faithful).and failsAgain).mono (fun _ _ _ ↦ trivial) ?_
  rintro error after ⟨⟨-, grows⟩, fails⟩
  exact ⟨grows.toExtends, fails⟩

theorem repeats_definitionOnce {definition : Index .typeDefinitions}
    {compute : Resolve DescriptorId} {done : DescriptorId → ResolutionState → Prop}
    (fresh : state.definitions[definition]? = none)
    (kept : Keeps metadata (definitionOnce definition compute) state done)
    (describes : Describes metadata definition compute)
    (repeats : ∀ middle, Repeats metadata compute middle) :
    Repeats metadata (definitionOnce definition compute) state := by
  intro faithful
  have failsAgain : Ensures (definitionOnce definition compute) state (fun _ _ ↦ True)
      fun error after ↦ ∀ again, after.SameMemory again →
        FailsWith (definitionOnce definition compute) again error := by
    obtain ⟨begun, -⟩ := faithful.begin_definition fresh
    simp only [FailsWith, definitionOnce, ensures_bind, ensures_modify, ensures_tryCatch,
      ensures_throw, ensures_pure]
    refine ((describes _ begun).and (repeats _ begun)).mono (fun _ _ _ ↦ trivial) ?_
    rintro error after ⟨⟨-, grows⟩, -, fails⟩ again sameMemory
    have underway := (grows.definitionsUnderway definition).mpr (by simp)
    exact (fails _ (sameMemory.begin_definition underway)).mono (fun _ _ impossible ↦ impossible)
      fun _ _ same ↦ same
  refine ((kept faithful).and failsAgain).mono (fun _ _ _ ↦ trivial) ?_
  rintro error after ⟨⟨-, grows⟩, fails⟩
  exact ⟨grows.toExtends, fails⟩

end Resolve

namespace Linkage

open Resolve

variable {linkage : Linkage} {resolveParts : ResolveParts} {state : ResolutionState}

theorem lasts_declaringDescriptor? (again : RepeatsParts linkage.metadata resolveParts)
    (record : TypeDefinition) :
    Lasts linkage.metadata (record.declaringDescriptor? resolveParts) state := by
  unfold TypeDefinition.declaringDescriptor?
  cases record.declaringType.present? with
  | none => exact .pure
  | some declaring => exact .map (.bind_pure (again.lasts declaring .empty .name state))

theorem repeats_declaringDescriptor? (again : RepeatsParts linkage.metadata resolveParts)
    (record : TypeDefinition) :
    Repeats linkage.metadata (record.declaringDescriptor? resolveParts) state := by
  unfold TypeDefinition.declaringDescriptor?
  cases record.declaringType.present? with
  | none => exact .pure
  | some declaring => exact .map (.bind_pure (again.repeats declaring .empty .name state))

/-- The name may be another one the second time, but whether the parameters have names does not
depend on that. -/
theorem repeats_buildDefinition (again : RepeatsParts linkage.metadata resolveParts)
    (remembers : Remembers linkage.metadata resolveParts) (definition : Index .typeDefinitions) :
    Repeats linkage.metadata (linkage.buildDefinition resolveParts definition) state := by
  refine .bind_lookup fun record isRecord ↦ ?_
  refine .bind (repeats_declaringDescriptor? again record) (lasts_declaringDescriptor? again record)
    (keeps_declaringDescriptor? remembers record) fun declaringType? middle ↦ ?_
  cases isFound : linkage.metadata.declaredParameters record with
  | ok => exact .of_never_fails trivial
  | error error =>
    exact .of_always_fails fun state ↦ ⟨rfl, .refl, fun _ _ done ↦ done, fun _ _ done ↦ done⟩

theorem repeats_describeWith (again : RepeatsParts linkage.metadata resolveParts)
    (remembers : Remembers linkage.metadata resolveParts) (definition : Index .typeDefinitions) :
    Repeats linkage.metadata (linkage.describeWith resolveParts definition) state := by
  intro faithful
  unfold FailsWith
  simp only [describeWith, ensures_bind, ensures_get]
  split
  next => trivial
  next underway =>
    refine ⟨.refl, fun again sameMemory ↦ ?_⟩
    rw [sameMemory.definitions, underway]
    rfl
  next fresh =>
    have describes := describes_buildDefinition remembers definition
    refine ((repeats_definitionOnce fresh (keeps_definitionOnce fresh describes) describes
      (fun _ ↦ repeats_buildDefinition again remembers definition) faithful).and
        (forgets_definitionOnce definition _)).mono (fun _ _ _ ↦ trivial) ?_
    rintro error after ⟨⟨extend, fails⟩, forgotten⟩
    refine ⟨extend, fun again sameMemory ↦ ?_⟩
    rw [sameMemory.definitions, forgotten]
    exact fails again sameMemory

theorem lasts_describeWith (remembers : Remembers linkage.metadata resolveParts)
    (definition : Index .typeDefinitions) :
    Lasts linkage.metadata (linkage.describeWith resolveParts definition) state := by
  intro faithful
  refine (keeps_describeWith remembers definition faithful).mono ?_ fun _ _ _ ↦ trivial
  rintro id after ⟨-, -, done⟩ later extend
  unfold Returns describeWith
  rw [ensures_bind, ensures_get, extend.definitions definition id done]
  exact ⟨rfl, rfl⟩

theorem repeats_buildInstantiation (again : RepeatsParts linkage.metadata resolveParts)
    (remembers : Remembers linkage.metadata resolveParts) (genericClass : Index .genericClasses)
    (definition : Index .typeDefinitions) (context : GenericContext) :
    Repeats linkage.metadata
      (linkage.buildInstantiation resolveParts genericClass definition context) state := by
  refine .bind (repeats_describeWith again remembers definition)
    (lasts_describeWith remembers definition) (keeps_describeWith remembers definition)
    fun openId middle ↦ ?_
  refine .bind_lookup fun arguments _ ↦ ?_
  refine .bind_never_fails (.mapM (fun argument state ↦ remembers argument context .name state)
    (fun argument state ↦ again.lasts argument context .name state)
    (fun argument state ↦ again.repeats argument context .name state) arguments) fun _ _ ↦ trivial

theorem repeats_follow (again : RepeatsParts linkage.metadata resolveParts)
    (remembers : Remembers linkage.metadata resolveParts) (recipe : Recipe) :
    Repeats linkage.metadata (linkage.follow resolveParts recipe) state := by
  cases recipe with
  | builtin kind => exact .bind_pure (.of_never_fails (never_fails_builtin kind))
  | parameter parameter => exact .bind_pure (repeats_parameter parameter)
  | replaced part => exact again.repeats part.type part.context part.mode state
  | pointer part | array _ part =>
    exact .bind_pure (again.repeats part.type part.context part.mode state)
  | definition definition => exact .bind_pure (repeats_describeWith again remembers definition)
  | undefined genericClass =>
    refine .of_never_fails (ensures_bind.mpr (ensures_modify.mpr ?_))
    exact ensures_bind.mpr (never_fails_builtin .object)
  | instantiation genericClass definition context =>
    exact .bind_pure (repeats_buildInstantiation again remembers genericClass definition context)

theorem repeats_expand (again : RepeatsParts linkage.metadata resolveParts)
    (remembers : Remembers linkage.metadata resolveParts) (key : UsageKey)
    {reference : TypeReference}
    (isReference : linkage.metadata.typeReference key.type = .ok reference) :
    Repeats linkage.metadata
      (linkage.expand resolveParts key.type reference key.context key.mode) state := by
  rw [expand_eq key isReference]
  exact .bind_lookup fun recipe _ ↦ repeats_follow again remembers recipe

/-- Only a usage that is not known is worked on. -/
theorem repeats_remembered {metadata : Metadata} {key : UsageKey} {compute : Resolve Usage}
    {error : LayoutError}
    (repeats : state.usages[key]? = none → Repeats metadata compute state)
    (forgets : state.usages[key]? = none →
      Ensures compute state (fun _ _ ↦ True) fun _ after ↦ after.usages[key]? = none) :
    Repeats metadata
      (do
        match (← get).usages[key]? with
        | some (.done usage) => return usage
        | some .underway => throw error
        | none => compute) state := by
  intro faithful
  unfold FailsWith
  simp only [ensures_bind, ensures_get]
  split
  next => trivial
  next underway =>
    refine ⟨.refl, fun again sameMemory ↦ ?_⟩
    rw [sameMemory.usages, underway]
    rfl
  next fresh =>
    refine ((repeats fresh faithful).and (forgets fresh)).mono (fun _ _ _ ↦ trivial) ?_
    rintro error after ⟨⟨extend, fails⟩, forgotten⟩
    refine ⟨extend, fun again sameMemory ↦ ?_⟩
    rw [sameMemory.usages, forgotten]
    exact fails again sameMemory

/-- A usage that is known is looked up. -/
theorem returns_resolveWithin {room : Nat} {type : Index .types} {context : GenericContext}
    {mode : ResolveMode} {reference : TypeReference} {usage : Usage}
    (isReference : linkage.metadata.typeReference type = .ok reference)
    (done : state.usages[linkage.metadata.normal ⟨type, context, mode⟩]? = some (.done usage)) :
    Returns (linkage.resolveWithin room type context mode) state usage := by
  rw [Metadata.normal_eq isReference] at done
  unfold Returns resolveWithin
  rw [isReference, ensures_bind, ensures_lookup]
  constructor
  · rintro _ ⟨⟩
    rw [ensures_bind, ensures_get, done]
    exact ⟨rfl, rfl⟩
  · rintro _ ⟨⟩

/-- What is done is the usage of a type reference. -/
theorem exists_typeReference_of_done {key : UsageKey} {usage : Usage}
    (faithful : state.Faithful linkage.metadata)
    (done : state.usages[linkage.metadata.normal key]? = some (.done usage)) :
    ∃ reference, linkage.metadata.typeReference key.type = .ok reference := by
  obtain ⟨layer, -, isLayer, -⟩ := (faithful.usages _ usage done).expands.exists_layer
  rw [Metadata.layer_normal] at isLayer
  exact Metadata.exists_reference_of_layer isLayer

theorem lasts_resolveWithin (room : Nat) (type : Index .types) (context : GenericContext)
    (mode : ResolveMode) :
    Lasts linkage.metadata (linkage.resolveWithin room type context mode) state := by
  intro faithful
  refine (remembers_resolveWithin room type context mode state faithful).mono ?_
    fun _ _ _ ↦ trivial
  rintro usage after ⟨faithful, -, done⟩ later extend
  obtain ⟨reference, isReference⟩ := exists_typeReference_of_done faithful done
  exact returns_resolveWithin isReference (extend.usages _ usage done)

theorem repeatsParts_resolveWithin (room : Nat) :
    RepeatsParts linkage.metadata (linkage.resolveWithin room) := by
  refine ⟨?_, fun type context mode state ↦ lasts_resolveWithin room type context mode⟩
  induction room with
  | zero =>
    intro type context mode state
    unfold resolveWithin
    refine .bind_lookup fun reference isReference ↦ ?_
    exact repeats_remembered (fun _ ↦ .throw) fun fresh ↦ ensures_throw.mpr fresh
  | succ room ih =>
    intro type context mode state
    unfold resolveWithin
    refine .bind_lookup fun reference isReference ↦ ?_
    refine repeats_remembered (fun fresh ↦ ?_) fun _ ↦ forgets_usageOnce _ _
    have again : RepeatsParts linkage.metadata (linkage.resolveWithin room) :=
      ⟨ih, fun type context mode _ ↦ lasts_resolveWithin room type context mode⟩
    have remembers : Remembers linkage.metadata (linkage.resolveWithin room) :=
      remembers_resolveWithin room
    exact repeats_usageOnce fresh
      (keeps_usageOnce fresh fun _ ↦ keeps_expand remembers ⟨_, _, _⟩ isReference)
      (fun _ ↦ keeps_expand remembers ⟨_, _, _⟩ isReference)
      fun _ ↦ repeats_expand again remembers ⟨_, _, _⟩ isReference

end Linkage

end ManagedLayout
