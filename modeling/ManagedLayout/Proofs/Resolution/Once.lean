import ManagedLayout.Proofs.Resolution.Substitution
import ManagedLayout.Proofs.Resolution.Unwinding

/-!
# Work that is done once

However often a usage is asked for, it is worked on once: the count of usages that have been worked
on is the number of usages in the memory. A call that fails forgets what it was working on, so that a
later call may begin it again. It never does so itself: it does the same as one that forgets nothing,
and for which a usage that has failed would stay one that must not be begun again.
-/

namespace ManagedLayout

namespace ResolutionState

variable {before middle kept after state : ResolutionState} {metadata : Metadata} {key : UsageKey}

/-- Between the two states nothing has been forgotten, and each usage that is new has been counted
once, without a context that its kind cannot depend on. -/
structure Begins (metadata : Metadata) (before after : ResolutionState) : Prop where
  count : after.resolvedCount + before.usages.size = before.resolvedCount + after.usages.size
  remain : ∀ key ∈ before.usages, key ∈ after.usages
  normal : ∀ key ∈ after.usages, key ∉ before.usages → metadata.normal key = key

/-- The last state is the one before it without the marks that are newer than the first one. -/
structure Forgets (before kept after : ResolutionState) : Prop where
  underway : ∀ key : UsageKey, before.usages[key]? = some .underway →
    kept.usages[key]? = some .underway
  usages : ∀ key : UsageKey, after.usages[key]? =
    if kept.usages[key]? = some .underway ∧ before.usages[key]? ≠ some .underway then none
    else kept.usages[key]?
  others : after = { kept with usages := after.usages }

theorem Begins.of_usages_eq (sameUsages : after.usages = before.usages)
    (sameCount : after.resolvedCount = before.resolvedCount) : before.Begins metadata after where
  count := by rw [sameUsages, sameCount]
  remain _ mem := sameUsages ▸ mem
  normal _ mem fresh := absurd (sameUsages ▸ mem) fresh

theorem Begins.trans (first : before.Begins metadata middle) (second : middle.Begins metadata after) :
    before.Begins metadata after where
  count := by
    have firstCount := first.count
    have secondCount := second.count
    omega
  remain key mem := second.remain key (first.remain key mem)
  normal key mem fresh := by
    by_cases inMiddle : key ∈ middle.usages
    · exact first.normal key inMiddle fresh
    · exact second.normal key mem inMiddle

/-- A usage that is new is counted when it is begun. -/
theorem begins_usage (fresh : state.usages[key]? = none) (isNormal : metadata.normal key = key) :
    state.Begins metadata { state with
      usages := state.usages.insert key .underway
      resolvedCount := state.resolvedCount + 1 } where
  count := by
    have notMem : key ∉ state.usages := by
      rw [Std.TreeMap.mem_iff_isSome_getElem?, fresh]
      exact Bool.false_ne_true
    simp only [Std.TreeMap.size_insert, Std.TreeMap.contains_iff_mem, if_neg notMem]
    omega
  remain other mem := Std.TreeMap.mem_insert.mpr (.inr mem)
  normal other mem isNew := by
    obtain same | mem := Std.TreeMap.mem_insert.mp mem
    · rw [← Std.LawfulEqOrd.eq_of_compare same, isNormal]
    · exact absurd mem isNew

/-- The end of a usage that was begun adds nothing. -/
theorem Begins.done {usage : Usage} (begins : before.Begins metadata state)
    (begun : key ∈ state.usages) :
    before.Begins metadata { state with usages := state.usages.insert key (.done usage) } where
  count := by
    simp only [Std.TreeMap.size_insert, Std.TreeMap.contains_iff_mem, if_pos begun]
    exact begins.count
  remain other mem := Std.TreeMap.mem_insert.mpr (.inr (begins.remain other mem))
  normal other mem isNew := by
    refine begins.normal other ?_ isNew
    obtain same | mem := Std.TreeMap.mem_insert.mp mem
    · rwa [← Std.LawfulEqOrd.eq_of_compare same]
    · exact mem

/-- If nothing new is underway, then nothing is forgotten. -/
theorem forgets_self_iff : before.Forgets after after ↔ ∀ key : UsageKey,
    after.usages[key]? = some .underway ↔ before.usages[key]? = some .underway := by
  constructor
  · intro forgets key
    refine ⟨fun isUnderway ↦ ?_, forgets.underway key⟩
    have same := forgets.usages key
    by_contra isNew
    rw [if_pos ⟨isUnderway, isNew⟩, isUnderway] at same
    exact nomatch same
  · intro same
    refine ⟨fun key ↦ (same key).mpr, fun key ↦ ?_, rfl⟩
    rw [if_neg]
    rintro ⟨isUnderway, isNew⟩
    exact isNew ((same key).mp isUnderway)

theorem Forgets.of_usages_eq (sameUsages : after.usages = before.usages) :
    before.Forgets after after :=
  forgets_self_iff.mpr fun key ↦ by rw [sameUsages]

theorem Forgets.trans (first : before.Forgets middle middle) (second : middle.Forgets kept after) :
    before.Forgets kept after where
  underway key isUnderway := second.underway key (first.underway key isUnderway)
  usages key := by
    have same_iff := forgets_self_iff.mp first key
    rw [second.usages key]
    simp only [ne_eq, same_iff]
  others := second.others

end ResolutionState

namespace Resolve

variable {Result Other : Type} {metadata : Metadata} {state : ResolutionState}

/-- Works on a usage, and keeps the mark on it if that fails. -/
def usageKept (key : UsageKey) (compute : Resolve Usage) : Resolve Usage := do
  modify fun state ↦ { state with
    usages := state.usages.insert key .underway
    resolvedCount := state.resolvedCount + 1 }
  let usage ← compute
  modify fun state ↦ { state with usages := state.usages.insert key (.done usage) }
  return usage

/-- The first computation does what the second one does, which counts each usage that it begins once.
Where the second one fails, the first one has forgotten what it was working on. -/
def Tracks (metadata : Metadata) (forgetting keeping : Resolve Result) (state : ResolutionState) :
    Prop :=
  Ensures keeping state
    (fun result kept ↦ forgetting.run.run state = (.ok result, kept) ∧
      state.Begins metadata kept ∧ state.Forgets kept kept)
    fun error kept ↦ ∃ after, forgetting.run.run state = (.error error, after) ∧
      state.Begins metadata kept ∧ state.Forgets kept after

/-- The computation does not touch the memory of usages. -/
def Leaves (computation : Resolve Result) (state : ResolutionState) : Prop :=
  Ensures computation state
    (fun _ after ↦ after.usages = state.usages ∧ after.resolvedCount = state.resolvedCount)
    fun _ after ↦ after.usages = state.usages ∧ after.resolvedCount = state.resolvedCount

namespace Tracks

theorem of_leaves {computation : Resolve Result} (leaves : Leaves computation state) :
    Tracks metadata computation computation state := by
  unfold Leaves Ensures at leaves
  unfold Tracks Ensures
  revert leaves
  rcases computation.run.run state with ⟨_ | _, after⟩
  · rintro ⟨sameUsages, sameCount⟩
    exact ⟨after, rfl, .of_usages_eq sameUsages sameCount, .of_usages_eq sameUsages⟩
  · rintro ⟨sameUsages, sameCount⟩
    exact ⟨rfl, .of_usages_eq sameUsages sameCount, .of_usages_eq sameUsages⟩

theorem pure {result : Result} :
    Tracks metadata (Pure.pure result) (Pure.pure result) state :=
  of_leaves ⟨rfl, rfl⟩

theorem throw {error : LayoutError} :
    Tracks metadata (MonadExcept.throw error : Resolve Result) (MonadExcept.throw error) state :=
  of_leaves ⟨rfl, rfl⟩

/-- After a failure nothing is begun, so that what is forgotten then is not asked for. -/
theorem bind {first keptFirst : Resolve Other} {next keptNext : Other → Resolve Result}
    (tracks : Tracks metadata first keptFirst state)
    (nextTracks : ∀ result middle, Tracks metadata (next result) (keptNext result) middle) :
    Tracks metadata (first >>= next) (keptFirst >>= keptNext) state := by
  refine ensures_bind.mpr (tracks.mono ?_ ?_)
  · rintro result middle ⟨ran, begins, forgets⟩
    have goesOn : (first >>= next).run.run state = (next result).run.run middle := by
      simp only [ExceptT.run_bind, StateT.run_bind, ran]
      rfl
    refine (nextTracks result middle).mono ?_ ?_
    · rintro final kept ⟨ranNext, beginsNext, forgetsNext⟩
      exact ⟨goesOn.trans ranNext, begins.trans beginsNext, forgets.trans forgetsNext⟩
    · rintro error kept ⟨after, ranNext, beginsNext, forgetsNext⟩
      exact ⟨after, goesOn.trans ranNext, begins.trans beginsNext, forgets.trans forgetsNext⟩
  · rintro error kept ⟨after, ran, begins, forgets⟩
    refine ⟨after, ?_, begins, forgets⟩
    simp only [ExceptT.run_bind, StateT.run_bind, ran]
    rfl

theorem bind_leaves {first keptFirst : Resolve Other} {next : Other → Resolve Result}
    (tracks : Tracks metadata first keptFirst state)
    (leaves : ∀ result middle, Leaves (next result) middle) :
    Tracks metadata (first >>= next) (keptFirst >>= next) state :=
  tracks.bind fun result middle ↦ .of_leaves (leaves result middle)

theorem bind_pure {first keptFirst : Resolve Other} {change : Other → Result}
    (tracks : Tracks metadata first keptFirst state) :
    Tracks metadata (do return change (← first)) (do return change (← keptFirst)) state :=
  tracks.bind_leaves fun _ _ ↦ ⟨rfl, rfl⟩

theorem bind_lookup {lookup : Except LayoutError Other} {next keptNext : Other → Resolve Result}
    (nextTracks : ∀ found, lookup = .ok found →
      Tracks metadata (next found) (keptNext found) state) :
    Tracks metadata (liftM lookup >>= next) (liftM lookup >>= keptNext) state := by
  cases lookup with
  | error => exact throw
  | ok found => exact nextTracks found rfl

theorem map {first keptFirst : Resolve Other} {change : Other → Result}
    (tracks : Tracks metadata first keptFirst state) :
    Tracks metadata (change <$> first) (change <$> keptFirst) state := by
  rw [← bind_pure_comp, ← bind_pure_comp]
  exact tracks.bind_pure

theorem mapM {compute keptCompute : Other → Resolve Result}
    (tracks : ∀ source state, Tracks metadata (compute source) (keptCompute source) state)
    (sources : List Other) :
    Tracks metadata (sources.mapM compute) (sources.mapM keptCompute) state := by
  induction sources generalizing state with
  | nil => exact .pure
  | cons source rest ih =>
    rw [List.mapM_cons, List.mapM_cons]
    exact .bind (tracks source state) fun _ _ ↦ .bind_pure ih

/-- Both come to the same. -/
theorem exists_kept {forgetting keeping : Resolve Result}
    (tracks : Tracks metadata forgetting keeping state) :
    ∃ kept, keeping.run.run state = ((forgetting.run.run state).1, kept) ∧
      state.Begins metadata kept ∧ state.Forgets kept (forgetting.run.run state).2 := by
  unfold Tracks Ensures at tracks
  revert tracks
  rcases keeping.run.run state with ⟨error | result, kept⟩
  · rintro ⟨after, ran, begins, forgets⟩
    exact ⟨kept, by rw [ran], begins, by rwa [ran]⟩
  · rintro ⟨ran, begins, forgets⟩
    exact ⟨kept, by rw [ran], begins, by rwa [ran]⟩

theorem begins_of_run_eq_ok {forgetting keeping : Resolve Result} {result : Result}
    {after : ResolutionState} (tracks : Tracks metadata forgetting keeping state)
    (ran : forgetting.run.run state = (.ok result, after)) : state.Begins metadata after := by
  unfold Tracks Ensures at tracks
  revert tracks
  rcases keeping.run.run state with ⟨error | result, kept⟩
  · rintro ⟨other, failed, -⟩
    exact nomatch ran.symm.trans failed
  · rintro ⟨same, begins, -⟩
    cases ran.symm.trans same
    exact begins

end Tracks

/-- The recursive calls, of which the first one forgets what fails. -/
def TracksParts (metadata : Metadata) (forgetting keeping : ResolveParts) : Prop :=
  ∀ type context mode state,
    Tracks metadata (forgetting type context mode) (keeping type context mode) state

theorem leaves_builtin (kind : TypeKind) : Leaves (builtin kind) state := by
  unfold Leaves builtin
  rw [ensures_bind, ensures_get]
  split <;> exact ⟨rfl, rfl⟩

theorem leaves_parameter (index : Index .genericParameters) :
    Leaves (parameter metadata index) state := by
  unfold Leaves parameter
  rw [ensures_bind, ensures_get]
  split
  · exact ⟨rfl, rfl⟩
  · rw [ensures_bind, ensures_lookup]
    exact ⟨fun _ _ ↦ ⟨rfl, rfl⟩, fun _ _ ↦ ⟨rfl, rfl⟩⟩

/-- A usage that fails is forgotten together with what has failed inside of it. -/
theorem tracks_usageOnce {key : UsageKey} {compute keptCompute : Resolve Usage}
    (fresh : state.usages[key]? = none) (isNormal : metadata.normal key = key)
    (tracks : ∀ state, Tracks metadata compute keptCompute state) :
    Tracks metadata (usageOnce key compute) (usageKept key keptCompute) state := by
  have begun := ResolutionState.begins_usage fresh isNormal
  unfold Tracks usageKept usageOnce
  rw [run_modify_bind, ensures_bind, ensures_modify, ensures_bind]
  refine (tracks _).mono ?_ ?_
  · rintro usage middle ⟨ran, begins, forgets⟩
    rw [ensures_bind, ensures_modify, ensures_pure]
    refine ⟨?_, (begun.trans begins).done (begins.remain key ?_),
      ResolutionState.forgets_self_iff.mpr fun other ↦ ?_⟩
    · simp only [ExceptT.run_bind, StateT.run_bind, run_tryCatch, ran]
      rfl
    · exact Std.TreeMap.mem_insert_self
    · have same_iff := ResolutionState.forgets_self_iff.mp forgets other
      rw [getElem?_insert_eq] at same_iff ⊢
      by_cases same : key = other
      · simp [← same, fresh]
      · rwa [if_neg same] at same_iff ⊢
  · rintro error kept ⟨after, ran, begins, forgets⟩
    refine ⟨{ after with usages := after.usages.erase key }, ?_, begun.trans begins, ?_, ?_, ?_⟩
    · simp only [ExceptT.run_bind, StateT.run_bind, run_tryCatch, ran]
      rfl
    · intro other isUnderway
      refine forgets.underway other ?_
      rw [getElem?_insert_eq, isUnderway]
      split <;> rfl
    · intro other
      have usages := forgets.usages other
      have isUnderway := forgets.underway other
      rw [getElem?_insert_eq] at usages isUnderway
      rw [getElem?_erase_eq]
      split
      next same =>
        rw [if_pos same] at isUnderway
        rw [if_pos ⟨isUnderway rfl, by simp [← same, fresh]⟩]
      next different => rw [usages, if_neg different]
    · rw [forgets.others]

/-- Definitions that fail are forgotten in either case. -/
theorem tracks_definitionOnce {definition : Index .typeDefinitions}
    {compute keptCompute : Resolve DescriptorId}
    (tracks : ∀ state, Tracks metadata compute keptCompute state) :
    Tracks metadata (definitionOnce definition compute) (definitionOnce definition keptCompute)
      state := by
  unfold Tracks definitionOnce
  rw [run_modify_bind, ensures_bind, ensures_modify, ensures_bind, ensures_tryCatch]
  refine (tracks _).mono ?_ ?_
  · rintro id middle ⟨ran, begins, forgets⟩
    rw [ensures_bind, ensures_modify, ensures_pure]
    refine ⟨?_, ⟨begins.count, begins.remain, begins.normal⟩,
      ⟨forgets.underway, forgets.usages, rfl⟩⟩
    simp only [ExceptT.run_bind, StateT.run_bind, run_tryCatch, ran]
    rfl
  · rintro error kept ⟨after, ran, begins, forgets⟩
    rw [ensures_bind, ensures_modify, ensures_throw]
    refine ⟨{ after with definitions := after.definitions.erase definition }, ?_,
      ⟨begins.count, begins.remain, begins.normal⟩, forgets.underway, forgets.usages, ?_⟩
    · simp only [ExceptT.run_bind, StateT.run_bind, run_tryCatch, ran]
      rfl
    · rw [forgets.others]

end Resolve

namespace Linkage

open Resolve

variable {linkage : Linkage} {resolveParts keptParts : ResolveParts} {state : ResolutionState}

theorem tracks_declaringDescriptor? (tracks : TracksParts linkage.metadata resolveParts keptParts)
    (record : TypeDefinition) :
    Tracks linkage.metadata (record.declaringDescriptor? resolveParts)
      (record.declaringDescriptor? keptParts) state := by
  unfold TypeDefinition.declaringDescriptor?
  cases record.declaringType.present? with
  | none => exact .pure
  | some declaring => exact .map (.bind_pure (tracks declaring .empty .name state))

theorem tracks_describeWith (tracks : TracksParts linkage.metadata resolveParts keptParts)
    (definition : Index .typeDefinitions) :
    Tracks linkage.metadata (linkage.describeWith resolveParts definition)
      (linkage.describeWith keptParts definition) state := by
  unfold Tracks describeWith
  rw [run_get_bind, ensures_bind, ensures_get]
  split
  next => exact Tracks.pure
  next => exact Tracks.throw
  next =>
    refine tracks_definitionOnce fun state ↦ ?_
    unfold buildDefinition
    refine .bind_lookup fun record _ ↦ .bind (tracks_declaringDescriptor? tracks record) ?_
    intro declaringType? middle
    refine .of_leaves ?_
    unfold Leaves
    rw [ensures_bind, uniqueName, ensures_modifyGet, ensures_bind, ensures_lookup]
    exact ⟨fun _ _ ↦ ⟨rfl, rfl⟩, fun _ _ ↦ ⟨rfl, rfl⟩⟩

theorem tracks_buildInstantiation (tracks : TracksParts linkage.metadata resolveParts keptParts)
    (genericClass : Index .genericClasses) (definition : Index .typeDefinitions)
    (context : GenericContext) :
    Tracks linkage.metadata
      (linkage.buildInstantiation resolveParts genericClass definition context)
      (linkage.buildInstantiation keptParts genericClass definition context) state := by
  refine .bind (tracks_describeWith tracks definition) fun openId middle ↦ ?_
  refine .bind_lookup fun arguments _ ↦ .bind_leaves ?_ fun _ _ ↦ ⟨rfl, rfl⟩
  exact .mapM (fun argument state ↦ tracks argument context .name state) arguments

theorem tracks_follow (tracks : TracksParts linkage.metadata resolveParts keptParts)
    (recipe : Recipe) :
    Tracks linkage.metadata (linkage.follow resolveParts recipe) (linkage.follow keptParts recipe)
      state := by
  cases recipe with
  | builtin kind => exact .bind_pure (.of_leaves (leaves_builtin kind))
  | parameter parameter => exact .bind_pure (.of_leaves (leaves_parameter parameter))
  | replaced part => exact tracks part.type part.context part.mode state
  | pointer part | array _ part => exact .bind_pure (tracks part.type part.context part.mode state)
  | definition definition => exact .bind_pure (tracks_describeWith tracks definition)
  | undefined genericClass =>
    refine .bind (.of_leaves ⟨rfl, rfl⟩) fun _ _ ↦ ?_
    exact .bind_pure (.of_leaves (leaves_builtin .object))
  | instantiation genericClass definition context =>
    exact .bind_pure (tracks_buildInstantiation tracks genericClass definition context)

theorem tracks_expand (tracks : TracksParts linkage.metadata resolveParts keptParts) (key : UsageKey)
    {reference : TypeReference}
    (isReference : linkage.metadata.typeReference key.type = .ok reference) :
    Tracks linkage.metadata (linkage.expand resolveParts key.type reference key.context key.mode)
      (linkage.expand keptParts key.type reference key.context key.mode) state := by
  rw [expand_eq key isReference, expand_eq key isReference]
  exact .bind_lookup fun recipe _ ↦ tracks_follow tracks recipe

/-- Resolution that never forgets what it has begun. A usage that has failed stays underway, so that
to come across it again would be an error. -/
def resolveKeeping (linkage : Linkage) (room : Nat) (type : Index .types)
    (context : GenericContext) (mode : ResolveMode) : Resolve Usage := do
  let reference ← linkage.metadata.typeReference type
  let context := if reference.kind.dependsOnContext then context else .empty
  match (← get).usages[(⟨type, context, mode⟩ : UsageKey)]? with
  | some (.done usage) => return usage
  | some .underway => throw (.nonTerminating .types type.raw)
  | none =>
    match room with
    | 0 => throw (.tooDeep type.raw maxNesting)
    | room + 1 =>
      Resolve.usageKept ⟨type, context, mode⟩
        (linkage.expand (linkage.resolveKeeping room) type reference context mode)

/-- Only a usage that is not known is begun. -/
theorem tracks_remembered {metadata : Metadata} {key : UsageKey} {compute keptCompute : Resolve Usage}
    {error : LayoutError}
    (tracks : state.usages[key]? = none → Tracks metadata compute keptCompute state) :
    Tracks metadata
      (do
        match (← get).usages[key]? with
        | some (.done usage) => return usage
        | some .underway => throw error
        | none => compute)
      (do
        match (← get).usages[key]? with
        | some (.done usage) => return usage
        | some .underway => throw error
        | none => keptCompute) state := by
  unfold Tracks
  rw [run_get_bind, ensures_bind, ensures_get]
  split
  next => exact Tracks.pure
  next => exact Tracks.throw
  next fresh => exact tracks fresh

/-- A failure ends the whole resolution, so that what has been forgotten is not begun again. -/
theorem tracks_resolveWithin (room : Nat) :
    TracksParts linkage.metadata (linkage.resolveWithin room) (linkage.resolveKeeping room) := by
  induction room with
  | zero =>
    intro type context mode state
    unfold resolveWithin resolveKeeping
    refine .bind_lookup fun reference isReference ↦ ?_
    exact tracks_remembered fun _ ↦ .throw
  | succ room ih =>
    intro type context mode state
    unfold resolveWithin resolveKeeping
    refine .bind_lookup fun reference isReference ↦ tracks_remembered fun fresh ↦ ?_
    refine tracks_usageOnce fresh ?_ fun state ↦ tracks_expand ih ⟨_, _, _⟩ isReference
    rw [Metadata.normal_eq isReference]
    split <;> rfl

theorem tracks_answerWith (tracks : TracksParts linkage.metadata resolveParts keptParts)
    (call : Call) :
    Tracks linkage.metadata (linkage.answerWith resolveParts call)
      (linkage.answerWith keptParts call) state := by
  cases call with
  | resolve type context mode => exact tracks type context mode state
  | describe definition => exact tracks_describeWith tracks definition
  | definitionUsage definition mode =>
    refine .bind_lookup fun type? _ ↦ ?_
    cases type? with
    | none => exact .bind_pure (tracks_describeWith tracks definition)
    | some type =>
      refine .bind_lookup fun reference _ ↦ ?_
      split
      · exact .bind_pure (tracks_describeWith tracks definition)
      · exact tracks type .empty mode state
  | instantiationText index =>
    refine .bind_lookup fun instantiation _ ↦ .bind_pure (.mapM (fun argument state ↦ ?_) _)
    exact .bind_leaves (tracks argument .empty .name state) fun _ _ ↦ ⟨rfl, rfl⟩

/-- A call does what it would do if it forgot nothing. -/
theorem tracks_answer (call : Call) :
    Tracks linkage.metadata (linkage.answer call)
      (linkage.answerWith (linkage.resolveKeeping maxNesting) call) state :=
  tracks_answerWith (tracks_resolveWithin maxNesting) call

theorem lasts_answer (call : Call) : Lasts linkage.metadata (linkage.answer call) state := by
  cases call with
  | resolve type context mode => exact lasts_resolveWithin maxNesting type context mode
  | describe definition => exact lasts_describeWith remembers_resolve definition
  | definitionUsage definition mode =>
    refine .bind_lookup fun type? _ ↦ ?_
    cases type? with
    | none => exact .bind_pure (lasts_describeWith remembers_resolve definition)
    | some type =>
      refine .bind_lookup fun reference _ ↦ ?_
      split
      · exact .bind_pure (lasts_describeWith remembers_resolve definition)
      · exact lasts_resolveWithin maxNesting type .empty mode
  | instantiationText index => exact lasts_instantiationText index

/-- Calls that have been made one after the other from the start, none of which has failed, with what
each has come to, and the state after them. -/
inductive Performs (linkage : Linkage) :
    List (Σ call : Call, call.Answer) → ResolutionState → Prop
  | start : Performs linkage [] .empty
  | call {answered : List (Σ call : Call, call.Answer)} {state after : ResolutionState}
    {call : Call} {answer : call.Answer} (performs : Performs linkage answered state)
    (ran : (linkage.answer call).run.run state = (.ok answer, after)) :
    Performs linkage (answered ++ [⟨call, answer⟩]) after

section Performs

variable {answered : List (Σ call : Call, call.Answer)} {after : ResolutionState}

theorem stateAfter_eq_of_run {call : Call} {outcome : Except LayoutError call.Answer}
    (ran : (linkage.answer call).run.run state = (outcome, after)) :
    linkage.stateAfter state call = after := by
  rw [stateAfter_eq, ran]

theorem Performs.reachable (performs : linkage.Performs answered state) :
    linkage.Reachable state := by
  induction performs with
  | start => exact .fresh
  | call _ ran ih => exact stateAfter_eq_of_run ran ▸ ih.call _

/-- Each call counts what is new. -/
theorem Performs.begins (performs : linkage.Performs answered state) :
    ResolutionState.empty.Begins linkage.metadata state := by
  induction performs with
  | start => exact .of_usages_eq rfl rfl
  | call _ ran ih => exact ih.trans ((tracks_answer _).begins_of_run_eq_ok ran)

/-- What a call has come to, it comes to again at any later time. -/
theorem Performs.returns (performs : linkage.Performs answered state)
    {entry : Σ call : Call, call.Answer} (mem : entry ∈ answered) :
    ∀ later, state.Extends later → Returns (linkage.answer entry.1) later entry.2 := by
  induction performs with
  | start => exact absurd mem List.not_mem_nil
  | @call answered state after call answer performs ran ih =>
    intro later extend
    obtain mem | isLast := List.mem_append.mp mem
    · have faithful := performs.reachable.faithful
      have grows := (stateAfter_faithful faithful call).2
      rw [stateAfter_eq_of_run ran] at grows
      exact ih mem later (grows.toExtends.trans extend)
    · obtain rfl := List.mem_singleton.mp isLast
      exact (lasts_answer call performs.reachable.faithful).of_run_eq_ok ran later extend

end Performs

/-- **Every usage is computed once.** After calls that have not failed, the count is the number of
usages in the memory, each of which is there without a context that it cannot depend on, and each of
the calls would look its result up and leave the state as it is. And any call, whether it fails or
not, does what one does that forgets nothing: it counts each usage that it begins once. -/
theorem usages_begun_once (linkage : Linkage) :
    (∀ answered state, linkage.Performs answered state →
      state.resolvedCount = state.usages.size ∧
      (∀ key ∈ state.usages, linkage.metadata.normal key = key ∧
        ∃ usage, state.usages[key]? = some (.done usage)) ∧
      ∀ entry ∈ answered, (linkage.answer entry.1).run.run state = (.ok entry.2, state)) ∧
    ∀ state call, ∃ kept,
      (linkage.answerWith (linkage.resolveKeeping maxNesting) call).run.run state =
        (((linkage.answer call).run.run state).1, kept) ∧
      state.Begins linkage.metadata kept ∧ state.Forgets kept (linkage.stateAfter state call) := by
  refine ⟨fun answered state performs ↦ ⟨?_, fun key mem ↦ ⟨?_, ?_⟩, fun entry mem ↦ ?_⟩,
    fun state call ↦ ?_⟩
  · have count := performs.begins.count
    simpa [ResolutionState.empty] using count
  · exact performs.begins.normal key mem Std.TreeMap.not_mem_emptyc
  · have notUnderway := performs.reachable.not_isUnderway (.usage key)
    obtain ⟨progress, isProgress⟩ :=
      Option.isSome_iff_exists.mp (Std.TreeMap.mem_iff_isSome_getElem?.mp mem)
    cases progress with
    | underway => exact absurd isProgress notUnderway
    | done usage => exact ⟨usage, isProgress⟩
  · exact returns_iff.mp (performs.returns mem state .refl)
  · rw [stateAfter_eq]
    exact (tracks_answer call).exists_kept

/-- The array of `T` and `T` itself are arguments of the generic class, so that the array is in the
memory when it is asked for. -/
theorem triples_usages_begun_once : ∃ state,
    triples.Performs
        [⟨.resolve ⟨5⟩ ⟨some ⟨1⟩, none⟩ .value, ⟨⟨4⟩, 0, []⟩⟩,
          ⟨.resolve ⟨2⟩ ⟨some ⟨1⟩, none⟩ .name, ⟨⟨1⟩, 0, [⟨.vector, 0⟩]⟩⟩] state ∧
      state.resolvedCount = 8 ∧ state.usages.size = 8 ∧
      (triples.answer (.resolve ⟨5⟩ ⟨some ⟨1⟩, none⟩ .value)).run.run state =
        (.ok ⟨⟨4⟩, 0, []⟩, state) := by
  have first : ((triples.answer (.resolve ⟨5⟩ ⟨some ⟨1⟩, none⟩ .value)).run.run .empty).1 =
      .ok ⟨⟨4⟩, 0, []⟩ := by
    decide +kernel
  have second : ((triples.answer (.resolve ⟨2⟩ ⟨some ⟨1⟩, none⟩ .name)).run.run
      ((triples.answer (.resolve ⟨5⟩ ⟨some ⟨1⟩, none⟩ .value)).run.run .empty).2).1 =
        .ok ⟨⟨1⟩, 0, [⟨.vector, 0⟩]⟩ := by
    decide +kernel
  have performs : triples.Performs _ _ :=
    (Performs.start.call (run_eq_of_fst_eq first)).call (run_eq_of_fst_eq second)
  obtain ⟨isSize, -, again⟩ := (usages_begun_once triples).1 _ _ performs
  have count : ((triples.answer (.resolve ⟨2⟩ ⟨some ⟨1⟩, none⟩ .name)).run.run
      ((triples.answer (.resolve ⟨5⟩ ⟨some ⟨1⟩, none⟩ .value)).run.run .empty).2).2.resolvedCount =
        8 := by
    decide +kernel
  exact ⟨_, performs, count, isSize.symm.trans count, again _ List.mem_cons_self⟩

end Linkage

end ManagedLayout
