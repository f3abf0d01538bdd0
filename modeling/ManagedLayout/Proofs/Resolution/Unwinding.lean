import ManagedLayout.Proofs.Resolution.Retry
import Mathlib.Data.List.Perm.Basic

/-!
# Calls that fail

Whatever a call comes to, it finishes what it has begun: nothing is underway when it returns, and how
many usages are underway inside each other while it runs is bounded. The resolution itself is told
how much room is left for nesting; it is shown here to do the same as one that counts what is
underway and compares the count with the limit.
-/

namespace ManagedLayout

namespace ResolutionState

variable {before after state : ResolutionState} {key : UsageKey}

/-- The usages that are being worked on. -/
def underway (state : ResolutionState) : List UsageKey :=
  state.usages.keys.filter fun key ↦ state.usages[key]? = some .underway

/-- How many usages are being worked on inside each other. -/
def depth (state : ResolutionState) : Nat := state.underway.length

theorem mem_underway : key ∈ state.underway ↔ state.usages[key]? = some .underway := by
  simp only [underway, List.mem_filter, Std.TreeMap.mem_keys, decide_eq_true_eq]
  refine ⟨And.right, fun isUnderway ↦ ⟨?_, isUnderway⟩⟩
  exact Std.TreeMap.mem_iff_isSome_getElem?.mpr (by rw [isUnderway]; rfl)

theorem nodup_underway (state : ResolutionState) : state.underway.Nodup := by
  refine List.Pairwise.filter _ (Std.TreeMap.distinct_keys.imp ?_)
  rintro key _ different rfl
  exact different Std.ReflCmp.compare_self

/-- The depth depends only on what is underway. -/
theorem depth_eq_of_iff
    (same : ∀ key : UsageKey, after.usages[key]? = some .underway ↔
      before.usages[key]? = some .underway) : after.depth = before.depth := by
  refine List.Perm.length_eq ((List.perm_ext_iff_of_nodup after.nodup_underway
    before.nodup_underway).mpr fun key ↦ ?_)
  rw [mem_underway, mem_underway, same]

theorem Grows.depth_eq (grows : before.Grows after) : after.depth = before.depth :=
  depth_eq_of_iff grows.usagesUnderway

theorem depth_begin_usage {count : Nat} (fresh : state.usages[key]? = none) :
    { state with
        usages := state.usages.insert key .underway
        resolvedCount := count }.depth = state.depth + 1 := by
  have isNew : (key :: state.underway).Nodup := by
    refine List.nodup_cons.mpr ⟨?_, state.nodup_underway⟩
    rw [mem_underway, fresh]
    exact nofun
  refine List.Perm.length_eq <|
    (List.perm_ext_iff_of_nodup (nodup_underway _) isNew).mpr fun other ↦ ?_
  rw [mem_underway, getElem?_insert_eq, List.mem_cons, mem_underway]
  grind

end ResolutionState

namespace Resolve

variable {Result Other : Type} {metadata : Metadata} {state : ResolutionState} {depth : Nat}

/-- Where so many usages are underway, the two computations do the same. -/
def Agree (metadata : Metadata) (depth : Nat) (first second : Resolve Result)
    (state : ResolutionState) : Prop :=
  state.Faithful metadata → state.depth = depth → first.run.run state = second.run.run state

namespace Agree

theorem refl {computation : Resolve Result} : Agree metadata depth computation computation state :=
  fun _ _ ↦ rfl

theorem bind {first second : Resolve Other} {next otherNext : Other → Resolve Result}
    {middle : Other → ResolutionState → Prop} (agree : Agree metadata depth first second state)
    (kept : Keeps metadata second state middle)
    (nextAgree : ∀ result after, Agree metadata depth (next result) (otherNext result) after) :
    Agree metadata depth (first >>= next) (second >>= otherNext) state := by
  intro faithful isDepth
  have ensured := kept faithful
  unfold Ensures at ensured
  simp only [ExceptT.run_bind, StateT.run_bind, agree faithful isDepth]
  revert ensured
  rcases second.run.run state with ⟨_ | result, after⟩
  · exact fun _ ↦ rfl
  · intro ensured
    obtain ⟨faithful, grows, -⟩ := ensured
    exact nextAgree result after faithful (grows.depth_eq.trans isDepth)

theorem bind_lookup {lookup : Except LayoutError Other} {next otherNext : Other → Resolve Result}
    (nextAgree : ∀ found, lookup = .ok found →
      Agree metadata depth (next found) (otherNext found) state) :
    Agree metadata depth (liftM lookup >>= next) (liftM lookup >>= otherNext) state := by
  cases lookup with
  | error => exact .refl
  | ok found => exact nextAgree found rfl

/-- What comes last may leave any state behind. -/
theorem bind_last {first second : Resolve Other} {next : Other → Resolve Result}
    (agree : Agree metadata depth first second state) :
    Agree metadata depth (first >>= next) (second >>= next) state := by
  intro faithful isDepth
  simp only [ExceptT.run_bind, StateT.run_bind, agree faithful isDepth]

theorem map {first second : Resolve Other} {change : Other → Result}
    (agree : Agree metadata depth first second state) :
    Agree metadata depth (change <$> first) (change <$> second) state := by
  rw [← bind_pure_comp, ← bind_pure_comp]
  exact agree.bind_last

theorem mapM {compute other : Other → Resolve Result}
    {holds : Other → Result → ResolutionState → Prop}
    (kept : ∀ source state, Keeps metadata (other source) state (holds source))
    (agree : ∀ source state, Agree metadata depth (compute source) (other source) state)
    (sources : List Other) :
    Agree metadata depth (sources.mapM compute) (sources.mapM other) state := by
  induction sources generalizing state with
  | nil => exact .refl
  | cons source rest ih =>
    rw [List.mapM_cons, List.mapM_cons]
    exact .bind (agree source state) (kept source state) fun _ _ ↦ .bind_last ih

end Agree

/-- Where so many usages are underway, the two recursive calls do the same. -/
def AgreeParts (metadata : Metadata) (depth : Nat) (resolveParts otherParts : ResolveParts) : Prop :=
  ∀ type context mode state,
    Agree metadata depth (resolveParts type context mode) (otherParts type context mode) state

/-- A computation that starts by changing the state runs as what follows, from the changed state. -/
theorem run_modify_bind {change : ResolutionState → ResolutionState} {next : Unit → Resolve Result} :
    (modify change >>= next).run.run state = (next ()).run.run (change state) := rfl

theorem run_get_bind {next : ResolutionState → Resolve Result} :
    (get >>= next).run.run state = (next state).run.run state := rfl

theorem run_tryCatch_bind_congr {first second : Resolve Other}
    {handle : LayoutError → Resolve Other} {next : Other → Resolve Result}
    (same : first.run.run state = second.run.run state) :
    (tryCatch first handle >>= next).run.run state =
      (tryCatch second handle >>= next).run.run state := by
  simp only [ExceptT.run_bind, StateT.run_bind, run_tryCatch, same]

/-- A usage that is begun is one more that is underway. -/
theorem agree_usageOnce {key : UsageKey} {first second : Resolve Usage}
    (fresh : state.usages[key]? = none)
    (agree : ∀ state, Agree metadata (depth + 1) first second state) :
    Agree metadata depth (usageOnce key first) (usageOnce key second) state := by
  intro faithful isDepth
  unfold usageOnce
  rw [run_modify_bind, run_modify_bind]
  refine run_tryCatch_bind_congr (agree _ (faithful.begin_usage fresh).1 ?_)
  rw [ResolutionState.depth_begin_usage fresh, isDepth]

theorem agree_definitionOnce {definition : Index .typeDefinitions}
    {first second : Resolve DescriptorId} (fresh : state.definitions[definition]? = none)
    (agree : ∀ state, Agree metadata depth first second state) :
    Agree metadata depth (definitionOnce definition first) (definitionOnce definition second)
      state := by
  intro faithful isDepth
  unfold definitionOnce
  rw [run_modify_bind, run_modify_bind]
  exact run_tryCatch_bind_congr (agree _ (faithful.begin_definition fresh).1 isDepth)

end Resolve

namespace Linkage

open Resolve

variable {linkage : Linkage} {resolveParts otherParts : ResolveParts} {state : ResolutionState}
  {depth : Nat}

theorem agree_declaringDescriptor?
    (agree : AgreeParts linkage.metadata depth resolveParts otherParts) (record : TypeDefinition) :
    Agree linkage.metadata depth (record.declaringDescriptor? resolveParts)
      (record.declaringDescriptor? otherParts) state := by
  unfold TypeDefinition.declaringDescriptor?
  cases record.declaringType.present? with
  | none => exact .refl
  | some declaring => exact .map (.bind_last (agree declaring .empty .name state))

theorem agree_describeWith (agree : AgreeParts linkage.metadata depth resolveParts otherParts)
    (definition : Index .typeDefinitions) :
    Agree linkage.metadata depth (linkage.describeWith resolveParts definition)
      (linkage.describeWith otherParts definition) state := by
  intro faithful isDepth
  unfold describeWith
  rw [run_get_bind, run_get_bind]
  split
  next => rfl
  next => rfl
  next fresh =>
    refine agree_definitionOnce fresh (fun state ↦ ?_) faithful isDepth
    unfold buildDefinition
    exact .bind_lookup fun record _ ↦ .bind_last (agree_declaringDescriptor? agree record)

theorem agree_buildInstantiation (agree : AgreeParts linkage.metadata depth resolveParts otherParts)
    (remembers : Remembers linkage.metadata otherParts) (genericClass : Index .genericClasses)
    (definition : Index .typeDefinitions) (context : GenericContext) :
    Agree linkage.metadata depth
      (linkage.buildInstantiation resolveParts genericClass definition context)
      (linkage.buildInstantiation otherParts genericClass definition context) state := by
  refine .bind (agree_describeWith agree definition) (keeps_describeWith remembers definition)
    fun openId middle ↦ ?_
  refine .bind_lookup fun arguments _ ↦ .bind_last ?_
  exact .mapM (fun argument state ↦ remembers argument context .name state)
    (fun argument state ↦ agree argument context .name state) arguments

theorem agree_follow (agree : AgreeParts linkage.metadata depth resolveParts otherParts)
    (remembers : Remembers linkage.metadata otherParts) (recipe : Recipe) :
    Agree linkage.metadata depth (linkage.follow resolveParts recipe)
      (linkage.follow otherParts recipe) state := by
  cases recipe with
  | builtin | parameter | undefined => exact .refl
  | replaced part => exact agree part.type part.context part.mode state
  | pointer part | array _ part => exact .bind_last (agree part.type part.context part.mode state)
  | definition definition => exact .bind_last (agree_describeWith agree definition)
  | instantiation genericClass definition context =>
    exact .bind_last (agree_buildInstantiation agree remembers genericClass definition context)

theorem agree_expand (agree : AgreeParts linkage.metadata depth resolveParts otherParts)
    (remembers : Remembers linkage.metadata otherParts) (key : UsageKey)
    {reference : TypeReference}
    (isReference : linkage.metadata.typeReference key.type = .ok reference) :
    Agree linkage.metadata depth
      (linkage.expand resolveParts key.type reference key.context key.mode)
      (linkage.expand otherParts key.type reference key.context key.mode) state := by
  rw [expand_eq key isReference, expand_eq key isReference]
  exact .bind_lookup fun recipe _ ↦ agree_follow agree remembers recipe

/-- Resolution that counts what is underway, instead of being told how much room is left: with as
many usages underway as there may be it does not begin another one. Should more be underway, or the
recursion have more levels than given, then it does something else. -/
def resolveCounting (linkage : Linkage) (exceeded : ResolveParts) : (levels : Nat) → ResolveParts
  | 0, type, context, mode => exceeded type context mode
  | levels + 1, type, context, mode => do
    let reference ← linkage.metadata.typeReference type
    let context := if reference.kind.dependsOnContext then context else .empty
    match (← get).usages[(⟨type, context, mode⟩ : UsageKey)]? with
    | some (.done usage) => return usage
    | some .underway => throw (.nonTerminating .types type.raw)
    | none =>
      if maxNesting ≤ (← get).depth then throw (.tooDeep type.raw maxNesting)
      else
        Resolve.usageOnce ⟨type, context, mode⟩ do
          if maxNesting < (← get).depth then exceeded type context mode
          else linkage.expand (linkage.resolveCounting exceeded levels) type reference context mode

theorem agree_remembered {metadata : Metadata} {key : UsageKey} {first second : Resolve Usage}
    {error : LayoutError}
    (agree : state.usages[key]? = none → Agree metadata depth first second state) :
    Agree metadata depth
      (do
        match (← get).usages[key]? with
        | some (.done usage) => return usage
        | some .underway => throw error
        | none => first)
      (do
        match (← get).usages[key]? with
        | some (.done usage) => return usage
        | some .underway => throw error
        | none => second) state := by
  intro faithful isDepth
  rw [run_get_bind, run_get_bind]
  split
  next => rfl
  next => rfl
  next fresh => exact agree fresh faithful isDepth

/-- The count and the room that is left add up to the limit. -/
theorem agree_resolveCounting (exceeded : ResolveParts) {room : Nat}
    (together : depth + room = maxNesting) :
    AgreeParts linkage.metadata depth (linkage.resolveCounting exceeded (room + 1))
      (linkage.resolveWithin room) := by
  induction room generalizing depth with
  | zero =>
    intro type context mode state
    unfold resolveCounting resolveWithin
    refine .bind_lookup fun reference isReference ↦ ?_
    refine agree_remembered fun fresh faithful isDepth ↦ ?_
    rw [run_get_bind, if_pos (by omega)]
  | succ room ih =>
    intro type context mode state
    unfold resolveCounting resolveWithin
    refine .bind_lookup fun reference isReference ↦ ?_
    refine agree_remembered fun fresh faithful isDepth ↦ ?_
    rw [run_get_bind, if_neg (by omega)]
    -- With the mark on the usage, one more is underway, and there is room for one less.
    refine agree_usageOnce fresh (fun state faithful isDepth ↦ ?_) faithful isDepth
    rw [run_get_bind, if_neg (by omega)]
    exact agree_expand (ih (by omega)) (remembers_resolveWithin room) ⟨_, _, _⟩ isReference faithful
      isDepth

/-- What a call has as its result. -/
abbrev Call.Answer : Call → Type
  | .resolve .. | .definitionUsage .. => Usage
  | .describe _ => DescriptorId
  | .instantiationText _ => String

/-- What a call does, with any way of resolving type references. -/
def answerWith (linkage : Linkage) (resolveParts : ResolveParts) :
    (call : Call) → Resolve call.Answer
  | .resolve type context mode => resolveParts type context mode
  | .describe definition => linkage.describeWith resolveParts definition
  | .definitionUsage definition mode => do
    match ← linkage.typeForDefinition? definition with
    | some type =>
      let reference ← linkage.metadata.typeReference type
      if reference.kind.isBuiltin then
        return .plain (← linkage.describeWith resolveParts definition)
      else resolveParts type .empty mode
    | none => return .plain (← linkage.describeWith resolveParts definition)
  | .instantiationText index => do
    let instantiation ← linkage.metadata.genericInstantiation index
    let texts ← instantiation.arguments.toList.mapM fun argument ↦ do
      let usage ← resolveParts argument .empty .name
      return (← get).usageText usage false
    return "<" ++ ", ".intercalate texts ++ ">"

/-- What a call does. -/
def answer (linkage : Linkage) (call : Call) : Resolve call.Answer :=
  linkage.answerWith linkage.resolve call

theorem stateAfter_eq (call : Call) :
    linkage.stateAfter state call = ((linkage.answer call).run.run state).2 := by
  cases call <;> rfl

theorem keeps_argumentText (remembers : Remembers linkage.metadata resolveParts)
    (argument : Index .types) :
    Keeps linkage.metadata
      (do
        let usage ← resolveParts argument .empty .name
        return (← get).usageText usage false) state fun _ _ ↦ True :=
  .bind (remembers argument .empty .name state) fun _ _ _ _ _ ↦ .bind_get (.pure trivial)

theorem agree_answerWith (agree : AgreeParts linkage.metadata depth resolveParts otherParts)
    (remembers : Remembers linkage.metadata otherParts) (call : Call) :
    Agree linkage.metadata depth (linkage.answerWith resolveParts call)
      (linkage.answerWith otherParts call) state := by
  cases call with
  | resolve type context mode => exact agree type context mode state
  | describe definition => exact agree_describeWith agree definition
  | definitionUsage definition mode =>
    refine .bind_lookup fun type? _ ↦ ?_
    cases type? with
    | none => exact .bind_last (agree_describeWith agree definition)
    | some type =>
      refine .bind_lookup fun reference _ ↦ ?_
      split
      · exact .bind_last (agree_describeWith agree definition)
      · exact agree type .empty mode state
  | instantiationText index =>
    refine .bind_lookup fun instantiation _ ↦ .bind_last ?_
    exact .mapM (fun argument _ ↦ keeps_argumentText remembers argument)
      (fun argument state ↦ .bind_last (agree argument .empty .name state)) _

/-- The spelling of an argument stays the same. -/
theorem lasts_argumentText (argument : Index .types) :
    Lasts linkage.metadata
      (do
        let usage ← linkage.resolve argument .empty .name
        return (← get).usageText usage false) state := by
  intro faithful
  have lasts := lasts_resolveWithin maxNesting argument .empty .name faithful
  refine ensures_bind.mpr (((remembers_resolve argument .empty .name state faithful).and lasts).mono
    ?_ fun _ _ _ ↦ trivial)
  rintro usage after ⟨⟨faithful, -, done⟩, same⟩ later extend
  refine (same later extend).bind ⟨?_, rfl⟩
  exact extend.arena.usageText_eq (faithful.usages _ usage done).stored false

theorem lasts_instantiationText (index : Index .genericInstantiations) :
    Lasts linkage.metadata (linkage.instantiationText index) state := by
  refine .bind_lookup fun instantiation _ ↦ .bind_pure ?_
  exact .mapM (fun argument _ ↦ keeps_argumentText remembers_resolve argument)
    (fun argument _ ↦ lasts_argumentText argument) _

theorem repeats_answer (call : Call) :
    Repeats linkage.metadata (linkage.answer call) state := by
  have again : RepeatsParts linkage.metadata linkage.resolve := repeatsParts_resolveWithin maxNesting
  cases call with
  | resolve type context mode => exact again.repeats type context mode state
  | describe definition => exact repeats_describeWith again remembers_resolve definition
  | definitionUsage definition mode =>
    refine .bind_lookup fun type? _ ↦ ?_
    cases type? with
    | none => exact .bind_pure (repeats_describeWith again remembers_resolve definition)
    | some type =>
      refine .bind_lookup fun reference _ ↦ ?_
      split
      · exact .bind_pure (repeats_describeWith again remembers_resolve definition)
      · exact again.repeats type .empty mode state
  | instantiationText index =>
    refine .bind_lookup fun instantiation _ ↦ .bind_pure ?_
    refine .mapM (fun argument _ ↦ keeps_argumentText remembers_resolve argument)
      (fun argument _ ↦ lasts_argumentText argument) (fun argument state ↦ ?_) _
    exact .bind_never_fails (again.repeats argument .empty .name state) fun _ _ ↦ trivial

/-- Between calls nothing is underway. -/
theorem Reachable.not_isUnderway (reachable : linkage.Reachable state) (task : Task) :
    ¬state.IsUnderway task := by
  rw [reachable.idle.isUnderway_iff]
  cases task <;> simp [ResolutionState.IsUnderway, ResolutionState.empty]

theorem Reachable.depth_eq_zero (reachable : linkage.Reachable state) : state.depth = 0 := by
  refine List.length_eq_zero_iff.mpr (List.eq_nil_iff_forall_not_mem.mpr fun key ↦ ?_)
  rw [ResolutionState.mem_underway]
  exact reachable.not_isUnderway (.usage key)

/-- **Failures unwind.** Between calls nothing is underway. During a call there are never more usages
underway than the limit allows: a resolution that counts them, and does something else if there are
more, does the same. What is done stays as it is, and descriptors only come to the end of the arena;
and a call that fails, and is made again, fails in the same way. -/
theorem calls_unwind (reachable : linkage.Reachable state) (call : Call) :
    (∀ task, ¬state.IsUnderway task) ∧ state.depth = 0 ∧
      (∀ exceeded,
        (linkage.answerWith (linkage.resolveCounting exceeded (maxNesting + 1)) call).run.run state =
          (linkage.answer call).run.run state) ∧
      state.Extends (linkage.stateAfter state call) ∧
      ∀ error, ((linkage.answer call).run.run state).1 = .error error →
        ((linkage.answer call).run.run (linkage.stateAfter state call)).1 = .error error := by
  refine ⟨reachable.not_isUnderway, reachable.depth_eq_zero, fun exceeded ↦ ?_,
    (stateAfter_faithful reachable.faithful call).2.toExtends, fun error failed ↦ ?_⟩
  · exact agree_answerWith (agree_resolveCounting exceeded (Nat.zero_add _)) remembers_resolve call
      reachable.faithful reachable.depth_eq_zero
  · have repeats := repeats_answer call reachable.faithful
    rw [Ensures, run_eq_of_fst_eq failed, ← stateAfter_eq] at repeats
    exact failsWith_iff.mp (repeats.2 _ .refl)

/-- The array of itself, asked for twice, after a pointer to an integer. -/
theorem samples_unwind :
    samples.Reachable (samples.stateAfter .empty (.resolve ⟨1⟩ .empty .name)) ∧
      ((samples.answer (.resolve ⟨3⟩ .empty .name)).run.run
        (samples.stateAfter (samples.stateAfter .empty (.resolve ⟨1⟩ .empty .name))
          (.resolve ⟨3⟩ .empty .name))).1 = .error (.nonTerminating .types 3) := by
  have reachable : samples.Reachable (samples.stateAfter .empty (.resolve ⟨1⟩ .empty .name)) :=
    .call .fresh _
  refine ⟨reachable, ?_⟩
  exact (calls_unwind reachable (.resolve ⟨3⟩ .empty .name)).2.2.2.2 _ (by decide +kernel)

end Linkage

end ManagedLayout
