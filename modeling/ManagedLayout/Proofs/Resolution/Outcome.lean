import ManagedLayout.Resolution.Spelling

/-!
# Outcomes of a resolution

A resolution ends in a result or in an error, and leaves a state behind in both cases. `Ensures` says
what holds of either outcome. Its rules follow the way in which resolutions are put together, so that
a statement about a resolution becomes one about the states on the way. `Maintains` is the special
case of an invariant of the state.
-/

namespace ManagedLayout

namespace Resolve

variable {Result Other : Type}

/-- From `state`, the computation reaches a result and a state as `done` says, or an error and a
state as `failed` says. -/
def Ensures (computation : Resolve Result) (state : ResolutionState)
    (done : Result → ResolutionState → Prop) (failed : LayoutError → ResolutionState → Prop) :
    Prop :=
  match computation.run.run state with
  | (.ok result, after) => done result after
  | (.error error, after) => failed error after

variable {state : ResolutionState} {done weaker : Result → ResolutionState → Prop}
  {failed weakerFailed : LayoutError → ResolutionState → Prop}

@[simp]
theorem ensures_pure {result : Result} :
    Ensures (pure result) state done failed ↔ done result state := Iff.rfl

@[simp]
theorem ensures_throw {error : LayoutError} :
    Ensures (throw error : Resolve Result) state done failed ↔ failed error state := Iff.rfl

@[simp]
theorem ensures_bind {first : Resolve Other} {next : Other → Resolve Result} :
    Ensures (first >>= next) state done failed ↔
      Ensures first state (fun result after ↦ Ensures (next result) after done failed) failed := by
  unfold Ensures
  simp only [ExceptT.run_bind, StateT.run_bind]
  rcases first.run.run state with ⟨_ | _, _⟩ <;> rfl

@[simp]
theorem ensures_map {first : Resolve Other} {change : Other → Result} :
    Ensures (change <$> first) state done failed ↔
      Ensures first state (fun result after ↦ done (change result) after) failed := by
  rw [← bind_pure_comp, ensures_bind]
  rfl

@[simp]
theorem ensures_get {done : ResolutionState → ResolutionState → Prop} :
    Ensures get state done failed ↔ done state state := Iff.rfl

@[simp]
theorem ensures_modify {change : ResolutionState → ResolutionState}
    {done : Unit → ResolutionState → Prop} :
    Ensures (modify change) state done failed ↔ done () (change state) := Iff.rfl

@[simp]
theorem ensures_modifyGet {change : ResolutionState → Result × ResolutionState} :
    Ensures (modifyGet change) state done failed ↔ done (change state).1 (change state).2 := Iff.rfl

/-- Looking a record up leaves the state as it is. -/
@[simp]
theorem ensures_lookup {lookup : Except LayoutError Result} :
    Ensures (liftM lookup) state done failed ↔
      (∀ result, lookup = .ok result → done result state) ∧
        ∀ error, lookup = .error error → failed error state := by
  cases lookup <;> simp <;> rfl

/-- A handler starts from the state in which the attempt failed. -/
theorem run_tryCatch {attempt : Resolve Result} {handle : LayoutError → Resolve Result} :
    (tryCatch attempt handle).run.run state =
      match attempt.run.run state with
      | (.ok result, after) => (.ok result, after)
      | (.error error, after) => (handle error).run.run after := by
  simp only [tryCatch, tryCatchThe, MonadExceptOf.tryCatch, ExceptT.tryCatch, ExceptT.mk,
    ExceptT.run, StateT.run_bind]
  rcases StateT.run attempt state with ⟨_ | _, _⟩ <;> rfl

@[simp]
theorem ensures_tryCatch {attempt : Resolve Result} {handle : LayoutError → Resolve Result} :
    Ensures (tryCatch attempt handle) state done failed ↔
      Ensures attempt state done
        (fun error after ↦ Ensures (handle error) after done failed) := by
  unfold Ensures
  rw [run_tryCatch]
  rcases attempt.run.run state with ⟨_ | _, _⟩ <;> rfl

theorem Ensures.mono {computation : Resolve Result}
    (ensured : Ensures computation state done failed)
    (onResult : ∀ result after, done result after → weaker result after)
    (onError : ∀ error after, failed error after → weakerFailed error after) :
    Ensures computation state weaker weakerFailed := by
  unfold Ensures at ensured ⊢
  revert ensured
  rcases computation.run.run state with ⟨_ | _, _⟩
  · exact onError _ _
  · exact onResult _ _

theorem Ensures.and {computation : Resolve Result} {other : Result → ResolutionState → Prop}
    {otherFailed : LayoutError → ResolutionState → Prop}
    (first : Ensures computation state done failed)
    (second : Ensures computation state other otherFailed) :
    Ensures computation state (fun result after ↦ done result after ∧ other result after)
      (fun error after ↦ failed error after ∧ otherFailed error after) := by
  unfold Ensures at first second ⊢
  revert first second
  rcases computation.run.run state with ⟨_ | _, _⟩ <;> exact And.intro

theorem Ensures.of_run_eq_ok {computation : Resolve Result} {result : Result}
    {after : ResolutionState} (ensured : Ensures computation state done failed)
    (run : computation.run.run state = (.ok result, after)) : done result after := by
  simpa only [Ensures, run] using ensured

/-- A computation that goes on has a result if both of its parts have one. -/
theorem run_bind_eq_ok_iff {first : Resolve Other} {next : Other → Resolve Result} {result : Result}
    {after : ResolutionState} :
    (first >>= next).run.run state = (.ok result, after) ↔
      ∃ found middle, first.run.run state = (.ok found, middle) ∧
        (next found).run.run middle = (.ok result, after) := by
  rw [ExceptT.run_bind, StateT.run_bind]
  rcases first.run.run state with ⟨_ | found, middle⟩
  · constructor
    · exact fun ran ↦ nomatch ran
    · exact fun ⟨_, _, ran, _⟩ ↦ nomatch ran
  · constructor
    · exact fun ran ↦ ⟨found, middle, rfl, ran⟩
    · rintro ⟨_, _, ⟨⟩, ran⟩
      exact ran

theorem run_eq_of_fst_eq {computation : Resolve Result} {outcome : Except LayoutError Result}
    (same : (computation.run.run state).1 = outcome) :
    computation.run.run state = (outcome, (computation.run.run state).2) := Prod.ext same rfl

variable {invariant : ResolutionState → Prop}

/-- Whether the computation has a result or fails, what holds of the state goes on to hold. -/
def Maintains (invariant : ResolutionState → Prop) (computation : Resolve Result) : Prop :=
  ∀ state, invariant state →
    Ensures computation state (fun _ after ↦ invariant after) fun _ after ↦ invariant after

namespace Maintains

theorem of_after {computation : Resolve Result}
    (maintained : ∀ state, invariant state → invariant (computation.run.run state).2) :
    Maintains invariant computation := by
  intro state holds
  have after := maintained state holds
  unfold Ensures
  split
  all_goals
    next ran =>
      rw [ran] at after
      exact after

theorem pure {result : Result} : Maintains invariant (Pure.pure result) := fun _ holds ↦ holds

theorem throw {error : LayoutError} :
    Maintains invariant (MonadExcept.throw error : Resolve Result) := fun _ holds ↦ holds

theorem changed {change : ResolutionState → ResolutionState}
    (maintains : ∀ state, invariant state → invariant (change state)) :
    Maintains invariant (modify change : Resolve Unit) := fun state holds ↦ maintains state holds

theorem bind {first : Resolve Other} {next : Other → Resolve Result}
    (maintains : Maintains invariant first)
    (nextMaintains : ∀ result, Maintains invariant (next result)) :
    Maintains invariant (first >>= next) :=
  fun state holds ↦ ensures_bind.mpr ((maintains state holds).mono
    (fun result after holds ↦ nextMaintains result after holds) fun _ _ holds ↦ holds)

theorem bind_lookup {lookup : Except LayoutError Other} {next : Other → Resolve Result}
    (maintains : ∀ found, Maintains invariant (next found)) :
    Maintains invariant (liftM lookup >>= next) := by
  cases lookup with
  | error => exact .throw
  | ok found => exact maintains found

theorem bind_get {next : ResolutionState → Resolve Result}
    (maintains : ∀ state, Maintains invariant (next state)) : Maintains invariant (get >>= next) :=
  fun state holds ↦ ensures_bind.mpr (ensures_get.mpr (maintains state state holds))

theorem bind_pure {computation : Resolve Other} {change : Other → Result}
    (maintains : Maintains invariant computation) :
    Maintains invariant (do return change (← computation)) :=
  maintains.bind fun _ ↦ .pure

theorem map {computation : Resolve Other} {change : Other → Result}
    (maintains : Maintains invariant computation) :
    Maintains invariant (change <$> computation) := by
  rw [← bind_pure_comp]
  exact maintains.bind_pure

theorem mapM {compute : Other → Resolve Result}
    (maintains : ∀ source, Maintains invariant (compute source)) (sources : List Other) :
    Maintains invariant (sources.mapM compute) := by
  induction sources with
  | nil => exact .pure
  | cons source rest ih =>
    rw [List.mapM_cons]
    exact (maintains source).bind fun _ ↦ .bind_pure ih

theorem filterMapM {compute : Other → Resolve (Option Result)}
    (maintains : ∀ source, Maintains invariant (compute source)) (sources : List Other) :
    Maintains invariant (sources.filterMapM compute) := by
  induction sources with
  | nil => exact .pure
  | cons source rest ih =>
    rw [List.filterMapM_cons]
    refine (maintains source).bind fun result? ↦ ?_
    cases result? with
    | none => exact ih
    | some result => exact .map ih

theorem foldlM {step : Result → Other → Resolve Result}
    (maintains : ∀ result source, Maintains invariant (step result source)) (sources : List Other)
    (initial : Result) : Maintains invariant (sources.foldlM step initial) := by
  induction sources generalizing initial with
  | nil => exact .pure
  | cons source rest ih =>
    rw [List.foldlM_cons]
    exact (maintains initial source).bind ih

end Maintains

end Resolve

end ManagedLayout
