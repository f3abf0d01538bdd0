import ManagedLayout.Catalogue.Members
import ManagedLayout.Proofs.Agreement.Records
import ManagedLayout.Proofs.Resolution.Outcome

/-!
# Computations that are alike

The state of a resolution has a log of events, on which nothing that is computed depends. Two
computations are alike if, started in states that differ in the log only, they have the same outcome
and again leave states that differ in the log only. A computation that is like itself does not look
at the log; two that are alike may report different events, and may look up different records, as
long as what they make of them is the same.
-/

namespace ManagedLayout

namespace ResolutionState

/-- The state with another log. -/
def withEvents (state : ResolutionState) (events : Array Event) : ResolutionState :=
  { state with events }

variable (state : ResolutionState) (events : Array Event)

@[simp]
theorem descriptor_withEvents (id : DescriptorId) :
    (state.withEvents events).descriptor id = state.descriptor id := rfl

@[simp]
theorem builtDefinition?_withEvents (definition : Index .typeDefinitions) :
    (state.withEvents events).builtDefinition? definition = state.builtDefinition? definition := rfl

@[simp]
theorem ownerText_withEvents (id : DescriptorId) (qualified : Bool) :
    (state.withEvents events).ownerText id qualified = state.ownerText id qualified := by
  induction id using DescriptorId.induction with
  | step id ih =>
    rw [ownerText, ownerText, descriptor_withEvents]
    simp +contextual only [ih, descriptor_withEvents]

@[simp]
theorem argumentTexts_withEvents (id : DescriptorId) :
    (state.withEvents events).argumentTexts id = state.argumentTexts id := by
  induction id using DescriptorId.induction with
  | step id ih =>
    rw [argumentTexts, argumentTexts, descriptor_withEvents]
    simp +contextual only [ih, descriptor_withEvents, ownerText_withEvents]

@[simp]
theorem rootNamespace_withEvents (id : DescriptorId) :
    (state.withEvents events).rootNamespace id = state.rootNamespace id := by
  induction id using DescriptorId.induction with
  | step id ih =>
    rw [rootNamespace, rootNamespace, descriptor_withEvents]
    simp +contextual only [ih]

@[simp]
theorem bareText_withEvents (id : DescriptorId) :
    (state.withEvents events).bareText id = state.bareText id := by
  simp only [bareText, descriptor_withEvents, argumentTexts_withEvents]

@[simp]
theorem descriptorText_withEvents (id : DescriptorId) (qualified withArguments : Bool) :
    (state.withEvents events).descriptorText id qualified withArguments =
      state.descriptorText id qualified withArguments := by
  simp only [descriptorText, ownerText_withEvents, bareText_withEvents, descriptor_withEvents]

@[simp]
theorem usageText_withEvents (usage : Usage) (qualified : Bool) :
    (state.withEvents events).usageText usage qualified = state.usageText usage qualified := by
  simp only [usageText, descriptorText_withEvents]

@[simp]
theorem isValueType_withEvents (usage : Usage) :
    (state.withEvents events).isValueType usage = state.isValueType usage := rfl

@[simp]
theorem isCustomType_withEvents (usage : Usage) :
    (state.withEvents events).isCustomType usage = state.isCustomType usage := rfl

@[simp]
theorem instanceName?_withEvents
    (displayNames : Std.TreeMap (Index .typeDefinitions) String) (instantiation : DescriptorId)
    (definition : Index .typeDefinitions) :
    (state.withEvents events).instanceName? displayNames instantiation definition =
      state.instanceName? displayNames instantiation definition := by
  simp only [instanceName?, builtDefinition?_withEvents, bareText_withEvents]

end ResolutionState

namespace BuildNames

variable (names : BuildNames) (state : ResolutionState) (events : Array Event) (usage : Usage)

@[simp]
theorem structName_withEvents :
    names.structName (state.withEvents events) usage = names.structName state usage := by
  simp only [structName, ResolutionState.descriptor_withEvents,
    ResolutionState.descriptorText_withEvents, ResolutionState.instanceName?_withEvents]

@[simp]
theorem fieldTypeName_withEvents :
    names.fieldTypeName (state.withEvents events) usage = names.fieldTypeName state usage := by
  rw [fieldTypeName, fieldTypeName, structName_withEvents]
  rfl

end BuildNames

namespace Resolve

variable {Result Other Source Target : Type}

/-- Started in states that differ in the log only, two computations have the same outcome, and leave
states that differ in the log only. -/
def Alike (first second : Resolve Result) : Prop :=
  ∀ state events, ∃ later, second.run.run (state.withEvents events) =
    ((first.run.run state).1, (first.run.run state).2.withEvents later)

namespace Alike

theorem symm {first second : Resolve Result} (alike : Alike first second) :
    Alike second first := by
  intro state events
  -- With the log of the given state put back, the other run starts in that state.
  obtain ⟨later, ran⟩ := alike (state.withEvents events) state.events
  have second_run : second.run.run state =
      ((first.run.run (state.withEvents events)).1,
        (first.run.run (state.withEvents events)).2.withEvents later) := ran
  exact ⟨(first.run.run (state.withEvents events)).2.events, by rw [second_run]; rfl⟩

theorem pure (result : Result) : Alike (Pure.pure result) (Pure.pure result) :=
  fun _ events ↦ ⟨events, rfl⟩

theorem throw (error : LayoutError) :
    Alike (MonadExcept.throw error : Resolve Result) (MonadExcept.throw error) :=
  fun _ events ↦ ⟨events, rfl⟩

theorem bind {first second : Resolve Other} {next otherNext : Other → Resolve Result}
    (alike : Alike first second) (nextAlike : ∀ result, Alike (next result) (otherNext result)) :
    Alike (first >>= next) (second >>= otherNext) := by
  intro state events
  obtain ⟨later, ran⟩ := alike state events
  simp only [ExceptT.run_bind, StateT.run_bind, ran]
  rcases first.run.run state with ⟨_ | result, after⟩
  · exact ⟨later, rfl⟩
  · exact nextAlike result after later

theorem map {first second : Resolve Other} (change : Other → Result) (alike : Alike first second) :
    Alike (change <$> first) (change <$> second) := by
  rw [← bind_pure_comp, ← bind_pure_comp]
  exact bind alike fun result ↦ pure (change result)

/-- The records that are looked up may differ as long as the rest does not depend on it. -/
theorem bind_lookup {related : Source → Target → Prop} {first : Except LayoutError Source}
    {second : Except LayoutError Target} {next : Source → Resolve Result}
    {otherNext : Target → Resolve Result} (lookups : LookupsRelated related first second)
    (nextAlike : ∀ source target, related source target → Alike (next source) (otherNext target)) :
    Alike (liftM first >>= next) (liftM second >>= otherNext) := by
  cases lookups with
  | found isRelated => exact nextAlike _ _ isRelated
  | failed error => exact throw error

theorem bind_lookup_eq {first second : Except LayoutError Other}
    {next otherNext : Other → Resolve Result} (same : first = second)
    (nextAlike : ∀ found, Alike (next found) (otherNext found)) :
    Alike (liftM first >>= next) (liftM second >>= otherNext) := by
  subst same
  cases first with
  | error error => exact throw error
  | ok found => exact nextAlike found

/-- What is done with the state must not depend on the log. -/
theorem bind_get {next otherNext : ResolutionState → Resolve Result}
    (nextAlike : ∀ state events, Alike (next state) (otherNext (state.withEvents events))) :
    Alike (get >>= next) (get >>= otherNext) :=
  fun state events ↦ nextAlike state events state events

theorem modify {change : ResolutionState → ResolutionState}
    (keepsEvents : ∀ state events, change (state.withEvents events) =
      (change state).withEvents events) : Alike (modify change) (modify change) :=
  fun state events ↦ ⟨events, congrArg (Prod.mk (Except.ok ())) (keepsEvents state events)⟩

theorem modifyGet {change : ResolutionState → Result × ResolutionState}
    (keepsEvents : ∀ state events, change (state.withEvents events) =
      ((change state).1, (change state).2.withEvents events)) :
    Alike (modifyGet change) (modifyGet change) :=
  fun state events ↦ ⟨events, congrArg (Prod.map Except.ok id) (keepsEvents state events)⟩

theorem report (event other : Event) : Alike (report event) (report other) :=
  fun _ events ↦ ⟨events.push other, rfl⟩

/-- It does not matter if only one of the computations reports an event. -/
theorem bind_report {first second : Resolve Result} (event : Event) (alike : Alike first second) :
    Alike first (Resolve.report event >>= fun _ ↦ second) :=
  fun state events ↦ alike state (events.push event)

theorem tryCatch {first second : Resolve Result} {handle otherHandle : LayoutError → Resolve Result}
    (alike : Alike first second) (handleAlike : ∀ error, Alike (handle error) (otherHandle error)) :
    Alike (tryCatch first handle) (tryCatch second otherHandle) := by
  intro state events
  obtain ⟨later, ran⟩ := alike state events
  rw [run_tryCatch, run_tryCatch, ran]
  rcases first.run.run state with ⟨error | result, after⟩
  · exact handleAlike error after later
  · exact ⟨later, rfl⟩

theorem mapM {compute otherCompute : Other → Resolve Result}
    (alike : ∀ source, Alike (compute source) (otherCompute source)) (sources : List Other) :
    Alike (sources.mapM compute) (sources.mapM otherCompute) := by
  induction sources with
  | nil => exact .pure []
  | cons source rest ih =>
    rw [List.mapM_cons, List.mapM_cons]
    exact bind (alike source) fun result ↦ bind ih fun results ↦ .pure (result :: results)

theorem filterMapM {compute otherCompute : Other → Resolve (Option Result)}
    (alike : ∀ source, Alike (compute source) (otherCompute source)) (sources : List Other) :
    Alike (sources.filterMapM compute) (sources.filterMapM otherCompute) := by
  induction sources with
  | nil => exact .pure []
  | cons source rest ih =>
    rw [List.filterMapM_cons, List.filterMapM_cons]
    apply bind (alike source)
    intro result?
    cases result? with
    | none => exact ih
    | some result => exact bind ih fun results ↦ .pure (result :: results)

theorem optionMapM {compute otherCompute : Other → Resolve Result}
    (alike : ∀ source, Alike (compute source) (otherCompute source)) (source? : Option Other) :
    Alike (source?.mapM compute) (source?.mapM otherCompute) := by
  cases source? with
  | none => exact .pure none
  | some source => exact map some (alike source)

/-- Two loops are alike if their lists are related element by element, and so are their steps. -/
theorem foldlM {related : Source → Target → Prop} {step : Result → Source → Resolve Result}
    {otherStep : Result → Target → Resolve Result}
    (alike : ∀ source target accumulator, related source target →
      Alike (step accumulator source) (otherStep accumulator target))
    {sources : List Source} {targets : List Target}
    (areRelated : List.Forall₂ related sources targets) (initial : Result) :
    Alike (sources.foldlM step initial) (targets.foldlM otherStep initial) := by
  induction areRelated generalizing initial with
  | nil => exact .pure initial
  | cons isRelated _ ih => exact bind (alike _ _ initial isRelated) ih

theorem foldlM_same {step otherStep : Result → Source → Resolve Result}
    (alike : ∀ source accumulator, Alike (step accumulator source) (otherStep accumulator source))
    (sources : List Source) (initial : Result) :
    Alike (sources.foldlM step initial) (sources.foldlM otherStep initial) := by
  have sameSources : List.Forall₂ Eq sources sources := List.forall₂_refl sources
  apply foldlM _ sameSources
  rintro source _ accumulator rfl
  exact alike source accumulator

/-- Two computations that are alike have the same outcome. -/
theorem outcome_eq {first second : Resolve Result} (alike : Alike first second)
    (state : ResolutionState) : (first.run.run state).1 = (second.run.run state).1 := by
  obtain ⟨later, ran⟩ := alike state state.events
  exact (congrArg Prod.fst ran).symm

end Alike

end Resolve

end ManagedLayout
