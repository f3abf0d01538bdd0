import ManagedLayout.Catalogue.Build
import ManagedLayout.Proofs.Resolution.Unwinding

/-!
# What a whole build maintains

A build changes the state of the resolution in two ways only: by calls, and by reports. What both of
them maintain holds of the state that the build ends in, whether the build succeeds or fails.
-/

namespace ManagedLayout

namespace Linkage

open Resolve

/-- Neither reports nor calls make the invariant false. -/
structure Stable (linkage : Linkage) (invariant : ResolutionState → Prop) : Prop where
  report : ∀ event, Maintains invariant (Resolve.report event)
  answer : ∀ call, Maintains invariant (linkage.answer call)

variable {linkage : Linkage} {invariant : ResolutionState → Prop}

namespace Stable

theorem resolve (stable : linkage.Stable invariant) (type : Index .types) (context : GenericContext)
    (mode : ResolveMode) : Maintains invariant (linkage.resolve type context mode) :=
  stable.answer (.resolve type context mode)

theorem describe (stable : linkage.Stable invariant) (definition : Index .typeDefinitions) :
    Maintains invariant (linkage.describe definition) :=
  stable.answer (.describe definition)

theorem definitionUsage (stable : linkage.Stable invariant) (definition : Index .typeDefinitions)
    (mode : ResolveMode) : Maintains invariant (linkage.definitionUsage definition mode) :=
  stable.answer (.definitionUsage definition mode)

theorem instantiationText? (stable : linkage.Stable invariant)
    (index? : Option (Index .genericInstantiations)) :
    Maintains invariant (linkage.instantiationText? index?) := by
  cases index? with
  | none => exact .pure
  | some index => exact .bind_pure (stable.answer (.instantiationText index))

theorem claim (stable : linkage.Stable invariant) (image : Index .images)
    (definition : Index .typeDefinitions) (names : DefinitionNames) :
    Maintains invariant (linkage.claim image definition names) := by
  unfold Linkage.claim
  split
  next => exact .bind (stable.report _) fun _ ↦ .pure
  next =>
    refine .bind (stable.definitionUsage definition .name) fun usage ↦ .bind_get fun state ↦ ?_
    exact .bind_lookup fun builtin? ↦ .pure

theorem claimRange (stable : linkage.Stable invariant) (image : Index .images) (count : Nat)
    (start : Index .typeDefinitions) (names : DefinitionNames) :
    Maintains invariant (linkage.claimRange image count start names) := by
  induction count generalizing start names with
  | zero => exact .pure
  | succ count ih => exact .bind (stable.claim image start names) fun names ↦ ih _ names

theorem nameDefinitions (stable : linkage.Stable invariant) :
    Maintains invariant linkage.nameDefinitions :=
  .foldlM (fun names (index, _) ↦ stable.claimRange index _ _ names) _ _

theorem nameInstance (stable : linkage.Stable invariant) (definitions : DefinitionNames)
    (instances : InstanceNames) (type : Index .types) (reference : TypeReference) :
    Maintains invariant (linkage.nameInstance definitions instances type reference) := by
  unfold Linkage.nameInstance
  split
  next genericClass _ _ =>
    split
    next => exact .pure
    next =>
      refine .bind_lookup fun definition? ↦ ?_
      cases definition? with
      | none => exact .pure
      | some definition =>
        dsimp only
        split
        next =>
          refine .bind (stable.resolve type .empty .name) fun usage ↦ ?_
          refine .bind (stable.describe definition) fun _ ↦ .bind_get fun state ↦ ?_
          exact .bind (stable.report _) fun _ ↦ .pure
        next => exact .throw
  next => exact .throw
  next => exact .pure

theorem nameInstances (stable : linkage.Stable invariant) (definitions : DefinitionNames) :
    Maintains invariant (linkage.nameInstances definitions) :=
  .foldlM (fun instances (type, reference) ↦
    stable.nameInstance definitions instances type reference) _ _

theorem callSiteKey (stable : linkage.Stable invariant) (definitions : DefinitionNames)
    (definition : Index .typeDefinitions) :
    Maintains invariant (linkage.callSiteKey definitions definition) := by
  unfold Linkage.callSiteKey
  split
  next => exact .pure
  next => exact .bind (stable.describe definition) fun _ ↦ .bind_get fun _ ↦ .pure

theorem callSite (stable : linkage.Stable invariant) (definitions : DefinitionNames)
    (site : UsageSite) : Maintains invariant (linkage.callSite definitions site) := by
  unfold Linkage.callSite
  split
  next => exact .bind_lookup fun method ↦ .bind (stable.callSiteKey definitions _) fun _ ↦ .pure
  next =>
    refine .bind_lookup fun context ↦ .bind_lookup fun spec ↦ .bind_lookup fun method ↦ ?_
    refine .bind (stable.callSiteKey definitions _) fun _ ↦ ?_
    refine .bind (stable.instantiationText? _) fun _ ↦ ?_
    exact .bind (stable.instantiationText? _) fun _ ↦ .pure

theorem groupCallSites (stable : linkage.Stable invariant) (definitions : DefinitionNames) :
    Maintains invariant (linkage.groupCallSites definitions) := by
  unfold Linkage.groupCallSites
  split
  next =>
    refine .bind_lookup fun sites ↦ .foldlM (fun groups site ↦ ?_) sites ∅
    exact .bind (stable.callSite definitions site) fun _ ↦ .pure
  next => exact .bind (stable.report _) fun _ ↦ .pure

theorem parentName? (stable : linkage.Stable invariant) (names : BuildNames)
    (index : Index .typeDefinitions) (definition : TypeDefinition) (context : GenericContext) :
    Maintains invariant (linkage.parentName? names index definition context) := by
  unfold Linkage.parentName?
  split
  next => exact .pure
  next =>
    cases definition.parent.present? with
    | none => exact .pure
    | some parent =>
      refine .bind (stable.resolve parent context .name) fun usage ↦ .bind_get fun state ↦ ?_
      split
      next => exact .pure
      next =>
        split
        next => exact .bind (stable.report _) fun _ ↦ .pure
        next => exact .pure
      next => exact .pure
      next => exact .bind (stable.report _) fun _ ↦ .pure
      next => exact .bind (stable.report _) fun _ ↦ .pure

theorem splitFields (stable : linkage.Stable invariant) (names : BuildNames)
    (offsets : OffsetSource) (index : Index .typeDefinitions) (definition : TypeDefinition)
    (context : GenericContext) :
    Maintains invariant (linkage.splitFields names offsets index definition context) := by
  unfold Linkage.splitFields
  split
  next => exact .throw
  next =>
    refine .foldlM (fun split pair ↦ ?_) _ _
    unfold Linkage.addField
    refine .bind_lookup fun reference ↦ ?_
    split
    next => exact .pure
    next => exact .bind (stable.resolve _ context .value) fun _ ↦ .bind_get fun _ ↦ .pure

theorem contextRecord (stable : linkage.Stable invariant) (entry : ContextEntry) :
    Maintains invariant (linkage.contextRecord entry) := by
  unfold Linkage.contextRecord
  split
  next => exact .bind (stable.resolve _ .empty .name) fun _ ↦ .bind_get fun _ ↦ .pure
  next => exact .bind (stable.resolve _ .empty .name) fun _ ↦ .bind_get fun _ ↦ .pure
  next =>
    refine .bind_lookup fun context ↦ .bind_lookup fun spec ↦ .bind_lookup fun method ↦ ?_
    refine .bind (stable.describe _) fun _ ↦ .bind_get fun _ ↦ ?_
    refine .bind (stable.instantiationText? _) fun _ ↦ ?_
    exact .bind (stable.instantiationText? _) fun _ ↦ .pure
  next => exact .throw

theorem methodContexts (stable : linkage.Stable invariant) (image : Image)
    (methods : List (Index .methods)) :
    Maintains invariant (linkage.methodContexts image methods) := by
  refine .filterMapM (fun method ↦ .bind_lookup fun entries ↦ ?_) methods
  split
  next => exact .pure
  next =>
    exact .bind_lookup fun record ↦ .bind (.mapM stable.contextRecord entries) fun _ ↦ .pure

theorem definitionLayout {plan : BuildPlan} (stable : plan.linkage.Stable invariant)
    (entry : NamedDefinition) : Maintains invariant (plan.definitionLayout entry) := by
  refine .bind_lookup fun definition ↦ .bind_lookup fun image ↦ .bind_get fun state ↦ ?_
  refine .bind (stable.parentName? _ _ _ _) fun parent? ↦ ?_
  refine .bind (stable.splitFields _ _ _ _ _) fun split ↦ ?_
  refine .bind_lookup fun virtualMethods ↦ .bind_lookup fun entries ↦ ?_
  refine .bind (.mapM stable.contextRecord entries) fun contextEntries ↦ ?_
  exact .bind (stable.methodContexts image _) fun methodContexts ↦ .pure

theorem instanceLayout {plan : BuildPlan} (stable : plan.linkage.Stable invariant)
    (entry : NamedInstance) : Maintains invariant (plan.instanceLayout entry) := by
  refine .bind_lookup fun definition ↦ .bind_lookup fun genericClass ↦ .bind_get fun state ↦ ?_
  refine .bind (stable.parentName? _ _ _ _) fun parent? ↦ ?_
  refine .bind (stable.splitFields _ _ _ _ _) fun split ↦ ?_
  refine .bind (stable.instantiationText? _) fun typeArguments? ↦ ?_
  exact .bind_lookup fun virtualMethods ↦ .pure

theorem layouts {plan : BuildPlan} (stable : plan.linkage.Stable invariant) :
    Maintains invariant plan.layouts := by
  refine .bind (.mapM (fun entry ↦ stable.definitionLayout entry) _) fun definitions ↦ ?_
  split
  next => exact .bind (.mapM (fun entry ↦ stable.instanceLayout entry) _) fun instances ↦ .pure
  next => exact .pure

end Stable

/-- What a build does after it has named the definitions. -/
def afterDefinitions (linkage : Linkage) (options : BuildOptions) (offsets : OffsetSource)
    (definitions : DefinitionNames) : Resolve Catalogue := do
  Resolve.report (.definitionsIndexed definitions.entries.size)
  let instances ← linkage.nameInstances definitions
  Resolve.report (.instancesNamed instances.names.size instances.entries.size)
  let callSites ← linkage.groupCallSites definitions
  Resolve.report (.usagesGrouped callSites.size)
  let structs ← BuildPlan.layouts {
    linkage
    options
    offsets
    names := { definitions, instances, callSites }
    methods := linkage.metadata.methodsByDefinition }
  Resolve.report (.synthesized structs.length (← get).resolvedCount)
  return {
    structs
    displayNames := definitions.displayNames
    instanceNames := instances.names
    callSites }

theorem catalogue_eq_afterDefinitions (linkage : Linkage) (options : BuildOptions)
    (offsets : OffsetSource) :
    linkage.catalogue options offsets = (do
      Resolve.report (.started linkage.metadata.version)
      linkage.afterDefinitions options offsets (← linkage.nameDefinitions)) := rfl

theorem Stable.afterDefinitions (stable : linkage.Stable invariant) (options : BuildOptions)
    (offsets : OffsetSource) (definitions : DefinitionNames) :
    Maintains invariant (linkage.afterDefinitions options offsets definitions) := by
  refine .bind (stable.report _) fun _ ↦ .bind (stable.nameInstances definitions) fun _ ↦ ?_
  refine .bind (stable.report _) fun _ ↦ .bind (stable.groupCallSites definitions) fun _ ↦ ?_
  refine .bind (stable.report _) fun _ ↦ .bind (layouts stable) fun _ ↦ .bind_get fun _ ↦ ?_
  exact .bind (stable.report _) fun _ ↦ .pure

/-- A build maintains what every call maintains. -/
theorem Stable.catalogue (stable : linkage.Stable invariant) (options : BuildOptions)
    (offsets : OffsetSource) : Maintains invariant (linkage.catalogue options offsets) := by
  rw [catalogue_eq_afterDefinitions]
  refine .bind (stable.report _) fun _ ↦ .bind stable.nameDefinitions fun definitions ↦ ?_
  exact stable.afterDefinitions options offsets definitions

/-- The arena only grows. -/
theorem stable_arenaGrows (linkage : Linkage) (start : ResolutionState) :
    linkage.Stable fun state ↦ state.Faithful linkage.metadata ∧ start.ArenaGrows state where
  report event := .of_after fun state ⟨faithful, grows⟩ ↦ by
    obtain ⟨faithful, more⟩ := (keeps_report event).after faithful
    exact ⟨faithful, grows.trans more.arena⟩
  answer call := .of_after fun state ⟨faithful, grows⟩ ↦ by
    obtain ⟨faithful, more⟩ := stateAfter_faithful faithful call
    rw [stateAfter_eq] at faithful more
    exact ⟨faithful, grows.trans more.arena⟩

end Linkage

end ManagedLayout
