import ManagedLayout.Proofs.Agreement.Dumps
import ManagedLayout.Proofs.Agreement.Runs

/-!
# Resolution of dumps that agree

If two dumps agree, then a type reference is resolved alike in both. As the resolution itself, the
proof goes over the steps with the recursive call as a parameter, and is put together by induction
on how much nesting is left.
-/

namespace ManagedLayout

open Resolve

namespace Resolve.Alike

theorem push (descriptor : Descriptor) : Alike (push descriptor) (push descriptor) :=
  modifyGet fun _ _ ↦ rfl

theorem uniqueName (scope : NameScope) (name : String) :
    Alike (uniqueName scope name) (uniqueName scope name) :=
  modifyGet fun _ _ ↦ rfl

theorem builtin (kind : TypeKind) : Alike (builtin kind) (builtin kind) := by
  apply bind_get
  intro state events
  dsimp only [ResolutionState.withEvents]
  split
  next => exact pure _
  next =>
    apply bind (push _)
    intro descriptor
    exact bind (modify fun _ _ ↦ rfl) fun _ ↦ pure descriptor

theorem usageOnce {compute otherCompute : Resolve Usage} (key : UsageKey)
    (alike : Alike compute otherCompute) :
    Alike (usageOnce key compute) (usageOnce key otherCompute) := by
  apply bind (modify fun _ _ ↦ rfl)
  intro _
  apply bind
  · apply tryCatch alike
    intro error
    exact bind (modify fun _ _ ↦ rfl) fun _ ↦ throw error
  · intro usage
    exact bind (modify fun _ _ ↦ rfl) fun _ ↦ pure usage

theorem definitionOnce {compute otherCompute : Resolve DescriptorId}
    (definition : Index .typeDefinitions) (alike : Alike compute otherCompute) :
    Alike (definitionOnce definition compute) (definitionOnce definition otherCompute) := by
  apply bind (modify fun _ _ ↦ rfl)
  intro _
  apply bind
  · apply tryCatch alike
    intro error
    exact bind (modify fun _ _ ↦ rfl) fun _ ↦ throw error
  · intro descriptor
    exact bind (modify fun _ _ ↦ rfl) fun _ ↦ pure descriptor

end Resolve.Alike

/-- Both ways to resolve the parts of a type are alike. -/
def ResolveParts.Alike (resolveParts otherParts : ResolveParts) : Prop :=
  ∀ type context mode,
    Resolve.Alike (resolveParts type context mode) (otherParts type context mode)

/-- A step leaves it to lookups to find the declaration that a type reference refers to. -/
theorem Linkage.expand_of_resembles (linkage : Linkage) (resolveParts : ResolveParts)
    (type : Index .types) (context : GenericContext) (mode : ResolveMode)
    {reference other : TypeReference} (resembles : reference.Resembles other) :
    linkage.expand resolveParts type reference context mode =
      linkage.expand resolveParts type other context mode := by
  apply resembles.congr
  intro reference data isDeclaration
  unfold expand
  dsimp only
  generalize reference.kind = kind
  cases data with
  | none | type | genericClass | array => contradiction
  | definition | definitionHandle | parameter | parameterHandle => cases kind <;> rfl

namespace Linkage.Agrees

variable {first second : Linkage} {resolveParts otherParts : ResolveParts}

theorem alike_parameter (agrees : first.Agrees second) (parameter : Index .genericParameters) :
    Alike (Resolve.parameter first.metadata parameter)
      (Resolve.parameter second.metadata parameter) := by
  apply Alike.bind_get
  intro state events
  dsimp only [ResolutionState.withEvents]
  split
  next => exact .pure _
  next =>
    apply Alike.bind_lookup_eq (agrees.metadata.genericParameter parameter)
    intro record
    apply Alike.bind (.push _)
    intro descriptor
    exact .bind (.modify fun _ _ ↦ rfl) fun _ ↦ .pure descriptor

theorem alike_buildDefinition (agrees : first.Agrees second) (alike : resolveParts.Alike otherParts)
    (definition : Index .typeDefinitions) :
    Alike (first.buildDefinition resolveParts definition)
      (second.buildDefinition otherParts definition) := by
  apply Alike.bind_lookup (agrees.metadata.typeDefinition definition)
  rintro record _ ⟨start, count, rfl⟩
  apply Alike.bind
  · apply Alike.optionMapM
    intro declaring
    exact .bind (alike declaring .empty .name) fun usage ↦ .pure usage.descriptor
  intro declaringType?
  apply Alike.bind (.uniqueName _ _)
  intro name
  apply Alike.bind_lookup_eq (agrees.metadata.declaredParameters record)
  intro parameterNames
  exact .push _

theorem alike_describeWith (agrees : first.Agrees second) (alike : resolveParts.Alike otherParts)
    (definition : Index .typeDefinitions) :
    Alike (first.describeWith resolveParts definition)
      (second.describeWith otherParts definition) := by
  apply Alike.bind_get
  intro state events
  dsimp only [ResolutionState.withEvents]
  split
  next => exact .pure _
  next => exact .throw _
  next => exact .definitionOnce definition (agrees.alike_buildDefinition alike definition)

theorem alike_useDefinition {otherwise other : Resolve DescriptorId} (agrees : first.Agrees second)
    (alike : resolveParts.Alike otherParts) (definition : Index .typeDefinitions)
    (mode : ResolveMode) (otherwiseAlike : Alike otherwise other) :
    Alike (first.useDefinition resolveParts definition mode otherwise)
      (second.useDefinition otherParts definition mode other) := by
  apply Alike.bind_lookup_eq (agrees.metadata.storedAs? definition mode)
  intro stored?
  cases stored? with
  | some stored => exact alike stored .empty .value
  | none => exact .bind otherwiseAlike fun descriptor ↦ .pure (Usage.plain descriptor)

theorem alike_buildInstantiation (agrees : first.Agrees second)
    (alike : resolveParts.Alike otherParts) (genericClass : Index .genericClasses)
    (definition : Index .typeDefinitions) (context : GenericContext) :
    Alike (first.buildInstantiation resolveParts genericClass definition context)
      (second.buildInstantiation otherParts genericClass definition context) := by
  apply Alike.bind (agrees.alike_describeWith alike definition)
  intro generic
  apply Alike.bind_lookup_eq (agrees.metadata.classArguments genericClass)
  intro arguments
  apply Alike.bind (.mapM (fun argument ↦ alike argument context .name) arguments)
  intro typeArguments
  exact .bind_get fun state events ↦ .push _

theorem alike_useInstantiation (agrees : first.Agrees second)
    (alike : resolveParts.Alike otherParts) (genericClass : Index .genericClasses)
    (context : GenericContext) (mode : ResolveMode) :
    Alike (first.useInstantiation resolveParts genericClass context mode)
      (second.useInstantiation otherParts genericClass context mode) := by
  apply Alike.bind_lookup_eq (agrees.metadata.openDefinition? genericClass)
  intro definition?
  cases definition? with
  | none =>
    apply Alike.bind (.report _ _)
    intro _
    exact .bind (.builtin .object) fun descriptor ↦ .pure (Usage.plain descriptor)
  | some definition =>
    exact agrees.alike_useDefinition alike definition mode
      (agrees.alike_buildInstantiation alike genericClass definition context)

theorem alike_useParameter (agrees : first.Agrees second) (alike : resolveParts.Alike otherParts)
    (type : Index .types) (arguments? : Option (Index .genericInstantiations))
    (mode : ResolveMode) :
    Alike (first.useParameter resolveParts type arguments? mode)
      (second.useParameter otherParts type arguments? mode) := by
  apply Alike.bind_lookup_eq (agrees.metadata.parameterOf type)
  intro parameter
  cases arguments? with
  | none =>
    exact .bind (agrees.alike_parameter parameter) fun descriptor ↦ .pure (Usage.plain descriptor)
  | some arguments =>
    apply Alike.bind_lookup_eq (agrees.metadata.genericParameter parameter)
    intro record
    apply Alike.bind_lookup_eq (agrees.metadata.genericInstantiation arguments)
    intro instantiation
    split
    next argument _ => exact alike argument .empty mode
    next => exact .throw _

theorem alike_expand (agrees : first.Agrees second) (alike : resolveParts.Alike otherParts)
    (type : Index .types) (reference : TypeReference) (context : GenericContext)
    (mode : ResolveMode) :
    Alike (first.expand resolveParts type reference context mode)
      (second.expand otherParts type reference context mode) := by
  unfold expand
  split
  next pointee _ _ => exact .bind (alike pointee context mode) fun usage ↦ .pure usage.pointer
  next element _ _ =>
    exact .bind (alike element context .value) fun usage ↦ .pure (usage.arrayOf .vector)
  next index _ _ =>
    apply Alike.bind_lookup_eq (agrees.metadata.arrayType index)
    intro array
    exact .bind (alike array.element context .value) fun usage ↦
      .pure (usage.arrayOf (.ranked array.rank))
  next genericClass _ _ => exact agrees.alike_useInstantiation alike genericClass context mode
  iterate 4 next => exact .throw _
  next => exact agrees.alike_useParameter alike type context.classArguments? mode
  next => exact agrees.alike_useParameter alike type context.methodArguments? mode
  iterate 2
    next =>
      apply Alike.bind_lookup_eq (agrees.metadata.definitionOf type)
      intro definition
      exact agrees.alike_useDefinition alike definition mode
        (agrees.alike_describeWith alike definition)
  next =>
    split
    next => exact .bind (.builtin _) fun descriptor ↦ .pure (Usage.plain descriptor)
    next => exact .throw _

theorem alike_resolveWithin (agrees : first.Agrees second) (room : Nat) :
    ResolveParts.Alike (first.resolveWithin room) (second.resolveWithin room) := by
  induction room with
  | zero =>
    intro type context mode
    unfold resolveWithin
    apply Alike.bind_lookup (agrees.metadata.typeReference type)
    intro reference other resembles
    simp only [resembles.kind_eq]
    apply Alike.bind_get
    intro state events
    dsimp only [ResolutionState.withEvents]
    split
    next => exact .pure _
    next => exact .throw _
    next => exact .throw _
  | succ room ih =>
    intro type context mode
    unfold resolveWithin
    apply Alike.bind_lookup (agrees.metadata.typeReference type)
    intro reference other resembles
    simp only [resembles.kind_eq, ← second.expand_of_resembles _ type _ mode resembles]
    apply Alike.bind_get
    intro state events
    dsimp only [ResolutionState.withEvents]
    split
    next => exact .pure _
    next => exact .throw _
    next => exact .usageOnce _ (agrees.alike_expand ih type reference _ mode)

theorem alike_resolve (agrees : first.Agrees second) :
    ResolveParts.Alike first.resolve second.resolve :=
  agrees.alike_resolveWithin maxNesting

theorem alike_describe (agrees : first.Agrees second) (definition : Index .typeDefinitions) :
    Alike (first.describe definition) (second.describe definition) :=
  agrees.alike_describeWith agrees.alike_resolve definition

theorem alike_definitionUsage (agrees : first.Agrees second) (definition : Index .typeDefinitions)
    (mode : ResolveMode) :
    Alike (first.definitionUsage definition mode) (second.definitionUsage definition mode) := by
  apply Alike.bind_lookup_eq (agrees.typeForDefinition? definition)
  intro type?
  cases type? with
  | none =>
    exact .bind (agrees.alike_describe definition) fun descriptor ↦ .pure (Usage.plain descriptor)
  | some type =>
    apply Alike.bind_lookup (agrees.metadata.typeReference type)
    rintro reference _ ⟨data, -, rfl⟩
    split
    next =>
      exact .bind (agrees.alike_describe definition) fun descriptor ↦
        .pure (Usage.plain descriptor)
    next => exact agrees.alike_resolve type .empty mode

theorem alike_instantiationText (agrees : first.Agrees second)
    (index : Index .genericInstantiations) :
    Alike (first.instantiationText index) (second.instantiationText index) := by
  apply Alike.bind_lookup_eq (agrees.metadata.genericInstantiation index)
  intro instantiation
  apply Alike.bind
  · apply Alike.mapM
    intro argument
    apply Alike.bind (agrees.alike_resolve argument .empty .name)
    intro usage
    apply Alike.bind_get
    intro state events
    rw [ResolutionState.usageText_withEvents]
    exact .pure _
  · intro texts
    exact .pure _

end Linkage.Agrees

end ManagedLayout
