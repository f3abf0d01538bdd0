import ManagedLayout.Proofs.Lookup
import ManagedLayout.Resolution.Basic

/-!
# Recipes

One step of the resolution first reads the records of the type itself, and then asks for other
usages and definitions. The two halves are taken apart here: a recipe says what the records of a
type come to, and is all that the rest of the step depends on. What is proved of a step is then
proved by one case for each recipe, and not for each kind of type.
-/

namespace ManagedLayout

/-- What is to be done for a usage, once the records of its type have been read. -/
inductive Recipe where
  | builtin (kind : TypeKind)
  | parameter (parameter : Index .genericParameters)
  /-- The usage stands for another one. -/
  | replaced (part : UsageKey)
  | pointer (part : UsageKey)
  | array (shape : ArrayShape) (part : UsageKey)
  | definition (definition : Index .typeDefinitions)
  /-- A generic class without a definition. -/
  | undefined (genericClass : Index .genericClasses)
  | instantiation (genericClass : Index .genericClasses) (definition : Index .typeDefinitions)
    (context : GenericContext)
  deriving DecidableEq, Repr

namespace Metadata

/-- The recipe for a definition, of which an enumeration may be stored as an integer. -/
def recipeOf (metadata : Metadata) (definition : Index .typeDefinitions) (mode : ResolveMode)
    (otherwise : Recipe) : Except LayoutError Recipe := do
  match ← metadata.storedAs? definition mode with
  | some stored => return .replaced ⟨stored, .empty, .value⟩
  | none => return otherwise

def instantiationRecipe (metadata : Metadata) (genericClass : Index .genericClasses)
    (context : GenericContext) (mode : ResolveMode) : Except LayoutError Recipe := do
  match ← metadata.openDefinition? genericClass with
  | none => return .undefined genericClass
  | some definition =>
    metadata.recipeOf definition mode (.instantiation genericClass definition context)

/-- The argument that stands for a parameter. -/
def argumentFor (metadata : Metadata) (arguments : Index .genericInstantiations)
    (parameter : Index .genericParameters) : Except LayoutError (Index .types) := do
  let ordinal := (← metadata.genericParameter parameter).ordinal
  let instantiation ← metadata.genericInstantiation arguments
  match instantiation.arguments[ordinal.toNat]? with
  | some argument => return argument
  | none => throw (.outOfRange .instantiationArguments ordinal.toUInt32)

def parameterRecipe (metadata : Metadata) (type : Index .types)
    (arguments? : Option (Index .genericInstantiations)) (mode : ResolveMode) :
    Except LayoutError Recipe := do
  let parameter ← metadata.parameterOf type
  match arguments? with
  | none => return .parameter parameter
  | some arguments => return .replaced ⟨← metadata.argumentFor arguments parameter, .empty, mode⟩

/-- The recipe for a usage. -/
def recipe (metadata : Metadata) (key : UsageKey) : Except LayoutError Recipe := do
  let reference ← metadata.typeReference key.type
  match reference.kind, reference.data with
  | .pointer, .type pointee => return .pointer ⟨pointee, key.context, key.mode⟩
  | .vector, .type element => return .array .vector ⟨element, key.context, .value⟩
  | .array, .array index => do
    let array ← metadata.arrayType index
    return .array (.ranked array.rank) ⟨array.element, key.context, .value⟩
  | .genericInstance, .genericClass genericClass =>
    metadata.instantiationRecipe genericClass key.context key.mode
  | .pointer, _ | .vector, _ | .array, _ | .genericInstance, _ =>
    throw (.mismatchedData key.type.raw reference.kind)
  | .typeParameter, _ => metadata.parameterRecipe key.type key.context.classArguments? key.mode
  | .methodParameter, _ => metadata.parameterRecipe key.type key.context.methodArguments? key.mode
  | .classType, _ | .valueType, _ => do
    let definition ← metadata.definitionOf key.type
    metadata.recipeOf definition key.mode (.definition definition)
  | kind, _ => if kind.isBuiltin then return .builtin kind else throw (.unsupportedKind kind)

/-- Some type reference uses a generic class. -/
def UsesClass (metadata : Metadata) (genericClass : Index .genericClasses) : Prop :=
  ∃ type reference, metadata.typeReference type = .ok reference ∧
    reference.kind = .genericInstance ∧ reference.data = .genericClass genericClass

/-- How the recipe for a usage comes about, by the kind of its type. -/
inductive RecipeCase (metadata : Metadata) (key : UsageKey) (reference : TypeReference) :
    Recipe → Prop where
  | builtin (isBuiltin : reference.kind.isBuiltin) :
    RecipeCase metadata key reference (.builtin reference.kind)
  | pointer {pointee : Index .types} (isKind : reference.kind = .pointer)
    (isData : reference.data = .type pointee) :
    RecipeCase metadata key reference (.pointer ⟨pointee, key.context, key.mode⟩)
  | vector {element : Index .types} (isKind : reference.kind = .vector)
    (isData : reference.data = .type element) :
    RecipeCase metadata key reference (.array .vector ⟨element, key.context, .value⟩)
  | array {index : Index .arrayTypes} {array : ArrayType} (isKind : reference.kind = .array)
    (isData : reference.data = .array index) (isArray : metadata.arrayType index = .ok array) :
    RecipeCase metadata key reference
      (.array (.ranked array.rank) ⟨array.element, key.context, .value⟩)
  | parameter {parameter : Index .genericParameters}
    (isKind : reference.kind = .typeParameter ∧ key.context.classArguments? = none ∨
      reference.kind = .methodParameter ∧ key.context.methodArguments? = none)
    (isParameter : metadata.parameterOf key.type = .ok parameter) :
    RecipeCase metadata key reference (.parameter parameter)
  | argument {parameter : Index .genericParameters} {arguments : Index .genericInstantiations}
    {argument : Index .types}
    (isKind : reference.kind = .typeParameter ∧ key.context.classArguments? = some arguments ∨
      reference.kind = .methodParameter ∧ key.context.methodArguments? = some arguments)
    (isParameter : metadata.parameterOf key.type = .ok parameter)
    (isArgument : metadata.argumentFor arguments parameter = .ok argument) :
    RecipeCase metadata key reference (.replaced ⟨argument, .empty, key.mode⟩)
  | definition {definition : Index .typeDefinitions}
    (isKind : reference.kind = .classType ∨ reference.kind = .valueType)
    (isDefinition : metadata.definitionOf key.type = .ok definition)
    (isStored : metadata.storedAs? definition key.mode = .ok none) :
    RecipeCase metadata key reference (.definition definition)
  | storedDefinition {definition : Index .typeDefinitions} {stored : Index .types}
    (isKind : reference.kind = .classType ∨ reference.kind = .valueType)
    (isDefinition : metadata.definitionOf key.type = .ok definition)
    (isStored : metadata.storedAs? definition key.mode = .ok (some stored)) :
    RecipeCase metadata key reference (.replaced ⟨stored, .empty, .value⟩)
  | undefined {genericClass : Index .genericClasses} (isKind : reference.kind = .genericInstance)
    (isData : reference.data = .genericClass genericClass)
    (isOpen : metadata.openDefinition? genericClass = .ok none) :
    RecipeCase metadata key reference (.undefined genericClass)
  | instantiation {genericClass : Index .genericClasses} {definition : Index .typeDefinitions}
    (isKind : reference.kind = .genericInstance)
    (isData : reference.data = .genericClass genericClass)
    (isOpen : metadata.openDefinition? genericClass = .ok (some definition))
    (isStored : metadata.storedAs? definition key.mode = .ok none) :
    RecipeCase metadata key reference (.instantiation genericClass definition key.context)
  | storedInstantiation {genericClass : Index .genericClasses}
    {definition : Index .typeDefinitions} {stored : Index .types}
    (isKind : reference.kind = .genericInstance)
    (isData : reference.data = .genericClass genericClass)
    (isOpen : metadata.openDefinition? genericClass = .ok (some definition))
    (isStored : metadata.storedAs? definition key.mode = .ok (some stored)) :
    RecipeCase metadata key reference (.replaced ⟨stored, .empty, .value⟩)

variable {metadata : Metadata} {key : UsageKey} {reference : TypeReference} {recipe : Recipe}

theorem recipeOf_cases {definition : Index .typeDefinitions} {mode : ResolveMode}
    {otherwise : Recipe} (isRecipe : metadata.recipeOf definition mode otherwise = .ok recipe) :
    metadata.storedAs? definition mode = .ok none ∧ recipe = otherwise ∨
      ∃ stored, metadata.storedAs? definition mode = .ok (some stored) ∧
        recipe = .replaced ⟨stored, .empty, .value⟩ := by
  obtain ⟨stored?, isStored, isRecipe⟩ := lookup_bind_eq_ok.mp isRecipe
  cases stored? with
  | none => exact .inl ⟨isStored, (lookup_pure_eq_ok.mp isRecipe).symm⟩
  | some stored => exact .inr ⟨stored, isStored, (lookup_pure_eq_ok.mp isRecipe).symm⟩

theorem parameterRecipe_cases {type : Index .types}
    {arguments? : Option (Index .genericInstantiations)} {mode : ResolveMode}
    (isRecipe : metadata.parameterRecipe type arguments? mode = .ok recipe) :
    ∃ parameter, metadata.parameterOf type = .ok parameter ∧
      (arguments? = none ∧ recipe = .parameter parameter ∨
        ∃ arguments argument, arguments? = some arguments ∧
          metadata.argumentFor arguments parameter = .ok argument ∧
          recipe = .replaced ⟨argument, .empty, mode⟩) := by
  obtain ⟨parameter, isParameter, isRecipe⟩ := lookup_bind_eq_ok.mp isRecipe
  refine ⟨parameter, isParameter, ?_⟩
  cases arguments? with
  | none => exact .inl ⟨rfl, (lookup_pure_eq_ok.mp isRecipe).symm⟩
  | some arguments =>
    obtain ⟨argument, isArgument, isRecipe⟩ := lookup_bind_eq_ok.mp isRecipe
    exact .inr ⟨arguments, argument, rfl, isArgument, (lookup_pure_eq_ok.mp isRecipe).symm⟩

theorem recipe_cases (isReference : metadata.typeReference key.type = .ok reference)
    (isRecipe : metadata.recipe key = .ok recipe) : RecipeCase metadata key reference recipe := by
  have of_definition {definition : Index .typeDefinitions}
      (isKind : reference.kind = .classType ∨ reference.kind = .valueType)
      (isDefinition : metadata.definitionOf key.type = .ok definition)
      (isRecipe : metadata.recipeOf definition key.mode (.definition definition) = .ok recipe) :
      RecipeCase metadata key reference recipe := by
    obtain ⟨isStored, rfl⟩ | ⟨stored, isStored, rfl⟩ := recipeOf_cases isRecipe
    · exact .definition isKind isDefinition isStored
    · exact .storedDefinition isKind isDefinition isStored
  have of_parameter {arguments? : Option (Index .genericInstantiations)}
      (isKind : reference.kind = .typeParameter ∧ key.context.classArguments? = arguments? ∨
        reference.kind = .methodParameter ∧ key.context.methodArguments? = arguments?)
      (isRecipe : metadata.parameterRecipe key.type arguments? key.mode = .ok recipe) :
      RecipeCase metadata key reference recipe := by
    obtain ⟨parameter, isParameter, ⟨rfl, rfl⟩ | ⟨arguments, argument, rfl, isArgument, rfl⟩⟩ :=
      parameterRecipe_cases isRecipe
    · exact .parameter isKind isParameter
    · exact .argument isKind isParameter isArgument
  rw [Metadata.recipe, isReference, lookup_ok_bind] at isRecipe
  split at isRecipe
  next isKind isData =>
    obtain rfl := lookup_pure_eq_ok.mp isRecipe
    exact .pointer isKind isData
  next isKind isData =>
    obtain rfl := lookup_pure_eq_ok.mp isRecipe
    exact .vector isKind isData
  next isKind isData =>
    obtain ⟨array, isArray, isRecipe⟩ := lookup_bind_eq_ok.mp isRecipe
    obtain rfl := lookup_pure_eq_ok.mp isRecipe
    exact .array isKind isData isArray
  next isKind isData =>
    obtain ⟨definition?, isOpen, isRecipe⟩ := lookup_bind_eq_ok.mp isRecipe
    cases definition? with
    | none =>
      obtain rfl := lookup_pure_eq_ok.mp isRecipe
      exact .undefined isKind isData isOpen
    | some definition =>
      obtain ⟨isStored, rfl⟩ | ⟨stored, isStored, rfl⟩ := recipeOf_cases isRecipe
      · exact .instantiation isKind isData isOpen isStored
      · exact .storedInstantiation isKind isData isOpen isStored
  iterate 4 next => exact absurd isRecipe lookup_throw_ne_ok
  next isKind => exact of_parameter (.inl ⟨isKind, rfl⟩) isRecipe
  next isKind => exact of_parameter (.inr ⟨isKind, rfl⟩) isRecipe
  next isKind =>
    obtain ⟨definition, isDefinition, isRecipe⟩ := lookup_bind_eq_ok.mp isRecipe
    exact of_definition (.inl isKind) isDefinition isRecipe
  next isKind =>
    obtain ⟨definition, isDefinition, isRecipe⟩ := lookup_bind_eq_ok.mp isRecipe
    exact of_definition (.inr isKind) isDefinition isRecipe
  next =>
    split at isRecipe
    next isBuiltin =>
      obtain rfl := lookup_pure_eq_ok.mp isRecipe
      exact .builtin isBuiltin
    next => exact absurd isRecipe lookup_throw_ne_ok

theorem RecipeCase.recipe_eq (isReference : metadata.typeReference key.type = .ok reference)
    (isCase : RecipeCase metadata key reference recipe) : metadata.recipe key = .ok recipe := by
  rw [Metadata.recipe, isReference, lookup_ok_bind]
  cases isCase with
  | builtin isBuiltin =>
    revert isBuiltin
    cases reference.kind <;> first | exact fun _ ↦ rfl | exact fun isBuiltin ↦ nomatch isBuiltin
  | pointer isKind isData | vector isKind isData =>
    rw [isKind, isData]
    rfl
  | array isKind isData isArray =>
    simp only [isKind, isData, isArray, lookup_ok_bind]
    rfl
  | parameter isKind isParameter =>
    obtain ⟨isKind, isNone⟩ | ⟨isKind, isNone⟩ := isKind <;>
    · simp only [isKind, parameterRecipe, isParameter, isNone, lookup_ok_bind]
      rfl
  | argument isKind isParameter isArgument =>
    obtain ⟨isKind, isSome⟩ | ⟨isKind, isSome⟩ := isKind <;>
    · simp only [isKind, parameterRecipe, isParameter, isSome, isArgument, lookup_ok_bind]
      rfl
  | definition isKind isDefinition isStored | storedDefinition isKind isDefinition isStored =>
    obtain isKind | isKind := isKind <;>
    · simp only [isKind, isDefinition, recipeOf, isStored, lookup_ok_bind]
      rfl
  | undefined isKind isData isOpen =>
    simp only [isKind, isData, instantiationRecipe, isOpen, lookup_ok_bind]
    rfl
  | instantiation isKind isData isOpen isStored | storedInstantiation isKind isData isOpen isStored =>
    simp only [isKind, isData, instantiationRecipe, isOpen, recipeOf, isStored, lookup_ok_bind]
    rfl

theorem isBuiltin_of_recipe {kind : TypeKind}
    (isRecipe : metadata.recipe key = .ok (.builtin kind)) : kind.isBuiltin := by
  obtain ⟨reference, isReference, -⟩ := lookup_bind_eq_ok.mp isRecipe
  cases recipe_cases isReference isRecipe with
  | builtin isBuiltin => exact isBuiltin

theorem usesClass_of_recipe {genericClass : Index .genericClasses}
    {definition : Index .typeDefinitions} {context : GenericContext}
    (isRecipe : metadata.recipe key = .ok (.instantiation genericClass definition context)) :
    metadata.UsesClass genericClass ∧
      metadata.openDefinition? genericClass = .ok (some definition) := by
  obtain ⟨reference, isReference, -⟩ := lookup_bind_eq_ok.mp isRecipe
  cases recipe_cases isReference isRecipe with
  | instantiation isKind isData isOpen =>
    exact ⟨⟨key.type, reference, isReference, isKind, isData⟩, isOpen⟩

end Metadata

namespace Linkage

/-- What a recipe asks for, and what it makes of that. -/
def follow (linkage : Linkage) (resolveParts : ResolveParts) : Recipe → Resolve Usage
  | .builtin kind => return .plain (← Resolve.builtin kind)
  | .parameter parameter => return .plain (← Resolve.parameter linkage.metadata parameter)
  | .replaced part => resolveParts part.type part.context part.mode
  | .pointer part => return (← resolveParts part.type part.context part.mode).pointer
  | .array shape part => return (← resolveParts part.type part.context part.mode).arrayOf shape
  | .definition definition => return .plain (← linkage.describeWith resolveParts definition)
  | .undefined genericClass => do
    Resolve.report (.undefinedGenericClass genericClass)
    return .plain (← Resolve.builtin .object)
  | .instantiation genericClass definition context =>
    return .plain (← linkage.buildInstantiation resolveParts genericClass definition context)

variable {linkage : Linkage} {resolveParts : ResolveParts}

theorem useDefinition_eq (definition : Index .typeDefinitions) (mode : ResolveMode)
    (otherwise : Recipe) {compute : Resolve DescriptorId}
    (follows : linkage.follow resolveParts otherwise = (do return .plain (← compute))) :
    linkage.useDefinition resolveParts definition mode compute =
      liftM (linkage.metadata.recipeOf definition mode otherwise) >>=
        linkage.follow resolveParts := by
  unfold useDefinition Metadata.recipeOf
  simp only [liftM_bind, bind_assoc]
  refine bind_congr fun stored? ↦ ?_
  cases stored? with
  | none => exact follows.symm
  | some => rfl

theorem useInstantiation_eq (genericClass : Index .genericClasses) (context : GenericContext)
    (mode : ResolveMode) :
    linkage.useInstantiation resolveParts genericClass context mode =
      liftM (linkage.metadata.instantiationRecipe genericClass context mode) >>=
        linkage.follow resolveParts := by
  unfold useInstantiation Metadata.instantiationRecipe
  simp only [liftM_bind, bind_assoc]
  refine bind_congr fun definition? ↦ ?_
  cases definition? with
  | none => rfl
  | some definition => exact useDefinition_eq definition mode _ rfl

theorem useParameter_eq (type : Index .types) (arguments? : Option (Index .genericInstantiations))
    (mode : ResolveMode) :
    linkage.useParameter resolveParts type arguments? mode =
      liftM (linkage.metadata.parameterRecipe type arguments? mode) >>=
        linkage.follow resolveParts := by
  unfold useParameter Metadata.parameterRecipe
  simp only [liftM_bind, bind_assoc]
  refine bind_congr fun parameter ↦ ?_
  cases arguments? with
  | none => rfl
  | some arguments =>
    unfold Metadata.argumentFor
    simp only [liftM_bind, bind_assoc]
    refine bind_congr fun record ↦ bind_congr fun instantiation ↦ ?_
    cases instantiation.arguments[record.ordinal.toNat]? <;> rfl

/-- A step of the resolution reads the recipe, and then follows it. -/
theorem expand_eq (key : UsageKey) {reference : TypeReference}
    (isReference : linkage.metadata.typeReference key.type = .ok reference) :
    linkage.expand resolveParts key.type reference key.context key.mode =
      liftM (linkage.metadata.recipe key) >>= linkage.follow resolveParts := by
  rw [expand, Metadata.recipe, isReference, lookup_ok_bind]
  cases reference.kind
  case pointer | vector => cases reference.data <;> rfl
  case array =>
    cases reference.data
    case array index =>
      simp only [liftM_bind, bind_assoc]
      rfl
    all_goals rfl
  case genericInstance =>
    cases reference.data
    case genericClass genericClass => exact useInstantiation_eq genericClass key.context key.mode
    all_goals rfl
  case typeParameter => exact useParameter_eq key.type key.context.classArguments? key.mode
  case methodParameter => exact useParameter_eq key.type key.context.methodArguments? key.mode
  case classType | valueType =>
    simp only [liftM_bind, bind_assoc]
    exact bind_congr fun definition ↦ useDefinition_eq definition key.mode _ rfl
  all_goals rfl

end Linkage

end ManagedLayout
