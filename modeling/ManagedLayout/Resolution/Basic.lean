import ManagedLayout.Reference.Linkage
import ManagedLayout.Resolution.State

/-!
# Resolving type references

Resolving a type reference makes a usage of it: pointers and arrays are put around what they are
made of, generic parameters are replaced by their arguments, and what remains is a descriptor. The
result depends on the reference, on the arguments of the context if the kind can depend on them at
all, and on the mode; each combination is worked on once. A reference that is met again while it is
being worked on has no end, and references may be nested in each other only `maxNesting` times.

`Linkage.resolveWithin` is the one recursion, on how much nesting is left. What it does for the
different kinds of types is written with the recursive call as a parameter.
-/

namespace ManagedLayout

/-- How deep type references may be nested in each other. -/
def maxNesting : Nat := 256

/-- How a step of the resolution resolves what its type is made of. -/
abbrev ResolveParts : Type := Index .types → GenericContext → ResolveMode → Resolve Usage

namespace Resolve

/-- The descriptor of a built-in type. There is one for each kind. -/
def builtin (kind : TypeKind) : Resolve DescriptorId := do
  match (← get).builtins[kind]? with
  | some descriptor => return descriptor
  | none =>
    let keyword := (kind.builtin?.map (·.keyword)).getD ""
    let descriptor ← push (.named (.builtin kind) keyword)
    modify fun state ↦ { state with builtins := state.builtins.insert kind descriptor }
    return descriptor

/-- The descriptor of a generic parameter without an argument. There is one for each parameter. -/
def parameter (metadata : Metadata) (parameter : Index .genericParameters) :
    Resolve DescriptorId := do
  match (← get).parameters[parameter]? with
  | some descriptor => return descriptor
  | none =>
    let record ← metadata.genericParameter parameter
    let descriptor ← push (.named (.parameter parameter) record.name)
    modify fun state ↦ { state with parameters := state.parameters.insert parameter descriptor }
    return descriptor

/-- Works on a usage: while the computation runs, the usage counts as underway, and if it fails, as
never begun. -/
def usageOnce (key : UsageKey) (compute : Resolve Usage) : Resolve Usage := do
  modify fun state ↦ { state with
    usages := state.usages.insert key .underway
    resolvedCount := state.resolvedCount + 1 }
  let usage ← tryCatch compute fun error ↦ do
    modify fun state ↦ { state with usages := state.usages.erase key }
    throw error
  modify fun state ↦ { state with usages := state.usages.insert key (.done usage) }
  return usage

/-- Works on a definition: while the computation runs, the definition counts as underway, and if it
fails, as never begun. -/
def definitionOnce (definition : Index .typeDefinitions) (compute : Resolve DescriptorId) :
    Resolve DescriptorId := do
  modify fun state ↦ { state with definitions := state.definitions.insert definition .underway }
  let descriptor ← tryCatch compute fun error ↦ do
    modify fun state ↦ { state with definitions := state.definitions.erase definition }
    throw error
  modify fun state ↦ { state with
    definitions := state.definitions.insert definition (.done descriptor) }
  return descriptor

end Resolve

/-- The name of a definition without the parameter count, which stands behind a grave accent. -/
def baseName (name : String) : String := String.ofList (name.toList.takeWhile (· != '\x60'))

/-- The names of `count` consecutive generic parameters. -/
def Metadata.parameterNames (metadata : Metadata) :
    (count : Nat) → Index .genericParameters → Except LayoutError (List String)
  | 0, _ => .ok []
  | count + 1, start => do
    let parameter ← metadata.genericParameter start
    return parameter.name :: (← metadata.parameterNames count (start.offset 1))

/-- The names of the parameters that a definition declares. -/
def Metadata.declaredParameters (metadata : Metadata) (definition : TypeDefinition) :
    Except LayoutError (List String) :=
  match definition.genericContainer.present? with
  | none => .ok []
  | some index => do
    let container ← metadata.genericContainer index
    metadata.parameterNames container.parameterCount.toNat container.parameterStart

/-- The integer type that an enumeration is stored as, if the mode asks how values are stored. -/
def Metadata.storedAs? (metadata : Metadata) (definition : Index .typeDefinitions)
    (mode : ResolveMode) : Except LayoutError (Option (Index .types)) :=
  match mode with
  | .name => .ok none
  | .value => do
    let record ← metadata.typeDefinition definition
    return if record.isEnum then record.elementType.present? else none

/-- The arguments of a generic class, in its own words. -/
def Metadata.classArguments (metadata : Metadata) (genericClass : Index .genericClasses) :
    Except LayoutError (List (Index .types)) := do
  let record ← metadata.genericClass genericClass
  match record.context.classArguments.present? with
  | some index => return (← metadata.genericInstantiation index).arguments.toList
  | none => return []

/-- The descriptor of the declaring type of a definition, if it has one. -/
def TypeDefinition.declaringDescriptor? (record : TypeDefinition) (resolveParts : ResolveParts) :
    Resolve (Option DescriptorId) :=
  record.declaringType.present?.mapM fun declaring ↦ do
    return (← resolveParts declaring .empty .name).descriptor

namespace Linkage

/-- Makes the descriptor of a definition. Its name is unique in the declaring type, or else in the
namespace. -/
def buildDefinition (linkage : Linkage) (resolveParts : ResolveParts)
    (definition : Index .typeDefinitions) : Resolve DescriptorId := do
  let record ← linkage.metadata.typeDefinition definition
  let declaringType? ← record.declaringDescriptor? resolveParts
  let scope := match declaringType? with
    | some declaring => .inType declaring
    | none => .inNamespace record.namespaceName
  let name ← Resolve.uniqueName scope (baseName record.name)
  let parameterNames ← linkage.metadata.declaredParameters record
  Resolve.push {
    kind := .definition definition
    name
    namespaceName := record.namespaceName
    declaringType?
    typeArguments := []
    parameterNames
    isValueType := record.isValueType
    isEnum := record.isEnum }

/-- The descriptor of a definition. There is one for each definition. -/
def describeWith (linkage : Linkage) (resolveParts : ResolveParts)
    (definition : Index .typeDefinitions) : Resolve DescriptorId := do
  match (← get).definitions[definition]? with
  | some (.done descriptor) => return descriptor
  | some .underway => throw (.nonTerminating .typeDefinitions definition.raw)
  | none =>
    Resolve.definitionOnce definition (linkage.buildDefinition resolveParts definition)

/-- The use of a definition: of an enumeration as a value, its integer type. -/
def useDefinition (linkage : Linkage) (resolveParts : ResolveParts)
    (definition : Index .typeDefinitions) (mode : ResolveMode)
    (otherwise : Resolve DescriptorId) : Resolve Usage := do
  match ← linkage.metadata.storedAs? definition mode with
  | some stored => resolveParts stored .empty .value
  | none => return .plain (← otherwise)

/-- Makes the descriptor of an instantiation of a definition, whose arguments are resolved in the
same context. -/
def buildInstantiation (linkage : Linkage) (resolveParts : ResolveParts)
    (genericClass : Index .genericClasses) (definition : Index .typeDefinitions)
    (context : GenericContext) : Resolve DescriptorId := do
  let generic ← linkage.describeWith resolveParts definition
  let arguments ← linkage.metadata.classArguments genericClass
  let typeArguments ← arguments.mapM fun argument ↦ resolveParts argument context .name
  let generic := (← get).descriptors[generic.position]?.getD (.named (.definition definition) "")
  Resolve.push { generic with
    kind := .instantiation genericClass definition
    typeArguments
    parameterNames := [] }

/-- The use of a generic class. Without a definition it counts as the root object type. -/
def useInstantiation (linkage : Linkage) (resolveParts : ResolveParts)
    (genericClass : Index .genericClasses) (context : GenericContext) (mode : ResolveMode) :
    Resolve Usage := do
  match ← linkage.metadata.openDefinition? genericClass with
  | none =>
    Resolve.report (.undefinedGenericClass genericClass)
    return .plain (← Resolve.builtin .object)
  | some definition =>
    linkage.useDefinition resolveParts definition mode
      (linkage.buildInstantiation resolveParts genericClass definition context)

/-- The use of a generic parameter: of the argument that stands for it, which has no context of its
own, or of the parameter itself. -/
def useParameter (linkage : Linkage) (resolveParts : ResolveParts) (type : Index .types)
    (arguments? : Option (Index .genericInstantiations)) (mode : ResolveMode) :
    Resolve Usage := do
  let parameter ← linkage.metadata.parameterOf type
  match arguments? with
  | none => return .plain (← Resolve.parameter linkage.metadata parameter)
  | some arguments =>
    let ordinal := (← linkage.metadata.genericParameter parameter).ordinal
    let instantiation ← linkage.metadata.genericInstantiation arguments
    match instantiation.arguments[ordinal.toNat]? with
    | some argument => resolveParts argument .empty mode
    | none => throw (.outOfRange .instantiationArguments ordinal.toUInt32)

/-- One step of the resolution: what a type reference of each kind is a usage of. -/
def expand (linkage : Linkage) (resolveParts : ResolveParts) (type : Index .types)
    (reference : TypeReference) (context : GenericContext) (mode : ResolveMode) : Resolve Usage :=
  match reference.kind, reference.data with
  | .pointer, .type pointee => return (← resolveParts pointee context mode).pointer
  | .vector, .type element => return (← resolveParts element context .value).arrayOf .vector
  | .array, .array index => do
    let array ← linkage.metadata.arrayType index
    return (← resolveParts array.element context .value).arrayOf (.ranked array.rank)
  | .genericInstance, .genericClass genericClass =>
    linkage.useInstantiation resolveParts genericClass context mode
  | .pointer, _ | .vector, _ | .array, _ | .genericInstance, _ =>
    throw (.mismatchedData type.raw reference.kind)
  | .typeParameter, _ => linkage.useParameter resolveParts type context.classArguments? mode
  | .methodParameter, _ => linkage.useParameter resolveParts type context.methodArguments? mode
  | .classType, _ | .valueType, _ => do
    let definition ← linkage.metadata.definitionOf type
    linkage.useDefinition resolveParts definition mode
      (linkage.describeWith resolveParts definition)
  | kind, _ => do
    if kind.isBuiltin then return .plain (← Resolve.builtin kind)
    else throw (.unsupportedKind kind)

/-- Resolves a type reference, inside of which others may be nested `room` times. -/
def resolveWithin (linkage : Linkage) (room : Nat) (type : Index .types)
    (context : GenericContext) (mode : ResolveMode) : Resolve Usage := do
  let reference ← linkage.metadata.typeReference type
  let context := if reference.kind.dependsOnContext then context else .empty
  match (← get).usages[(⟨type, context, mode⟩ : UsageKey)]? with
  | some (.done usage) => return usage
  | some .underway => throw (.nonTerminating .types type.raw)
  | none =>
    match room with
    | 0 => throw (.tooDeep type.raw maxNesting)
    | room + 1 =>
      Resolve.usageOnce ⟨type, context, mode⟩
        (linkage.expand (linkage.resolveWithin room) type reference context mode)

/-- Resolves a type reference. -/
def resolve (linkage : Linkage) : ResolveParts := linkage.resolveWithin maxNesting

/-- The descriptor of a definition. -/
def describe (linkage : Linkage) (definition : Index .typeDefinitions) : Resolve DescriptorId :=
  linkage.describeWith linkage.resolve definition

/-- The usage that stands for a definition. It is that of the type reference for the definition,
unless that is built in: then it is the definition itself. -/
def definitionUsage (linkage : Linkage) (definition : Index .typeDefinitions)
    (mode : ResolveMode) : Resolve Usage := do
  match ← linkage.typeForDefinition? definition with
  | some type =>
    let reference ← linkage.metadata.typeReference type
    if reference.kind.isBuiltin then return .plain (← linkage.describe definition)
    else linkage.resolve type .empty mode
  | none => return .plain (← linkage.describe definition)

end Linkage

end ManagedLayout
