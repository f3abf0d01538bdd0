import ManagedLayout.Catalogue.Definitions
import ManagedLayout.Text.Replace

/-!
# The names of instantiations

A generic class that some type reference uses gets the display name of its definition, in which the
last part, with the parameters, is replaced by the same part with the arguments. Generic classes
that differ in nothing that shows in the name share it; only the first one of them gets a layout,
and none does if the name is that of a definition.
-/

namespace ManagedLayout

/-- An instantiation with its name. -/
structure NamedInstance where
  genericClass : Index .genericClasses
  definition : Index .typeDefinitions
  name : String
  descriptor : DescriptorId
  deriving DecidableEq, Repr

/-- The instantiations named so far. -/
structure InstanceNames where
  /-- Those that get a layout, in the order in which they were found. -/
  entries : Array NamedInstance
  names : Std.TreeMap (Index .genericClasses) String
  /-- The names of those that get a layout. -/
  structNames : Std.TreeSet String

namespace InstanceNames

def empty : InstanceNames := ⟨#[], ∅, ∅⟩

/-- Records the name of a generic class, and a layout for it unless there is one of that name. -/
def insert (instances : InstanceNames) (definitions : DefinitionNames) (entry : NamedInstance) :
    InstanceNames :=
  let names := instances.names.insert entry.genericClass entry.name
  if definitions.pool.contains entry.name || instances.structNames.contains entry.name then
    { instances with names }
  else
    ⟨instances.entries.push entry, names, instances.structNames.insert entry.name⟩

end InstanceNames

/-- The name of an instantiation, made from the display name of its definition; none if the
definition has no such name, or if its last part does not occur in it. -/
def ResolutionState.instanceName? (state : ResolutionState)
    (displayNames : Std.TreeMap (Index .typeDefinitions) String) (instantiation : DescriptorId)
    (definition : Index .typeDefinitions) : Option String := do
  let displayName ← displayNames[definition]?
  let generic ← state.builtDefinition? definition
  Text.replaced? (state.bareText generic) (state.bareText instantiation) displayName

namespace Linkage

/-- Names a generic class with a definition by a type reference that uses it. -/
def addInstance (linkage : Linkage) (definitions : DefinitionNames) (instances : InstanceNames)
    (genericClass : Index .genericClasses) (definition : Index .typeDefinitions)
    (type : Index .types) : Resolve InstanceNames := do
  let usage ← linkage.resolve type .empty .name
  let _ ← linkage.describe definition
  let state ← get
  let name := (state.instanceName? definitions.displayNames usage.descriptor definition).getD
    (state.usageText usage true)
  Resolve.report (.instanceNamed genericClass name)
  return instances.insert definitions ⟨genericClass, definition, name, usage.descriptor⟩

/-- Names the generic class that a type reference uses, if it is the first one to do so. -/
def nameInstance (linkage : Linkage) (definitions : DefinitionNames) (instances : InstanceNames)
    (type : Index .types) (reference : TypeReference) : Resolve InstanceNames := do
  match reference.kind, reference.data with
  | .genericInstance, .genericClass genericClass =>
    if instances.names.contains genericClass then return instances
    match ← linkage.metadata.openDefinition? genericClass with
    | none => return instances
    | some definition =>
      if definitions.displayNames.contains definition then
        linkage.addInstance definitions instances genericClass definition type
      else throw (.unownedDefinition genericClass.raw)
  | .genericInstance, _ => throw (.mismatchedData type.raw reference.kind)
  | _, _ => return instances

/-- The generic classes that type references use, with their names. -/
def nameInstances (linkage : Linkage) (definitions : DefinitionNames) : Resolve InstanceNames :=
  linkage.metadata.registrations.types.types.indexed.foldlM
    (fun instances (type, reference) ↦ linkage.nameInstance definitions instances type reference)
    .empty

end Linkage

end ManagedLayout
