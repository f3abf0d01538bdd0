import ManagedLayout.Catalogue.CallSites
import ManagedLayout.Catalogue.Instances
import ManagedLayout.FieldOffset
import Std.Data.TreeMap

/-!
# The members of a layout

The parts of a layout that are worked out type by type: the C types of fields, the parent, the
virtual methods and the runtime generic contexts.
-/

namespace ManagedLayout

/-- The names that the earlier passes of a build have given. -/
structure BuildNames where
  definitions : DefinitionNames
  instances : InstanceNames
  callSites : Std.TreeMap String (Array CallSite)

namespace BuildNames

/-- The name of the layout that a usage is of, arrays and pointers aside. An instantiation with
arguments from a context is the layout with these arguments, if there is one. -/
def structName (names : BuildNames) (state : ResolutionState) (usage : Usage) : String :=
  let descriptor := state.descriptor usage.descriptor
  let spelling := state.descriptorText usage.descriptor true true
  match descriptor.kind with
  | .builtin kind => names.definitions.builtinNames.getD kind descriptor.name
  | .parameter _ => "Il2CppObject"
  | .definition definition => names.definitions.displayNames.getD definition spelling
  | .instantiation genericClass definition =>
    let closed? := state.instanceName? names.definitions.displayNames usage.descriptor definition
    match closed?.filter names.instances.structNames.contains with
    | some name => name
    | none => names.instances.names.getD genericClass spelling

/-- The C type of a field. Every array is a pointer to an array struct; what is no value type is a
pointer as well. -/
def fieldTypeName (names : BuildNames) (state : ResolutionState) (usage : Usage) : String :=
  let base :=
    if usage.isArray then
      names.structName state usage
        ++ String.join (usage.arrays.map fun _ ↦ "_array") ++ "*"
    else
      let descriptor := state.descriptor usage.descriptor
      match descriptor.kind with
      | .builtin kind => (kind.builtin?.map (·.cType)).getD "void"
      | .parameter _ => "Il2CppObject*"
      | .definition _ | .instantiation .. =>
        names.structName state usage ++ if descriptor.isValueType then "" else "*"
  base ++ asterisks usage.indirection

end BuildNames

/-- The fields of a layout so far: those of instances and those of the type itself, and their
names. -/
structure FieldSplit where
  instanceFields : Array FieldLayout
  staticFields : Array FieldLayout
  pool : NamePool

namespace FieldSplit

def empty : FieldSplit := ⟨#[], #[], .empty⟩

/-- The name that a field is given. If the declared name is taken, the ordinal stands in front of
it. -/
def fieldName (split : FieldSplit) (ordinal : Nat) (name : String) : String × NamePool :=
  split.pool.request
    (if split.pool.contains name then "_" ++ toString ordinal ++ "_" ++ name else name)

/-- Appends a field. -/
def insert (split : FieldSplit) (isStatic : Bool) (field : FieldLayout) (pool : NamePool) :
    FieldSplit :=
  if isStatic then { split with staticFields := split.staticFields.push field, pool }
  else { split with instanceFields := split.instanceFields.push field, pool }

end FieldSplit

namespace Linkage

/-- Adds a field to a layout, unless it is a constant. -/
def addField (linkage : Linkage) (names : BuildNames) (offsets : OffsetSource)
    (index : Index .typeDefinitions) (definition : TypeDefinition) (context : GenericContext)
    (split : FieldSplit) (field : FieldDefinition) (ordinal : Nat) : Resolve FieldSplit := do
  let reference ← linkage.metadata.typeReference field.type
  if reference.isLiteral then return split
  let usage ← linkage.resolve field.type context .value
  let state ← get
  let (name, pool) := split.fieldName ordinal field.name
  let place : FieldPlace := {
    definition := index
    ordinal := UInt32.ofNat ordinal
    field := definition.fieldStart.offset (UInt32.ofNat ordinal)
    inValueType := definition.isValueType
    isStatic := reference.isStatic }
  return split.insert reference.isStatic {
    typeName := names.fieldTypeName state usage
    name
    isValueType := state.isValueType usage
    isCustomType := state.isCustomType usage
    offset := offsets place
    indirection := UInt32.ofNat usage.indirection } pool

/-- The fields of a definition. -/
def splitFields (linkage : Linkage) (names : BuildNames) (offsets : OffsetSource)
    (index : Index .typeDefinitions) (definition : TypeDefinition) (context : GenericContext) :
    Resolve FieldSplit := do
  match linkage.metadata.declarations.fields.slice? definition.fieldStart
      definition.fieldCount.toUInt32 with
  | none => throw (.outOfRange .fields definition.fieldStart.raw)
  | some fields =>
    fields.zipIdx.foldlM
      (fun split (field, ordinal) ↦
        linkage.addField names offsets index definition context split field ordinal)
      .empty

/-- The name of the layout that a definition derives from. The root object type is not named, nor is
a parent that is no definition or the definition itself. -/
def parentName? (linkage : Linkage) (names : BuildNames) (index : Index .typeDefinitions)
    (definition : TypeDefinition) (context : GenericContext) : Resolve (Option String) := do
  if definition.isValueType || definition.isEnum then return none
  match definition.parent.present? with
  | none => return none
  | some parent =>
    let usage ← linkage.resolve parent context .name
    let state ← get
    match (state.descriptor usage.descriptor).kind with
    | .builtin .object => return none
    | .definition found =>
      if found = index then
        Resolve.report (.ownParent index)
        return none
      else return some (names.structName state usage)
    | .instantiation .. => return some (names.structName state usage)
    | .builtin _ | .parameter _ =>
      Resolve.report (.foreignParent index (state.usageText usage true))
      return none

end Linkage

/-- The methods that `count` consecutive entries of virtual tables name. -/
def Metadata.vtableRange (metadata : Metadata) :
    (count : Nat) → Index .vtableMethods → Except LayoutError (List MethodDefinition)
  | 0, _ => .ok []
  | count + 1, start => do
    let method ← metadata.method (← metadata.vtableMethod start)
    return method :: (← metadata.vtableRange count (start.offset 1))

/-- The names of methods by the slots that they are declared for; the last method of a slot
counts. -/
def methodsBySlot (methods : List MethodDefinition) : Std.TreeMap UInt16 String :=
  methods.foldl (fun slots method ↦ slots.insert method.slot method.name) ∅

/-- The virtual methods of a definition: slot and name, in the order of the slots. -/
def Metadata.virtualMethods (metadata : Metadata) (definition : TypeDefinition) :
    Except LayoutError (List String) := do
  let methods ← metadata.vtableRange definition.vtableCount.toNat definition.vtableStart
  return (methodsBySlot methods).toList.map fun (slot, name) ↦
    "_" ++ toString slot.toNat ++ "_" ++ name

namespace Linkage

/-- The name of an entry of a runtime generic context. -/
def contextRecord (linkage : Linkage) (entry : ContextEntry) : Resolve ContextRecord := do
  match entry.kind with
  | .type =>
    let usage ← linkage.resolve ⟨entry.data⟩ .empty .name
    return .type ((← get).usageText usage true)
  | .classType =>
    let usage ← linkage.resolve ⟨entry.data⟩ .empty .name
    return .classType ((← get).usageText usage true)
  | .method =>
    let context ← linkage.metadata.specContext ⟨entry.data⟩
    let spec ← linkage.metadata.methodSpec ⟨entry.data⟩
    let method ← linkage.metadata.method spec.method
    let declaring ← linkage.describe method.declaringType
    let owner := (← get).descriptorText declaring true false
    let classArguments? ← linkage.instantiationText? context.classArguments?
    let methodArguments? ← linkage.instantiationText? context.methodArguments?
    return .method (owner ++ classArguments?.getD "" ++ "." ++ method.name
      ++ methodArguments?.getD "")
  | kind => throw (.unsupportedContextKind kind)

/-- The runtime generic contexts of the methods that a definition declares, the empty ones left
out. -/
def methodContexts (linkage : Linkage) (image : Image) (methods : List (Index .methods)) :
    Resolve (List (MethodContext ContextRecord)) :=
  methods.filterMapM fun method ↦ do
    let entries ← linkage.contextOfMethod image method
    if entries.isEmpty then return none
    let record ← linkage.metadata.method method
    return some ⟨record.name, ← entries.mapM linkage.contextRecord⟩

end Linkage

end ManagedLayout
