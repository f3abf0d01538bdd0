import ManagedLayout.Resolution.Basic

/-!
# Spelling of types

A usage is spelled as in source code: the names of the declaring types, the name, the arguments in
angle brackets, and the arrays and pointers around it. The namespace stands in front of the
outermost type if it is asked for; in front of arguments it never does.

Descriptors refer to descriptors before them in the arena, and the functions here follow only such
references, so that every spelling ends.
-/

namespace ManagedLayout

/-- Arguments between angle brackets, if there are any. -/
def angled (arguments : List String) : String :=
  if arguments.isEmpty then "" else "<" ++ ", ".intercalate arguments ++ ">"

/-- As many asterisks as there are pointers. -/
def asterisks (count : Nat) : String := String.ofList (List.replicate count '*')

/-- The brackets of an array. -/
def ArrayShape.text : ArrayShape → String
  | vector => "[]"
  | ranked rank => "[" ++ String.ofList (List.replicate (rank.toNat - 1) ',') ++ "]"

/-- The arrays and pointers around a descriptor, innermost first. -/
def Usage.suffix (usage : Usage) : String :=
  usage.arrays.foldl
      (fun done level ↦ done ++ asterisks level.elementIndirection ++ level.shape.text) ""
    ++ asterisks usage.indirection

namespace ResolutionState

def descriptor (state : ResolutionState) (id : DescriptorId) : Descriptor :=
  state.descriptors[id.position]?.getD (.named (.builtin .object) "")

/-- What stands in front of the name of a descriptor: its declaring types, or its namespace. -/
def ownerText (state : ResolutionState) (id : DescriptorId) (qualified : Bool) : String :=
  let descriptor := state.descriptor id
  match descriptor.declaringType? with
  | some declaring =>
    if _earlier : declaring.position < id.position then
      state.ownerText declaring qualified ++ (state.descriptor declaring).name ++ "."
    else ""
  | none =>
    if qualified && !descriptor.namespaceName.isEmpty then descriptor.namespaceName ++ "."
    else ""
termination_by id.position

/-- The spellings of the arguments of a descriptor: of an instantiation its types, of a definition
its parameters. -/
def argumentTexts (state : ResolutionState) (id : DescriptorId) : List String :=
  let descriptor := state.descriptor id
  match descriptor.kind with
  | .instantiation .. =>
    descriptor.typeArguments.map fun argument ↦
      if _earlier : argument.descriptor.position < id.position then
        state.ownerText argument.descriptor false ++ (state.descriptor argument.descriptor).name
          ++ angled (state.argumentTexts argument.descriptor) ++ argument.suffix
      else ""
  | .definition _ => descriptor.parameterNames
  | .builtin _ | .parameter _ => []
termination_by id.position

/-- The last part of the name of a descriptor, with its arguments. -/
def bareText (state : ResolutionState) (id : DescriptorId) : String :=
  (state.descriptor id).name ++ angled (state.argumentTexts id)

/-- The name of a descriptor, with or without its arguments. -/
def descriptorText (state : ResolutionState) (id : DescriptorId)
    (qualified withArguments : Bool) : String :=
  state.ownerText id qualified
    ++ if withArguments then state.bareText id else (state.descriptor id).name

/-- The spelling of a usage. -/
def usageText (state : ResolutionState) (usage : Usage) (qualified : Bool) : String :=
  state.descriptorText usage.descriptor qualified true ++ usage.suffix

/-- The namespace of the outermost declaring type of a descriptor. -/
def rootNamespace (state : ResolutionState) (id : DescriptorId) : String :=
  let descriptor := state.descriptor id
  match descriptor.declaringType? with
  | some declaring =>
    if _earlier : declaring.position < id.position then state.rootNamespace declaring else ""
  | none => descriptor.namespaceName
termination_by id.position

/-- Whether a usage is a value type that is no enumeration, used without arrays and pointers. -/
def isValueType (state : ResolutionState) (usage : Usage) : Bool :=
  let descriptor := state.descriptor usage.descriptor
  !usage.isArray && !usage.isPointer &&
    match descriptor.kind with
    | .definition _ | .instantiation .. => descriptor.isValueType && !descriptor.isEnum
    | .builtin _ | .parameter _ => false

/-- Whether a usage is of more than a scalar: a string, an array or any declared type. A pointer is
what it points to. -/
def isCustomType (state : ResolutionState) (usage : Usage) : Bool :=
  usage.isArray ||
    match (state.descriptor usage.descriptor).kind with
    | .builtin kind => kind == .string
    | .definition _ | .instantiation .. => true
    | .parameter _ => false

end ResolutionState

/-- The spelling of the arguments of a generic instantiation, each resolved without a context. -/
def Linkage.instantiationText (linkage : Linkage) (index : Index .genericInstantiations) :
    Resolve String := do
  let instantiation ← linkage.metadata.genericInstantiation index
  let texts ← instantiation.arguments.toList.mapM fun argument ↦ do
    let usage ← linkage.resolve argument .empty .name
    return (← get).usageText usage false
  return "<" ++ ", ".intercalate texts ++ ">"

end ManagedLayout
