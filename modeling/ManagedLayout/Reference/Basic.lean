import ManagedLayout.Error

/-!
# References between records

How one record of a dump leads to another. Which field of a record holds a reference, and whether it
is an index, an address or an encoded word, depends on the revision of the dump; these functions
are where that is decided. Whatever they return is the index of a record that exists.
-/

namespace ManagedLayout

/-- The arguments that generic parameters stand for: those of a type, and those of a method. -/
structure GenericContext where
  classArguments? : Option (Index .genericInstantiations)
  methodArguments? : Option (Index .genericInstantiations)
  deriving DecidableEq, Repr

namespace GenericContext

instance : Ord GenericContext :=
  ⟨compareLex (compareOn classArguments?) (compareOn methodArguments?)⟩

instance : Std.TransOrd GenericContext :=
  inferInstanceAs (Std.TransCmp (compareLex (compareOn classArguments?) (compareOn methodArguments?)))

instance : Std.LawfulEqOrd GenericContext :=
  lawfulEqCmp_compareLex fun
    | ⟨_, _⟩, ⟨_, _⟩, sameClass, sameMethod => by
      cases Std.LawfulEqOrd.eq_of_compare sameClass
      cases Std.LawfulEqOrd.eq_of_compare sameMethod
      rfl

/-- The context in which every parameter stands for itself. -/
def empty : GenericContext := ⟨none, none⟩

/-- The context that a pair of indices describes. -/
def ofPair (pair : InstantiationPair) : GenericContext :=
  ⟨pair.classArguments.present?, pair.methodArguments.present?⟩

def isEmpty (context : GenericContext) : Bool :=
  context.classArguments?.isNone && context.methodArguments?.isNone

end GenericContext

/-- The method that an encoded index refers to: a method itself, or an instantiation of one. -/
inductive MethodReference where
  | definition (method : Index .methods)
  | instantiation (spec : Index .methodSpecs)
  deriving DecidableEq, Repr

/-- An encoded method index: what it refers to, in three bits, and an index. -/
structure EncodedMethod where
  usage : UInt32
  index : UInt32
  deriving DecidableEq, Repr

namespace EncodedMethod

/-- The usage of a method itself. -/
def definitionUsage : UInt32 := 3

/-- The usage of an instantiation of a method. -/
def instantiationUsage : UInt32 := 6

/-- Takes an encoded method index apart. From version 27 on its lowest bit is a flag. -/
def ofWord (revision : Revision) (word : UInt32) : EncodedMethod where
  usage := word >>> 29
  index :=
    match revision with
    | .handles => (word &&& 0x1FFFFFFE) >>> 1
    | .legacy | .tokenContexts => word &&& 0x1FFFFFFF

end EncodedMethod

namespace Metadata

def revision (metadata : Metadata) : Revision := metadata.version.revision

theorem revision_eq_legacy {metadata : Metadata} (before : metadata.version < ⟨24, 2⟩) :
    metadata.revision = .legacy := by
  have beforeHandles : metadata.version < ⟨27, 0⟩ := by
    obtain earlier | ⟨same, -⟩ := before
    · exact .inl (UInt32.lt_trans earlier (by decide))
    · exact .inl (same ▸ by decide)
  have noHandles : ¬(⟨27, 0⟩ : Version) ≤ metadata.version := not_not_intro beforeHandles
  have noTokens : ¬(⟨24, 2⟩ : Version) ≤ metadata.version := not_not_intro before
  rw [revision, Version.revision, if_neg noHandles, if_neg noTokens]

theorem revision_ne_legacy {metadata : Metadata} (notBefore : ¬metadata.version < ⟨24, 2⟩) :
    metadata.revision ≠ .legacy := by
  have hasTokens : (⟨24, 2⟩ : Version) ≤ metadata.version := notBefore
  rw [revision, Version.revision, if_pos hasTokens]
  split <;> nofun

theorem revision_ne_handles {metadata : Metadata} (before : metadata.version < ⟨27, 0⟩) :
    metadata.revision ≠ .handles := by
  have noHandles : ¬(⟨27, 0⟩ : Version) ≤ metadata.version := not_not_intro before
  rw [revision, Version.revision, if_neg noHandles]
  split <;> nofun

theorem revision_eq_handles {metadata : Metadata} (notBefore : ¬metadata.version < ⟨27, 0⟩) :
    metadata.revision = .handles := if_pos notBefore

def typeDefinition (metadata : Metadata) (index : Index .typeDefinitions) :
    Except LayoutError TypeDefinition :=
  metadata.declarations.typeDefinitions.fetch index

def field (metadata : Metadata) (index : Index .fields) : Except LayoutError FieldDefinition :=
  metadata.declarations.fields.fetch index

def method (metadata : Metadata) (index : Index .methods) : Except LayoutError MethodDefinition :=
  metadata.declarations.methods.fetch index

def genericContainer (metadata : Metadata) (index : Index .genericContainers) :
    Except LayoutError GenericContainer :=
  metadata.declarations.genericContainers.fetch index

def genericParameter (metadata : Metadata) (index : Index .genericParameters) :
    Except LayoutError GenericParameter :=
  metadata.declarations.genericParameters.fetch index

/-- An entry of a virtual table, an encoded method index. -/
def vtableEntry (metadata : Metadata) (index : Index .vtableMethods) : Except LayoutError UInt32 :=
  metadata.declarations.vtableMethods.fetch index

def typeReference (metadata : Metadata) (index : Index .types) : Except LayoutError TypeReference :=
  metadata.registrations.types.types.fetch index

def genericClass (metadata : Metadata) (index : Index .genericClasses) :
    Except LayoutError GenericClass :=
  metadata.registrations.types.genericClasses.fetch index

def genericInstantiation (metadata : Metadata) (index : Index .genericInstantiations) :
    Except LayoutError GenericInstantiation :=
  metadata.registrations.types.genericInstantiations.fetch index

def arrayType (metadata : Metadata) (index : Index .arrayTypes) : Except LayoutError ArrayType :=
  metadata.registrations.types.arrayTypes.fetch index

def methodSpec (metadata : Metadata) (index : Index .methodSpecs) : Except LayoutError MethodSpec :=
  metadata.registrations.types.methodSpecs.fetch index

/-- The index of the record that stood at an address in memory. The table started `offset` bytes
behind the base address, and had `size` records of `stride` bytes each. Only revisions that refer by
address have such references. -/
def indexOfHandle (metadata : Metadata) (table : TableKind) (handle : UInt64)
    (offset stride : MemoryLayout → UInt64) (size : Nat) : Except LayoutError (Index table) :=
  match metadata.revision, metadata.declarations.layout? with
  | .handles, some layout =>
    let base := layout.address.toNat + (offset layout).toNat
    let distance := handle.toNat - base
    let stride := (stride layout).toNat
    let position := distance / stride
    if base ≤ handle.toNat ∧ stride ≠ 0 ∧ distance % stride = 0 ∧ position < UInt32.size ∧
        position < size then
      .ok (.ofPosition position)
    else .error (.badHandle table handle)
  | _, _ => .error (.badHandle table handle)

/-- The definition that a class or value type refers to. -/
def definitionOf (metadata : Metadata) (type : Index .types) :
    Except LayoutError (Index .typeDefinitions) := do
  let reference ← metadata.typeReference type
  match reference.data with
  | .definition definition => do
    let _ ← metadata.typeDefinition definition
    return definition
  | .definitionHandle handle =>
    metadata.indexOfHandle .typeDefinitions handle MemoryLayout.typeDefinitionsOffset
      MemoryLayout.typeDefinitionSize metadata.declarations.typeDefinitions.size
  | _ => throw (.mismatchedData type.raw reference.kind)

/-- The generic parameter that a parameter type refers to. -/
def parameterOf (metadata : Metadata) (type : Index .types) :
    Except LayoutError (Index .genericParameters) := do
  let reference ← metadata.typeReference type
  match reference.data with
  | .parameter parameter => do
    let _ ← metadata.genericParameter parameter
    return parameter
  | .parameterHandle handle =>
    metadata.indexOfHandle .genericParameters handle MemoryLayout.genericParametersOffset
      MemoryLayout.genericParameterSize metadata.declarations.genericParameters.size
  | _ => throw (.mismatchedData type.raw reference.kind)

/-- The generic definition that a generic class instantiates; none if the record leaves it out. -/
def openDefinition? (metadata : Metadata) (genericClass : Index .genericClasses) :
    Except LayoutError (Option (Index .typeDefinitions)) := do
  let record ← metadata.genericClass genericClass
  match metadata.revision with
  | .handles =>
    match record.type.present? with
    | some type => return some (← metadata.definitionOf type)
    | none => return none
  | .legacy | .tokenContexts =>
    match record.definition.present? with
    | some definition => do
      let _ ← metadata.typeDefinition definition
      return some definition
    | none => return none

/-- The context in which a method instantiation resolves the types of its method. -/
def specContext (metadata : Metadata) (spec : Index .methodSpecs) :
    Except LayoutError GenericContext := do
  let record ← metadata.methodSpec spec
  let context := GenericContext.ofPair ⟨record.classArguments, record.methodArguments⟩
  (context.classArguments?.toList ++ context.methodArguments?.toList).forM fun arguments ↦ do
    let _ ← metadata.genericInstantiation arguments
  return context

/-- The method that an entry of a virtual table names, directly or as an instantiation. -/
def vtableMethod (metadata : Metadata) (entry : Index .vtableMethods) :
    Except LayoutError (Index .methods) := do
  let encoded := EncodedMethod.ofWord metadata.revision (← metadata.vtableEntry entry)
  let method ←
    if encoded.usage = EncodedMethod.instantiationUsage then
      do pure (← metadata.methodSpec ⟨encoded.index⟩).method
    else pure ⟨encoded.index⟩
  let _ ← metadata.method method
  return method

end Metadata

end ManagedLayout
