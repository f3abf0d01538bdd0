import ManagedLayout.Reference.Basic

/-!
# Descriptors and usages

A resolved type is the use of a descriptor. Descriptors stand in an arena and refer to each other by
position. Pointers and arrays have no descriptors: a usage says of a descriptor which arrays and
pointers are around it.
-/

namespace ManagedLayout

/-- The position of a descriptor in the arena. -/
structure DescriptorId where
  position : Nat
  deriving DecidableEq, Repr

instance : Ord DescriptorId := ⟨compareOn DescriptorId.position⟩

instance : Std.TransOrd DescriptorId :=
  inferInstanceAs (Std.TransCmp (compareOn DescriptorId.position))

instance : Std.LawfulEqOrd DescriptorId :=
  lawfulEqCmp_compareOn fun _ _ ↦ congrArg DescriptorId.mk

/-- What holds of a descriptor if it holds of all before it in the arena, holds of every one. -/
@[elab_as_elim]
theorem DescriptorId.induction {motive : DescriptorId → Prop}
    (step : ∀ id, (∀ earlier : DescriptorId, earlier.position < id.position → motive earlier) →
      motive id) (id : DescriptorId) : motive id := by
  induction position : id.position using Nat.strongRecOn generalizing id with
  | ind position ih =>
    subst position
    exact step id fun earlier isEarlier ↦ ih earlier.position isEarlier earlier rfl

/-- The shape of an array. -/
inductive ArrayShape where
  /-- One dimension that starts at 0. -/
  | vector
  | ranked (rank : UInt8)
  deriving DecidableEq, Repr

/-- An array around an element. -/
structure ArrayLevel where
  shape : ArrayShape
  /-- How many pointers are between the array and what its elements are made of. -/
  elementIndirection : Nat
  deriving DecidableEq, Repr

/-- A descriptor with the arrays and pointers around it. -/
structure Usage where
  descriptor : DescriptorId
  /-- How many pointers are around the outermost array. -/
  indirection : Nat
  /-- Innermost first. -/
  arrays : List ArrayLevel
  deriving DecidableEq, Repr

namespace Usage

/-- A descriptor with nothing around it. -/
def plain (descriptor : DescriptorId) : Usage := ⟨descriptor, 0, []⟩

/-- A pointer to a usage. -/
def pointer (usage : Usage) : Usage := { usage with indirection := usage.indirection + 1 }

/-- An array of a usage. -/
def arrayOf (usage : Usage) (shape : ArrayShape) : Usage :=
  ⟨usage.descriptor, 0, usage.arrays ++ [⟨shape, usage.indirection⟩]⟩

def isArray (usage : Usage) : Bool := !usage.arrays.isEmpty

def isPointer (usage : Usage) : Bool := 0 < usage.indirection

end Usage

/-- What a descriptor describes. -/
inductive DescriptorKind where
  | builtin (kind : TypeKind)
  /-- A generic parameter without an argument. -/
  | parameter (parameter : Index .genericParameters)
  /-- A definition; a generic one with its own parameters. -/
  | definition (definition : Index .typeDefinitions)
  | instantiation (genericClass : Index .genericClasses) (definition : Index .typeDefinitions)
  deriving DecidableEq, Repr

/-- A named type. -/
structure Descriptor where
  kind : DescriptorKind
  /-- Without the parameter count, and unique within its owner. -/
  name : String
  namespaceName : String
  declaringType? : Option DescriptorId
  /-- The arguments of an instantiation. -/
  typeArguments : List Usage
  /-- The names of the parameters of a generic definition. -/
  parameterNames : List String
  isValueType : Bool
  isEnum : Bool
  deriving DecidableEq, Repr

/-- A descriptor of which only the kind and the name are known. -/
def Descriptor.named (kind : DescriptorKind) (name : String) : Descriptor :=
  ⟨kind, name, "", none, [], [], false, false⟩

/-- What a name must be unique in: a namespace, or a declaring type. -/
inductive NameScope where
  | inNamespace (name : String)
  | inType (declaring : DescriptorId)
  deriving DecidableEq, Repr

namespace NameScope

/-- The declaring type of a scope that is one. -/
def declaring? : NameScope → Option DescriptorId
  | inNamespace _ => none
  | inType declaring => some declaring

/-- The name of a scope that is a namespace. -/
def namespaceName : NameScope → String
  | inNamespace name => name
  | inType _ => ""

instance : Ord NameScope := ⟨compareLex (compareOn declaring?) (compareOn namespaceName)⟩

instance : Std.TransOrd NameScope :=
  inferInstanceAs (Std.TransCmp (compareLex (compareOn declaring?) (compareOn namespaceName)))

instance : Std.LawfulEqOrd NameScope :=
  lawfulEqCmp_compareLex fun left right sameType sameName ↦ by
    have sameType := Std.LawfulEqOrd.eq_of_compare sameType
    have sameName := Std.LawfulEqOrd.eq_of_compare sameName
    cases left <;> cases right <;> simp_all [declaring?, namespaceName]

end NameScope

/-- Whether a usage is for naming a type, or for storing a value: an enumeration is stored as its
integer type. -/
inductive ResolveMode where
  | name
  | value
  deriving DecidableEq, Repr

namespace ResolveMode

instance : Ord ResolveMode := ⟨compareOn ResolveMode.ctorIdx⟩

instance : Std.TransOrd ResolveMode := inferInstanceAs (Std.TransCmp (compareOn ResolveMode.ctorIdx))

instance : Std.LawfulEqOrd ResolveMode :=
  lawfulEqCmp_compareOn fun left right same ↦ by
    rw [← ofNat_ctorIdx left, ← ofNat_ctorIdx right, same]

end ResolveMode

end ManagedLayout
