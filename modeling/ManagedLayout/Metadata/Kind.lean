import ManagedLayout.Format.Choice
import ManagedLayout.Order

/-!
# Kinds of types and of context entries

The kinds that a type reference can have are those of a type signature in ECMA-335, II.23.1.16,
together with a few that only the runtime uses. A runtime generic context has entries of kinds of
its own.
-/

namespace ManagedLayout

/-- The kind of a type reference. -/
inductive TypeKind where
  | endOfList
  | void
  | boolean
  | char
  | int8
  | uint8
  | int16
  | uint16
  | int32
  | uint32
  | int64
  | uint64
  | float32
  | float64
  | string
  | pointer
  | byReference
  | valueType
  | classType
  /-- A parameter of a generic type. -/
  | typeParameter
  /-- An array with a rank. -/
  | array
  | genericInstance
  | typedReference
  | nativeInt
  | nativeUInt
  | functionPointer
  | object
  /-- An array of one dimension that starts at 0. -/
  | vector
  /-- A parameter of a generic method. -/
  | methodParameter
  | requiredModifier
  | optionalModifier
  | internal
  | modifier
  | sentinel
  | pinned
  | enumeration
  deriving DecidableEq, Repr

namespace TypeKind

instance : Ord TypeKind := ⟨compareOn TypeKind.ctorIdx⟩

instance : Std.TransOrd TypeKind := inferInstanceAs (Std.TransCmp (compareOn TypeKind.ctorIdx))

instance : Std.LawfulEqOrd TypeKind :=
  lawfulEqCmp_compareOn fun left right same ↦ by
    rw [← ofNat_ctorIdx left, ← ofNat_ctorIdx right, same]

/-- Every kind, in the order of the binary format. -/
def all : List TypeKind :=
  [endOfList, void, boolean, char, int8, uint8, int16, uint16, int32, uint32, int64, uint64,
    float32, float64, string, pointer, byReference, valueType, classType, typeParameter, array,
    genericInstance, typedReference, nativeInt, nativeUInt, functionPointer, object, vector,
    methodParameter, requiredModifier, optionalModifier, internal, modifier, sentinel, pinned,
    enumeration]

/-- The name of a kind in a dump. -/
def code : TypeKind → String
  | endOfList => "end"
  | void => "void"
  | boolean => "boolean"
  | char => "char"
  | int8 => "i1"
  | uint8 => "u1"
  | int16 => "i2"
  | uint16 => "u2"
  | int32 => "i4"
  | uint32 => "u4"
  | int64 => "i8"
  | uint64 => "u8"
  | float32 => "r4"
  | float64 => "r8"
  | string => "string"
  | pointer => "ptr"
  | byReference => "byref"
  | valueType => "valuetype"
  | classType => "class"
  | typeParameter => "var"
  | array => "array"
  | genericInstance => "genericinst"
  | typedReference => "typedbyref"
  | nativeInt => "i"
  | nativeUInt => "u"
  | functionPointer => "fnptr"
  | object => "object"
  | vector => "szarray"
  | methodParameter => "mvar"
  | requiredModifier => "cmodreqd"
  | optionalModifier => "cmodopt"
  | internal => "internal"
  | modifier => "modifier"
  | sentinel => "sentinel"
  | pinned => "pinned"
  | enumeration => "enum"

/-- The name of a kind in messages. -/
def label : TypeKind → String
  | endOfList => "End"
  | void => "Void"
  | boolean => "Boolean"
  | char => "Char"
  | int8 => "I1"
  | uint8 => "U1"
  | int16 => "I2"
  | uint16 => "U2"
  | int32 => "I4"
  | uint32 => "U4"
  | int64 => "I8"
  | uint64 => "U8"
  | float32 => "R4"
  | float64 => "R8"
  | string => "String"
  | pointer => "Ptr"
  | byReference => "Byref"
  | valueType => "Valuetype"
  | classType => "Class"
  | typeParameter => "Var"
  | array => "Array"
  | genericInstance => "Genericinst"
  | typedReference => "Typedbyref"
  | nativeInt => "I"
  | nativeUInt => "U"
  | functionPointer => "Fnptr"
  | object => "Object"
  | vector => "Szarray"
  | methodParameter => "Mvar"
  | requiredModifier => "CmodReqd"
  | optionalModifier => "CmodOpt"
  | internal => "Internal"
  | modifier => "Modifier"
  | sentinel => "Sentinel"
  | pinned => "Pinned"
  | enumeration => "Enum"

def format : Format TypeKind := .enumeration all code

theorem mem_all (kind : TypeKind) : kind ∈ all := by cases kind <;> decide

/-- How source code and struct layouts spell a type that is built in. -/
structure Builtin where
  /-- The keyword of the source language. -/
  keyword : String
  /-- The C type of a field of this type. -/
  cType : String
  /-- The name of the definition, in the namespace `System`, that the kind stands for. -/
  definitionName : String
  deriving DecidableEq, Repr

/-- The spellings of a kind whose types are built in. -/
def builtin? : TypeKind → Option Builtin
  | void => some ⟨"void", "void", "Void"⟩
  | boolean => some ⟨"bool", "bool", "Boolean"⟩
  | char => some ⟨"char", "uint16_t", "Char"⟩
  | int8 => some ⟨"sbyte", "int8_t", "SByte"⟩
  | uint8 => some ⟨"byte", "uint8_t", "Byte"⟩
  | int16 => some ⟨"short", "int16_t", "Int16"⟩
  | uint16 => some ⟨"ushort", "uint16_t", "UInt16"⟩
  | int32 => some ⟨"int", "int32_t", "Int32"⟩
  | uint32 => some ⟨"uint", "uint32_t", "UInt32"⟩
  | int64 => some ⟨"long", "int64_t", "Int64"⟩
  | uint64 => some ⟨"ulong", "uint64_t", "UInt64"⟩
  | float32 => some ⟨"float", "float", "Single"⟩
  | float64 => some ⟨"double", "double", "Double"⟩
  | string => some ⟨"string", "Il2CppString*", "String"⟩
  | nativeInt => some ⟨"intptr_t", "intptr_t", "IntPtr"⟩
  | nativeUInt => some ⟨"uintptr_t", "uintptr_t", "UIntPtr"⟩
  | object => some ⟨"object", "Il2CppObject*", "Object"⟩
  | typedReference => some ⟨"typedbyref", "Il2CppObject*", "TypedReference"⟩
  | _ => none

def isBuiltin (kind : TypeKind) : Bool := kind.builtin?.isSome

/-- The built-in kind that a definition of this name in the namespace `System` stands for. -/
def ofDefinitionName? (name : String) : Option TypeKind :=
  all.find? fun kind ↦ kind.builtin?.any (·.definitionName == name)

/-- Whether a type of this kind can depend on the arguments of a generic context. -/
def dependsOnContext : TypeKind → Bool
  | pointer | vector | array | typeParameter | methodParameter | genericInstance => true
  | _ => false

end TypeKind

/-- The kind of an entry of a runtime generic context. -/
inductive ContextKind where
  | invalid
  | type
  | classType
  | method
  | array
  | constrained
  deriving DecidableEq, Repr

namespace ContextKind

/-- Every kind, in the order of the binary format. -/
def all : List ContextKind := [invalid, type, classType, method, array, constrained]

/-- The name of a kind in a dump. -/
def code : ContextKind → String
  | invalid => "invalid"
  | type => "type"
  | classType => "class"
  | method => "method"
  | array => "array"
  | constrained => "constrained"

/-- The name of a kind in messages. -/
def label : ContextKind → String
  | invalid => "Invalid"
  | type => "Type"
  | classType => "Class"
  | method => "Method"
  | array => "Array"
  | constrained => "Constrained"

def format : Format ContextKind := .enumeration all code

theorem mem_all (kind : ContextKind) : kind ∈ all := by cases kind <;> decide

end ContextKind

end ManagedLayout
