import ManagedLayout.Metadata.Definition

/-!
# Registrations

The tables that compiled code registers with the runtime: the types that code refers to, the generic
instantiations among them, field offsets, and the code modules with their runtime generic contexts.
References between them are table indices, also where the binary has pointers.
-/

namespace ManagedLayout

open Format (text index uint8 uint16 uint32 uint64 int32 flag list array table optional)

/-- What a type reference refers to, besides its kind. -/
inductive TypeData where
  | none
  | definition (index : Index .typeDefinitions)
  /-- The address of a type definition in memory. -/
  | definitionHandle (handle : UInt64)
  | type (index : Index .types)
  | parameter (index : Index .genericParameters)
  /-- The address of a generic parameter in memory. -/
  | parameterHandle (handle : UInt64)
  | genericClass (index : Index .genericClasses)
  | array (index : Index .arrayTypes)
  deriving DecidableEq, Repr

namespace TypeData

/-- The cases of `TypeData`, as a nest of sums. -/
abbrev Parts : Type :=
  Unit ⊕ Index .typeDefinitions ⊕ UInt64 ⊕ Index .types ⊕ Index .genericParameters ⊕ UInt64 ⊕
    Index .genericClasses ⊕ Index .arrayTypes ⊕ Empty

def build : Parts → TypeData
  | .inl () => none
  | .inr (.inl index) => definition index
  | .inr (.inr (.inl handle)) => definitionHandle handle
  | .inr (.inr (.inr (.inl index))) => type index
  | .inr (.inr (.inr (.inr (.inl index)))) => parameter index
  | .inr (.inr (.inr (.inr (.inr (.inl handle))))) => parameterHandle handle
  | .inr (.inr (.inr (.inr (.inr (.inr (.inl index)))))) => genericClass index
  | .inr (.inr (.inr (.inr (.inr (.inr (.inr (.inl index))))))) => array index

def parts : TypeData → Parts
  | none => .inl ()
  | definition index => .inr (.inl index)
  | definitionHandle handle => .inr (.inr (.inl handle))
  | type index => .inr (.inr (.inr (.inl index)))
  | parameter index => .inr (.inr (.inr (.inr (.inl index))))
  | parameterHandle handle => .inr (.inr (.inr (.inr (.inr (.inl handle)))))
  | genericClass index => .inr (.inr (.inr (.inr (.inr (.inr (.inl index))))))
  | array index => .inr (.inr (.inr (.inr (.inr (.inr (.inr (.inl index)))))))

def format : Format TypeData :=
  .choice
    (.plain "None" <|
      .payload "TypeDefinitionIndex" index <|
      .payload "TypeDefinitionHandle" uint64 <|
      .payload "TypeIndex" index <|
      .payload "GenericParameterIndex" index <|
      .payload "GenericParameterHandle" uint64 <|
      .payload "GenericClassIndex" index <|
      .payload "ArrayType" index .none)
    build parts

end TypeData

/-- A type reference: the use of a type somewhere in code. -/
structure TypeReference where
  data : TypeData
  /-- The attributes of the parameter or field that has this type. -/
  attributes : UInt16
  kind : TypeKind
  isByReference : Bool
  isPinned : Bool
  isValueType : Bool
  deriving DecidableEq, Repr

namespace TypeReference

/-- Whether a field of this type belongs to the declaring type and not to its instances. -/
def isStatic (type : TypeReference) : Bool := type.attributes &&& 0x10 != 0

/-- Whether a field of this type is a constant, which takes no place in memory. -/
def isLiteral (type : TypeReference) : Bool := type.attributes &&& 0x40 != 0

def format : Format TypeReference :=
  .record
    (.cons (.defaulted "data" TypeData.format .none) <|
      .cons (.defaulted "attrs" uint16 0) <|
      .cons (.required "ty" TypeKind.format) <|
      .cons (.defaulted "byref" flag false) <|
      .cons (.defaulted "pinned" flag false) <|
      .cons (.defaulted "valuetype" flag false) .none)
    (fun (data, attributes, kind, isByReference, isPinned, isValueType, ()) ↦
      { data, attributes, kind, isByReference, isPinned, isValueType })
    (fun type ↦
      (type.data, type.attributes, type.kind, type.isByReference, type.isPinned, type.isValueType,
        ()))

end TypeReference

/-- The arguments of a generic class and of a generic method, either of which may be absent. -/
structure InstantiationPair where
  classArguments : Index .genericInstantiations
  methodArguments : Index .genericInstantiations
  deriving DecidableEq, Repr

def InstantiationPair.format : Format InstantiationPair :=
  .record
    (.cons (.defaulted "class_inst_index" index .absent) <|
      .cons (.defaulted "method_inst_index" index .absent) .none)
    (fun (classArguments, methodArguments, ()) ↦ { classArguments, methodArguments })
    (fun pair ↦ (pair.classArguments, pair.methodArguments, ()))

/-- An instantiation of a generic type. -/
structure GenericClass where
  /-- The generic definition, before version 27. -/
  definition : Index .typeDefinitions
  /-- A type reference to the generic definition, from version 27 on. -/
  type : Index .types
  context : InstantiationPair
  deriving DecidableEq, Repr

def GenericClass.format : Format GenericClass :=
  .record
    (.cons (.defaulted "type_definition_index" index .absent) <|
      .cons (.defaulted "type_index" index .absent) <|
      .cons (.defaulted "context" InstantiationPair.format ⟨.absent, .absent⟩) .none)
    (fun (definition, type, context, ()) ↦ { definition, type, context })
    (fun genericClass ↦ (genericClass.definition, genericClass.type, genericClass.context, ()))

/-- The types that a generic type or method is instantiated with. -/
structure GenericInstantiation where
  arguments : Array (Index .types)
  deriving DecidableEq, Repr

def GenericInstantiation.format : Format GenericInstantiation :=
  .record (.cons (.required "types" (array index)) .none)
    (fun (arguments, ()) ↦ { arguments })
    (fun instantiation ↦ (instantiation.arguments, ()))

/-- An array type with a rank. -/
structure ArrayType where
  element : Index .types
  rank : UInt8
  deriving DecidableEq, Repr

def ArrayType.format : Format ArrayType :=
  .record (.cons (.required "elem_ty" index) <| .cons (.required "rank" uint8) .none)
    (fun (element, rank, ()) ↦ { element, rank })
    (fun type ↦ (type.element, type.rank, ()))

/-- An instantiation of a method. -/
structure MethodSpec where
  method : Index .methods
  classArguments : Index .genericInstantiations
  methodArguments : Index .genericInstantiations
  deriving DecidableEq, Repr

def MethodSpec.format : Format MethodSpec :=
  .record
    (.cons (.required "method_definition_index" index) <|
      .cons (.defaulted "class_inst_index" index .absent) <|
      .cons (.defaulted "method_inst_index" index .absent) .none)
    (fun (method, classArguments, methodArguments, ()) ↦
      { method, classArguments, methodArguments })
    (fun spec ↦ (spec.method, spec.classArguments, spec.methodArguments, ()))

/-- The offsets that the compiler chose for fields. -/
inductive FieldOffsets where
  /-- One offset for each field, up to version 21. -/
  | byField (offsets : Array Int32)
  /-- One list of offsets for each type definition, in the order of its fields. -/
  | byType (offsets : Array (Array Int32))
  deriving DecidableEq, Repr

namespace FieldOffsets

/-- The cases of `FieldOffsets`, as a nest of sums. -/
abbrev Parts : Type := Array Int32 ⊕ Array (Array Int32) ⊕ Empty

def build : Parts → FieldOffsets
  | .inl offsets => byField offsets
  | .inr (.inl offsets) => byType offsets

def parts : FieldOffsets → Parts
  | byField offsets => .inl offsets
  | byType offsets => .inr (.inl offsets)

def format : Format FieldOffsets :=
  .choice (.payload "ByField" (array int32) <| .payload "ByType" (array (array int32)) .none)
    build parts

end FieldOffsets

/-- The tables about types that compiled code registers. -/
structure TypeRegistration where
  genericClasses : Table .genericClasses GenericClass
  genericInstantiations : Table .genericInstantiations GenericInstantiation
  types : Table .types TypeReference
  arrayTypes : Table .arrayTypes ArrayType
  methodSpecs : Table .methodSpecs MethodSpec
  fieldOffsets? : Option FieldOffsets
  /-- Addresses of the places in code that use a method. -/
  usageAddresses : Array UInt64
  deriving DecidableEq, Repr

namespace TypeRegistration

def empty : TypeRegistration := ⟨.empty, .empty, .empty, .empty, .empty, none, #[]⟩

instance : Inhabited TypeRegistration := ⟨empty⟩

def format : Format TypeRegistration :=
  .record
    (.cons (.defaulted "generic_classes" (table GenericClass.format) .empty) <|
      .cons (.defaulted "generic_insts" (table GenericInstantiation.format) .empty) <|
      .cons (.defaulted "types" (table TypeReference.format) .empty) <|
      .cons (.defaulted "array_types" (table ArrayType.format) .empty) <|
      .cons (.defaulted "method_specs" (table MethodSpec.format) .empty) <|
      .cons (.defaulted "field_offsets" (optional FieldOffsets.format) none) <|
      .cons (.defaulted "metadata_usages" (array uint64) #[]) .none)
    (fun (genericClasses, genericInstantiations, types, arrayTypes, methodSpecs, fieldOffsets?,
        usageAddresses, ()) ↦
      { genericClasses, genericInstantiations, types, arrayTypes, methodSpecs, fieldOffsets?,
        usageAddresses })
    (fun registration ↦
      (registration.genericClasses, registration.genericInstantiations, registration.types,
        registration.arrayTypes, registration.methodSpecs, registration.fieldOffsets?,
        registration.usageAddresses, ()))

end TypeRegistration

/-- A range of context entries of a code module. -/
structure EntryRange where
  start : UInt32
  length : UInt32
  deriving DecidableEq, Repr

def EntryRange.format : Format EntryRange :=
  .record (.cons (.required "start" uint32) <| .cons (.required "length" uint32) .none)
    (fun (start, length, ()) ↦ { start, length })
    (fun range ↦ (range.start, range.length, ()))

/-- The range of context entries of the type or method with a token. -/
structure TokenRange where
  token : UInt32
  range : EntryRange
  deriving DecidableEq, Repr

def TokenRange.format : Format TokenRange :=
  .record
    (.cons (.required "token" uint32) <| .cons (.required "range" EntryRange.format) .none)
    (fun (token, range, ()) ↦ { token, range })
    (fun pair ↦ (pair.token, pair.range, ()))

/-- The compiled code of an image. -/
structure CodeModule where
  /-- The name of the image. -/
  name : String
  contextRanges : List TokenRange
  contextEntries : Table .moduleContextEntries ContextEntry
  deriving DecidableEq, Repr

def CodeModule.format : Format CodeModule :=
  .record
    (.cons (.defaulted "name" text "") <|
      .cons (.defaulted "rgctx_ranges" (list TokenRange.format) []) <|
      .cons (.defaulted "rgctxs" (table ContextEntry.format) .empty) .none)
    (fun (name, contextRanges, contextEntries, ()) ↦ { name, contextRanges, contextEntries })
    (fun code ↦ (code.name, code.contextRanges, code.contextEntries, ()))

/-- The tables about code that compiled code registers. -/
structure CodeRegistration where
  modules : List CodeModule
  deriving DecidableEq, Repr

def CodeRegistration.format : Format CodeRegistration :=
  .record (.cons (.defaulted "code_gen_modules" (list CodeModule.format) []) .none)
    (fun (modules, ()) ↦ { modules })
    (fun registration ↦ (registration.modules, ()))

/-- Everything that compiled code registers. -/
structure Registrations where
  code : CodeRegistration
  types : TypeRegistration
  /-- The address that addresses in code are relative to. -/
  imageBase : UInt64
  is32Bit : Bool
  deriving DecidableEq, Repr

namespace Registrations

def empty : Registrations := ⟨⟨[]⟩, .empty, 0, false⟩

instance : Inhabited Registrations := ⟨empty⟩

def format : Format Registrations :=
  .record
    (.cons (.defaulted "code_registration" CodeRegistration.format ⟨[]⟩) <|
      .cons (.defaulted "metadata_registration" TypeRegistration.format .empty) <|
      .cons (.defaulted "image_base" uint64 0) <|
      .cons (.defaulted "is_32bit" flag false) .none)
    (fun (code, types, imageBase, is32Bit, ()) ↦ { code, types, imageBase, is32Bit })
    (fun registrations ↦
      (registrations.code, registrations.types, registrations.imageBase, registrations.is32Bit, ()))

end Registrations

end ManagedLayout
