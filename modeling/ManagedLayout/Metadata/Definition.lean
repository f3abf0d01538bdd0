import ManagedLayout.Format.Collection
import ManagedLayout.Format.Record
import ManagedLayout.Format.Scalar
import ManagedLayout.Metadata.Kind

/-!
# Declarations

The tables of what source code declares: types, fields, methods, generic parameters and the images
(modules) that own the types. Names are part of the records. A declaration that lacks something has
the absent index, an empty name or 0 there.
-/

namespace ManagedLayout

open Format (text index uint16 uint32 uint64 flag list table optional)

/-- A declared type. -/
structure TypeDefinition where
  name : String
  namespaceName : String
  /-- The type reference that stands for the definition itself. -/
  ownType : Index .types
  /-- The type that the definition is nested in. -/
  declaringType : Index .types
  parent : Index .types
  /-- The integer type of an enumeration. -/
  elementType : Index .types
  genericContainer : Index .genericContainers
  flags : UInt32
  fieldStart : Index .fields
  vtableStart : Index .vtableMethods
  /-- Where the entries of the runtime generic context start, while they stand in one table. -/
  contextStart : Index .contextEntries
  contextCount : UInt32
  fieldCount : UInt16
  vtableCount : UInt16
  bitfield : UInt32
  token : UInt32
  deriving DecidableEq, Repr

namespace TypeDefinition

def isValueType (definition : TypeDefinition) : Bool := definition.bitfield &&& 1 != 0

def isEnum (definition : TypeDefinition) : Bool := definition.bitfield &&& 2 != 0

def isGeneric (definition : TypeDefinition) : Bool := definition.genericContainer.isPresent

def format : Format TypeDefinition :=
  .record
    (.cons (.defaulted "name" text "") <|
      .cons (.defaulted "namespace" text "") <|
      .cons (.defaulted "byval_type_index" index .absent) <|
      .cons (.defaulted "declaring_type_index" index .absent) <|
      .cons (.defaulted "parent_index" index .absent) <|
      .cons (.defaulted "element_type_index" index .absent) <|
      .cons (.defaulted "generic_container_index" index .absent) <|
      .cons (.defaulted "flags" uint32 0) <|
      .cons (.defaulted "field_start" index .absent) <|
      .cons (.defaulted "vtable_start" index .absent) <|
      .cons (.defaulted "rgctx_start_index" index .absent) <|
      .cons (.defaulted "rgctx_count" uint32 0) <|
      .cons (.defaulted "field_count" uint16 0) <|
      .cons (.defaulted "vtable_count" uint16 0) <|
      .cons (.defaulted "bitfield" uint32 0) <|
      .cons (.defaulted "token" uint32 0) .none)
    (fun (name, namespaceName, ownType, declaringType, parent, elementType, genericContainer, flags,
        fieldStart, vtableStart, contextStart, contextCount, fieldCount, vtableCount, bitfield,
        token, ()) ↦
      { name, namespaceName, ownType, declaringType, parent, elementType, genericContainer, flags,
        fieldStart, vtableStart, contextStart, contextCount, fieldCount, vtableCount, bitfield,
        token })
    (fun definition ↦
      (definition.name, definition.namespaceName, definition.ownType, definition.declaringType,
        definition.parent, definition.elementType, definition.genericContainer, definition.flags,
        definition.fieldStart, definition.vtableStart, definition.contextStart,
        definition.contextCount, definition.fieldCount, definition.vtableCount,
        definition.bitfield, definition.token, ()))

end TypeDefinition

/-- A declared field. Its attributes are those of its type reference. -/
structure FieldDefinition where
  name : String
  type : Index .types
  token : UInt32
  deriving DecidableEq, Repr

def FieldDefinition.format : Format FieldDefinition :=
  .record
    (.cons (.defaulted "name" text "") <|
      .cons (.defaulted "type_index" index .absent) <|
      .cons (.defaulted "token" uint32 0) .none)
    (fun (name, type, token, ()) ↦ { name, type, token })
    (fun field ↦ (field.name, field.type, field.token, ()))

/-- A declared method. -/
structure MethodDefinition where
  name : String
  declaringType : Index .typeDefinitions
  genericContainer : Index .genericContainers
  token : UInt32
  flags : UInt16
  /-- The slot in the virtual table that the method is declared for. -/
  slot : UInt16
  /-- Where the entries of the runtime generic context start, while they stand in one table. -/
  contextStart : Index .contextEntries
  contextCount : UInt32
  deriving DecidableEq, Repr

def MethodDefinition.format : Format MethodDefinition :=
  .record
    (.cons (.defaulted "name" text "") <|
      .cons (.defaulted "declaring_type" index .absent) <|
      .cons (.defaulted "generic_container_index" index .absent) <|
      .cons (.defaulted "token" uint32 0) <|
      .cons (.defaulted "flags" uint16 0) <|
      .cons (.defaulted "slot" uint16 0) <|
      .cons (.defaulted "rgctx_start_index" index .absent) <|
      .cons (.defaulted "rgctx_count" uint32 0) .none)
    (fun (name, declaringType, genericContainer, token, flags, slot, contextStart, contextCount,
        ()) ↦
      { name, declaringType, genericContainer, token, flags, slot, contextStart, contextCount })
    (fun method ↦
      (method.name, method.declaringType, method.genericContainer, method.token, method.flags,
        method.slot, method.contextStart, method.contextCount, ()))

/-- A parameter of a generic type or method. -/
structure GenericParameter where
  owner : Index .genericContainers
  name : String
  /-- The place of the parameter among those of its owner. -/
  ordinal : UInt16
  flags : UInt16
  deriving DecidableEq, Repr

def GenericParameter.format : Format GenericParameter :=
  .record
    (.cons (.defaulted "owner_index" index .absent) <|
      .cons (.defaulted "name" text "") <|
      .cons (.defaulted "num" uint16 0) <|
      .cons (.defaulted "flags" uint16 0) .none)
    (fun (owner, name, ordinal, flags, ()) ↦ { owner, name, ordinal, flags })
    (fun parameter ↦
      (parameter.owner, parameter.name, parameter.ordinal, parameter.flags, ()))

/-- The parameter list of a generic type or method. -/
structure GenericContainer where
  /-- A position among the types or among the methods. -/
  owner : UInt32
  parameterCount : UInt32
  isMethod : Bool
  parameterStart : Index .genericParameters
  deriving DecidableEq, Repr

def GenericContainer.format : Format GenericContainer :=
  .record
    (.cons (.defaulted "owner_index" uint32 0) <|
      .cons (.defaulted "type_argc" uint32 0) <|
      .cons (.defaulted "is_method" flag false) <|
      .cons (.defaulted "generic_parameter_start" index .absent) .none)
    (fun (owner, parameterCount, isMethod, parameterStart, ()) ↦
      { owner, parameterCount, isMethod, parameterStart })
    (fun container ↦
      (container.owner, container.parameterCount, container.isMethod, container.parameterStart, ()))

/-- A module, which owns a range of the type definitions. -/
structure Image where
  name : String
  typeStart : Index .typeDefinitions
  typeCount : UInt32
  customAttributeStart : UInt32
  customAttributeCount : UInt32
  token : UInt32
  deriving DecidableEq, Repr

def Image.format : Format Image :=
  .record
    (.cons (.defaulted "name" text "") <|
      .cons (.defaulted "type_start" index .absent) <|
      .cons (.defaulted "type_count" uint32 0) <|
      .cons (.defaulted "custom_attribute_start" uint32 0) <|
      .cons (.defaulted "custom_attribute_count" uint32 0) <|
      .cons (.defaulted "token" uint32 0) .none)
    (fun (name, typeStart, typeCount, customAttributeStart, customAttributeCount, token, ()) ↦
      { name, typeStart, typeCount, customAttributeStart, customAttributeCount, token })
    (fun image ↦
      (image.name, image.typeStart, image.typeCount, image.customAttributeStart,
        image.customAttributeCount, image.token, ()))

/-- An entry of a runtime generic context: the index of a type or of a method spec. -/
structure ContextEntry where
  kind : ContextKind
  data : UInt32
  deriving DecidableEq, Repr

def ContextEntry.format : Format ContextEntry :=
  .record
    (.cons (.required "ty" ContextKind.format) <| .cons (.required "data" uint32) .none)
    (fun (kind, data, ()) ↦ { kind, data })
    (fun entry ↦ (entry.kind, entry.data, ()))

/-- The use of a method at one place in code: which usage address holds it, and which method, as an
encoded method index. -/
structure UsagePair where
  destination : UInt32
  source : UInt32
  deriving DecidableEq, Repr

def UsagePair.format : Format UsagePair :=
  .record
    (.cons (.required "destination_index" uint32) <|
      .cons (.required "encoded_source_index" uint32) .none)
    (fun (destination, source, ()) ↦ { destination, source })
    (fun pair ↦ (pair.destination, pair.source, ()))

/-- Where the declarations stood in memory: the base address, and for two of the tables the offset
from it and the size of a record. -/
structure MemoryLayout where
  address : UInt64
  typeDefinitionsOffset : UInt64
  typeDefinitionSize : UInt64
  genericParametersOffset : UInt64
  genericParameterSize : UInt64
  deriving DecidableEq, Repr

def MemoryLayout.format : Format MemoryLayout :=
  .record
    (.cons (.required "address" uint64) <|
      .cons (.required "type_definitions_offset" uint64) <|
      .cons (.required "type_definition_size" uint64) <|
      .cons (.required "generic_parameters_offset" uint64) <|
      .cons (.required "generic_parameter_size" uint64) .none)
    (fun (address, typeDefinitionsOffset, typeDefinitionSize, genericParametersOffset,
        genericParameterSize, ()) ↦
      { address, typeDefinitionsOffset, typeDefinitionSize, genericParametersOffset,
        genericParameterSize })
    (fun layout ↦
      (layout.address, layout.typeDefinitionsOffset, layout.typeDefinitionSize,
        layout.genericParametersOffset, layout.genericParameterSize, ()))

/-- The tables of declarations. -/
structure Declarations where
  typeDefinitions : Table .typeDefinitions TypeDefinition
  fields : Table .fields FieldDefinition
  methods : Table .methods MethodDefinition
  genericParameters : Table .genericParameters GenericParameter
  genericContainers : Table .genericContainers GenericContainer
  images : Table .images Image
  /-- The contents of the virtual tables, as encoded method indices. -/
  vtableMethods : Table .vtableMethods UInt32
  /-- The entries of all runtime generic contexts, while they stand in one table. -/
  contextEntries : Table .contextEntries ContextEntry
  usagePairs : List UsagePair
  layout? : Option MemoryLayout
  deriving DecidableEq, Repr

namespace Declarations

def empty : Declarations :=
  ⟨.empty, .empty, .empty, .empty, .empty, .empty, .empty, .empty, [], none⟩

instance : Inhabited Declarations := ⟨empty⟩

def format : Format Declarations :=
  .record
    (.cons (.defaulted "type_definitions" (table TypeDefinition.format) .empty) <|
      .cons (.defaulted "fields" (table FieldDefinition.format) .empty) <|
      .cons (.defaulted "methods" (table MethodDefinition.format) .empty) <|
      .cons (.defaulted "generic_parameters" (table GenericParameter.format) .empty) <|
      .cons (.defaulted "generic_containers" (table GenericContainer.format) .empty) <|
      .cons (.defaulted "images" (table Image.format) .empty) <|
      .cons (.defaulted "vtable_methods" (table uint32) .empty) <|
      .cons (.defaulted "rgctx_entries" (table ContextEntry.format) .empty) <|
      .cons (.defaulted "metadata_usage_pairs" (list UsagePair.format) []) <|
      .cons (.defaulted "layout" (optional MemoryLayout.format) none) .none)
    (fun (typeDefinitions, fields, methods, genericParameters, genericContainers, images,
        vtableMethods, contextEntries, usagePairs, layout?, ()) ↦
      { typeDefinitions, fields, methods, genericParameters, genericContainers, images,
        vtableMethods, contextEntries, usagePairs, layout? })
    (fun declarations ↦
      (declarations.typeDefinitions, declarations.fields, declarations.methods,
        declarations.genericParameters, declarations.genericContainers, declarations.images,
        declarations.vtableMethods, declarations.contextEntries, declarations.usagePairs,
        declarations.layout?, ()))

end Declarations

end ManagedLayout
