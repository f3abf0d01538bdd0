import ManagedLayout.Catalogue.Basic
import ManagedLayout.Format.Choice
import ManagedLayout.Json.Printer

/-!
# The document of a build

The document is the list of all layouts as JSON. Values that are absent and lists that are empty are
left out of it, except for the entries of a method's context, and reading puts them back.
-/

namespace ManagedLayout

/-- The kind of an entry of a runtime generic context in the document. -/
inductive ContextInfoKind where
  | type
  | classType
  | method
  deriving DecidableEq, Repr

namespace ContextInfoKind

def all : List ContextInfoKind := [type, classType, method]

def label : ContextInfoKind → String
  | type => "Type"
  | classType => "Class"
  | method => "Method"

def format : Format ContextInfoKind := .enumeration all label

end ContextInfoKind

/-- An entry of a runtime generic context in the document, with one of its names. -/
structure ContextInfo where
  kind : ContextInfoKind
  typeName? : Option String
  className? : Option String
  methodName? : Option String
  deriving DecidableEq, Repr

/-- The layout of a type in the document. -/
abbrev StructInfo : Type := Layout ContextInfo

/-- The entry with its name where the document has names of its kind. -/
def ContextRecord.info : ContextRecord → ContextInfo
  | type name => ⟨.type, some name, none, none⟩
  | classType name => ⟨.classType, none, some name, none⟩
  | method name => ⟨.method, none, none, some name⟩

/-- The same context with entries of another form. -/
def MethodContext.map {Entry Other : Type} (form : Entry → Other) (context : MethodContext Entry) :
    MethodContext Other :=
  ⟨context.methodName, context.entries.map form⟩

/-- The same layout with context entries of another form. -/
def Layout.map {Entry Other : Type} (form : Entry → Other) (layout : Layout Entry) :
    Layout Other :=
  { layout with
    contextEntries := layout.contextEntries.map form
    methodContexts := layout.methodContexts.map (·.map form) }

open Format (text flag uint32 uint64 int32 list optional)

namespace Field

/-- A field that is left out of the document while there is no value. -/
def ifPresent {Value : Type} (name : String) (format : Format Value) : Field (Option Value) :=
  .omitted name (optional format) none Option.isNone

/-- A field that is left out of the document while the list is empty. -/
def ifAny {Value : Type} (name : String) (format : Format Value) : Field (List Value) :=
  .omitted name (list format) [] List.isEmpty

end Field

def FieldLayout.format : Format FieldLayout :=
  .record
    (.cons (.required "FieldTypeName" text) <|
      .cons (.required "FieldName" text) <|
      .cons (.required "IsValueType" flag) <|
      .cons (.required "IsCustomType" flag) <|
      .cons (.required "Offset" int32) <|
      .cons (.required "Indirection" uint32) .none)
    (fun (typeName, name, isValueType, isCustomType, offset, indirection, ()) ↦
      { typeName, name, isValueType, isCustomType, offset, indirection })
    (fun field ↦
      (field.typeName, field.name, field.isValueType, field.isCustomType, field.offset,
        field.indirection, ()))

def CallSite.format : Format CallSite :=
  .record
    (.cons (.required "Address" uint64) <|
      .cons (.ifPresent "TypeArgs" text) <|
      .cons (.required "Name" text) .none)
    (fun (address, typeArguments?, name, ()) ↦ { address, typeArguments?, name })
    (fun site ↦ (site.address, site.typeArguments?, site.name, ()))

/-- The names of virtual methods, each in a record of its own. -/
def virtualMethodFormat : Format String :=
  .record (.cons (.required "MethodName" text) .none)
    (fun (name, ()) ↦ name)
    (fun name ↦ (name, ()))

def ContextInfo.format : Format ContextInfo :=
  .record
    (.cons (.required "Type" ContextInfoKind.format) <|
      .cons (.ifPresent "TypeName" text) <|
      .cons (.ifPresent "ClassName" text) <|
      .cons (.ifPresent "MethodName" text) .none)
    (fun (kind, typeName?, className?, methodName?, ()) ↦
      { kind, typeName?, className?, methodName? })
    (fun entry ↦ (entry.kind, entry.typeName?, entry.className?, entry.methodName?, ()))

def methodContextFormat : Format (MethodContext ContextInfo) :=
  .record
    (.cons (.required "MethodName" text) <|
      .cons (.required "RGCTXs" (list ContextInfo.format)) .none)
    (fun (methodName, entries, ()) ↦ { methodName, entries })
    (fun context ↦ (context.methodName, context.entries, ()))

def StructInfo.format : Format StructInfo :=
  .record
    (.cons (.ifPresent "ImageName" text) <|
      .cons (.required "Namespace" text) <|
      .cons (.required "TypeName" text) <|
      .cons (.required "IsValueType" flag) <|
      .cons (.required "IsGeneric" flag) <|
      .cons (.ifPresent "Parent" text) <|
      .cons (.ifAny "Fields" FieldLayout.format) <|
      .cons (.ifAny "StaticFields" FieldLayout.format) <|
      .cons (.ifAny "StaticMethods" CallSite.format) <|
      .cons (.ifAny "VTableMethod" virtualMethodFormat) <|
      .cons (.ifAny "RGCTXs" ContextInfo.format) <|
      .cons (.ifAny "MethodRGCTXs" methodContextFormat) .none)
    (fun (imageName?, namespaceName, typeName, isValueType, isGeneric, parent?, fields,
        staticFields, staticMethods, virtualMethods, contextEntries, methodContexts, ()) ↦
      { imageName?, namespaceName, typeName, isValueType, isGeneric, parent?, fields,
        staticFields, staticMethods, virtualMethods, contextEntries, methodContexts })
    (fun layout ↦
      (layout.imageName?, layout.namespaceName, layout.typeName, layout.isValueType,
        layout.isGeneric, layout.parent?, layout.fields, layout.staticFields,
        layout.staticMethods, layout.virtualMethods, layout.contextEntries,
        layout.methodContexts, ()))

/-- The layouts that are written to a file. -/
structure Document where
  structs : List StructInfo
  deriving DecidableEq, Repr

namespace Document

/-- The document of finished layouts. -/
def ofRecords (records : List StructRecord) : Document :=
  ⟨records.map (Layout.map ContextRecord.info)⟩

/-- The document of a build. -/
def ofCatalogue (catalogue : Catalogue) : Document := ofRecords catalogue.structs

def format : Format Document := (list StructInfo.format).map mk structs

def ofJson (json : Json) : Except Fault Document := format.ofJson json

def toJson (document : Document) : Json := format.toJson document

/-- The text of the document file. -/
def text (document : Document) : String := document.toJson.pretty

end Document

end ManagedLayout
