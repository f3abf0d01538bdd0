import ManagedLayout.Format.Collection
import ManagedLayout.Format.Record
import ManagedLayout.Format.Scalar
import Std.Data.TreeMap

/-!
# Struct layouts

What is known about one type when its C struct is to be written: its fields and where they are, its
parent, its virtual methods, the places in code that use its static methods, and what its runtime
generic context holds. A `Catalogue` is the list of all of them.
-/

namespace ManagedLayout

/-- What a build makes besides the layouts of definitions. -/
structure BuildOptions where
  /-- One layout for each instantiation as well. -/
  genericInstances : Bool
  /-- The name of the owning image with every layout. -/
  imageNames : Bool
  deriving DecidableEq, Repr

namespace BuildOptions

def default : BuildOptions := ⟨true, true⟩

instance : Inhabited BuildOptions := ⟨default⟩

def format : Format BuildOptions :=
  .record
    (.cons (.defaulted "generic_instances" Format.flag true) <|
      .cons (.defaulted "image_names" Format.flag true) .none)
    (fun (genericInstances, imageNames, ()) ↦ { genericInstances, imageNames })
    (fun options ↦ (options.genericInstances, options.imageNames, ()))

end BuildOptions

/-- A field of a layout. -/
structure FieldLayout where
  typeName : String
  name : String
  isValueType : Bool
  isCustomType : Bool
  offset : Int32
  indirection : UInt32
  deriving DecidableEq, Repr

/-- A place in code that uses a method of a type. -/
structure CallSite where
  /-- Relative to the image base. -/
  address : UInt64
  /-- The arguments of the type, if an instantiation of the method is used. -/
  typeArguments? : Option String
  /-- The name of the method, with its own arguments. -/
  name : String
  deriving DecidableEq, Repr

/-- An entry of a runtime generic context, by name. -/
inductive ContextRecord where
  | type (name : String)
  | classType (name : String)
  /-- A method, behind its declaring type. -/
  | method (name : String)
  deriving DecidableEq, Repr

/-- The runtime generic context of a method. -/
structure MethodContext (Entry : Type) where
  methodName : String
  entries : List Entry
  deriving DecidableEq, Repr

/-- The layout of a type, with entries of its runtime generic context in a given form. -/
structure Layout (Entry : Type) where
  imageName? : Option String
  namespaceName : String
  typeName : String
  isValueType : Bool
  isGeneric : Bool
  parent? : Option String
  fields : List FieldLayout
  staticFields : List FieldLayout
  staticMethods : List CallSite
  /-- The names of the virtual methods, in the order of their slots. -/
  virtualMethods : List String
  contextEntries : List Entry
  /-- The methods of the type that have a context of their own, in the order of the methods. -/
  methodContexts : List (MethodContext Entry)
  deriving DecidableEq, Repr

/-- The layout of a type as it is built. -/
abbrev StructRecord : Type := Layout ContextRecord

/-- The result of a build. -/
structure Catalogue where
  /-- The layouts of the definitions, then those of the instantiations. -/
  structs : List StructRecord
  displayNames : Std.TreeMap (Index .typeDefinitions) String
  instanceNames : Std.TreeMap (Index .genericClasses) String
  /-- For the name of a type, every place in code that uses one of its methods. -/
  callSites : Std.TreeMap String (Array CallSite)

namespace Catalogue

def displayName? (catalogue : Catalogue) (definition : Index .typeDefinitions) : Option String :=
  catalogue.displayNames[definition]?

def instanceName? (catalogue : Catalogue) (genericClass : Index .genericClasses) : Option String :=
  catalogue.instanceNames[genericClass]?

/-- Every place in code that uses a method of the type with this name. -/
def staticMethods (catalogue : Catalogue) (typeName : String) : List CallSite :=
  (catalogue.callSites.getD typeName #[]).toList

end Catalogue

end ManagedLayout
