import ManagedLayout.Json.Parser
import ManagedLayout.Metadata.Registration
import ManagedLayout.Text.Quoted

/-!
# Metadata dumps

A dump holds everything that is known about the types of an application: the declarations, what the
compiled code registers, and the version of the format of both. A dump is read from JSON or from a
binary cache, and refused if its version is not supported.
-/

namespace ManagedLayout

/-- The metadata of an application. -/
structure Metadata where
  version : Version
  declarations : Declarations
  registrations : Registrations
  deriving DecidableEq, Repr

/-- Why a dump cannot be read. -/
inductive LoadError where
  /-- The JSON text or value is no dump. A text that is not JSON has no particular fault. -/
  | json (fault : Fault)
  /-- The bytes are no dump. -/
  | cache
  | unsupportedVersion (version : Version)
  deriving DecidableEq, Repr

/-- The text of a fault that has one. -/
def Fault.message? : Fault → Option String
  | mismatch => none
  | index value =>
    some ("metadata index " ++ toString value ++ " is neither -1 nor a 32-bit index")
  | version text => some ("invalid metadata version " ++ Text.quoted text)

def LoadError.message : LoadError → String
  | json _ => "could not parse metadata tables from json"
  | cache => "could not parse metadata table cache"
  | unsupportedVersion version =>
    "il2cpp metadata version check failed, found " ++ version.text

namespace Metadata

def format : Format Metadata :=
  .record
    (.cons (.required "version" Format.version) <|
      .cons (.required "global_metadata" Declarations.format) <|
      .cons (.required "runtime_metadata" Registrations.format) .none)
    (fun (version, declarations, registrations, ()) ↦ { version, declarations, registrations })
    (fun metadata ↦ (metadata.version, metadata.declarations, metadata.registrations, ()))

/-- Refuses a dump of a version that is not supported. -/
def checkVersion (metadata : Metadata) : Except LoadError Metadata :=
  if metadata.version.isSupported then .ok metadata
  else .error (.unsupportedVersion metadata.version)

/-- Reads a dump from a JSON value. -/
def ofJson (json : Json) : Except LoadError Metadata :=
  match format.ofJson json with
  | .ok metadata => metadata.checkVersion
  | .error fault => .error (.json fault)

/-- Reads a dump from the bytes of a JSON text. -/
def ofTextBytes (bytes : List UInt8) : Except LoadError Metadata :=
  match Json.ofBytes? bytes with
  | some json => ofJson json
  | none => .error (.json .mismatch)

/-- Reads a dump from a JSON text. -/
def ofText (text : String) : Except LoadError Metadata := ofTextBytes (Text.utf8 text)

/-- Reads a dump from a binary cache. -/
def ofBytes (bytes : List UInt8) : Except LoadError Metadata :=
  match format.ofBytes? bytes with
  | some metadata => metadata.checkVersion
  | none => .error .cache

/-- The JSON value of a dump, with every field. -/
def toJson (metadata : Metadata) : Json := format.toJson metadata

/-- The binary cache of a dump. -/
def toBytes (metadata : Metadata) : List UInt8 := format.bytes metadata

end Metadata

end ManagedLayout
