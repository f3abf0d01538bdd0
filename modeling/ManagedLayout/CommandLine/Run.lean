import ManagedLayout.Catalogue.Build
import ManagedLayout.CommandLine.Arguments
import ManagedLayout.Document

/-!
# A run of the program

A run reads a dump, builds its catalogue and writes the document. The first successful reading of a
dump from JSON leaves a binary cache beside it, which later runs read instead.

What a run needs of its surroundings is a `Host`, so that the same run works on the files of a
machine and on a directory that is a value.
-/

namespace ManagedLayout.CommandLine

/-- The surroundings of a run. Reading and writing a file can fail with a text that says why. -/
structure Host (m : Type → Type) where
  fileExists : String → m Bool
  read : String → m (Except String (List UInt8))
  write : String → List UInt8 → m (Except String Unit)
  print : String → m Unit
  report : Event → m Unit

/-- How a run ends. -/
inductive Outcome where
  | success
  /-- The arguments cannot be understood. -/
  | misuse
  /-- Something failed: what was being done, and why it failed. -/
  | failure (context cause : String)
  deriving DecidableEq, Repr

def Outcome.exitCode : Outcome → UInt8
  | success => 0
  | failure .. => 1
  | misuse => 2

/-- A failing part of a run. -/
structure Failure where
  context : String
  cause : String
  deriving DecidableEq, Repr

/-- The file that caches a dump. -/
def cachePath (tables : String) : String := tables ++ ".bc"

variable {m : Type → Type} [Monad m]

/-- A part of a run that fails with a text. -/
def attempt {Result : Type} (context : String) (action : m (Except String Result)) :
    ExceptT Failure m Result :=
  ExceptT.mk do return (← action).mapError fun cause ↦ ⟨context, cause⟩

/-- A part of a run that is a computation. -/
def compute {Result Error : Type} (context : String) (message : Error → String)
    (result : Except Error Result) : ExceptT Failure m Result :=
  ExceptT.mk (pure (result.mapError fun error ↦ ⟨context, message error⟩))

/-- Reads a dump from its cache, or from its tables, which then get a cache. -/
def loadMetadata (host : Host m) (tables : String) : ExceptT Failure m Metadata := do
  let cache := cachePath tables
  if ← (host.fileExists cache : m Bool) then
    let bytes ← attempt "Failed to open table dump cache" (host.read cache)
    compute "Failed to parse table dump cache" LoadError.message (Metadata.ofBytes bytes)
  else
    let bytes ← attempt "Failed to open table dump" (host.read tables)
    (host.print
      "Table dump cache has not been created yet, this may take a while...\n" : m Unit)
    let metadata ←
      compute "Failed to parse table dump" LoadError.message (Metadata.ofTextBytes bytes)
    attempt "Failed to create table dump cache" (host.write cache metadata.toBytes)
    return metadata

/-- Whether an event is shown. -/
def isShown (isVerbose : Bool) (event : Event) : Bool :=
  match event.severity with
  | .warning => true
  | .debug => isVerbose
  | .trace => false

/-- Does what the arguments ask for. -/
def runInvocation (host : Host m) (invocation : Invocation) : ExceptT Failure m Unit := do
  let metadata ← loadMetadata host invocation.tables
  let report := Catalogue.build metadata invocation.options
  ((report.events.filter (isShown invocation.isVerbose)).forM host.report : m Unit)
  let catalogue ← compute "Failed to build struct index" LayoutError.message report.result
  let document := Document.ofCatalogue catalogue
  attempt "Failed to create output file"
    (host.write invocation.output (Text.utf8 document.text))
  (host.print
    ("Wrote " ++ toString document.structs.length ++ " structs to " ++ invocation.output
      ++ "\n") : m Unit)

/-- Runs the program. -/
def run (host : Host m) (arguments : List String) : m Outcome := do
  match parseArguments arguments with
  | .error .misuse => return .misuse
  | .error .information =>
    host.print "Generate IL2CPP struct layouts from a metadata table dump\n"
    return .success
  | .ok invocation =>
    match ← (runInvocation host invocation).run with
    | .ok () => return .success
    | .error failure => return .failure failure.context failure.cause

end ManagedLayout.CommandLine
