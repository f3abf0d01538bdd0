import ManagedLayout.Index
import ManagedLayout.Metadata.Kind
import ManagedLayout.Version

/-!
# Events of a build

What a build reports while it runs. Events are values: a build returns them in the order in which
they happened, and whoever runs it decides which of them to show.
-/

namespace ManagedLayout

/-- How important an event is. -/
inductive Severity where
  | trace
  | debug
  | warning
  deriving DecidableEq, Repr

/-- The name of a severity in front of a message. -/
def Severity.label : Severity → String
  | trace => "TRACE"
  | debug => "DEBUG"
  | warning => "WARN"

/-- Something that a build reports. -/
inductive Event where
  /-- A flat table of field offsets, in a version that has one list for each type. -/
  | flatFieldOffsets (version : Version)
  /-- Lists of field offsets for each type, in a version that has a flat table. -/
  | nestedFieldOffsets (version : Version)
  | noFieldOffsets
  | started (version : Version)
  /-- Two images claim a definition; the first one owns it. -/
  | claimedTwice (definition : Index .typeDefinitions) (owner claimant : Index .images)
  | definitionsIndexed (count : Nat)
  /-- A generic class without a definition counts as the root object type. -/
  | undefinedGenericClass (genericClass : Index .genericClasses)
  | instanceNamed (genericClass : Index .genericClasses) (name : String)
  | instancesNamed (classes instances : Nat)
  | noUsageTable (version : Version)
  | usagesGrouped (types : Nat)
  /-- A definition is its own parent. -/
  | ownParent (definition : Index .typeDefinitions)
  /-- The parent of a definition is no definition. -/
  | foreignParent (definition : Index .typeDefinitions) (parent : String)
  | synthesized (structs resolved : Nat)
  deriving DecidableEq, Repr

namespace Event

def severity : Event → Severity
  | flatFieldOffsets _ | nestedFieldOffsets _ | claimedTwice .. | ownParent _ | foreignParent .. =>
    .warning
  | instanceNamed .. => .trace
  | noFieldOffsets | started _ | definitionsIndexed _ | undefinedGenericClass _
  | instancesNamed .. | noUsageTable _ | usagesGrouped _ | synthesized .. => .debug

def message : Event → String
  | flatFieldOffsets version =>
    "metadata " ++ version.text ++ " should carry per-type field offsets but has a flat table"
  | nestedFieldOffsets version =>
    "metadata " ++ version.text
      ++ " should carry a flat field offset table but has per-type tables"
  | noFieldOffsets => "no field offsets, every offset will be -1"
  | started version =>
    "building struct index for metadata " ++ version.text ++ " (" ++ version.revision.name ++ ")"
  | claimedTwice definition owner claimant =>
    "type definition " ++ definition.text ++ " is claimed by images " ++ owner.text ++ " and "
      ++ claimant.text
  | definitionsIndexed count => "pass 1: indexed " ++ toString count ++ " definitions"
  | undefinedGenericClass genericClass =>
    "generic class " ++ genericClass.text ++ " has no definition, using object"
  | instanceNamed genericClass name => "generic class " ++ genericClass.text ++ " is " ++ name
  | instancesNamed classes instances =>
    "pass 2: named " ++ toString classes ++ " generic classes, " ++ toString instances
      ++ " distinct instantiations"
  | noUsageTable version =>
    "metadata " ++ version.text ++ " has no usage table, skipping static methods"
  | usagesGrouped types => "pass 3: static methods for " ++ toString types ++ " types"
  | ownParent definition =>
    "type definition " ++ definition.text ++ " derives from itself, dropping parent"
  | foreignParent definition parent =>
    "type definition " ++ definition.text ++ " derives from " ++ parent ++ ", dropping parent"
  | synthesized structs resolved =>
    "pass 4: synthesized " ++ toString structs ++ " structs from " ++ toString resolved
      ++ " resolved type usages"

/-- A line of a log: the severity and the message. -/
def line (event : Event) : String := event.severity.label ++ " " ++ event.message

end Event

end ManagedLayout
