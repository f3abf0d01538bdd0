import ManagedLayout.Catalogue.Basic

/-!
# Command line arguments

The arguments name one file of metadata tables, and may name an output file and switch things on or
off. Options come in a long and some in a short form; short ones may be joined behind one hyphen.
The value of an option may be attached to it or follow it. Behind two hyphens nothing is an option.
-/

namespace ManagedLayout.CommandLine

/-- What the arguments ask for. -/
structure Invocation where
  tables : String
  output : String
  options : BuildOptions
  isVerbose : Bool
  deriving DecidableEq, Repr

/-- Why the arguments do not ask for a run. -/
inductive Refusal where
  | misuse
  /-- They ask for help, or for the version of the program. -/
  | information
  deriving DecidableEq, Repr

/-- The options that take no value. -/
inductive Switch where
  | noGenericInstances
  | noImageNames
  | verbose
  deriving DecidableEq, Repr

/-- The arguments taken so far. -/
structure Collected where
  tables : List String
  outputs : List String
  switches : List Switch
  /-- The last argument was an option whose value comes next. -/
  awaitsOutput : Bool
  /-- Whatever comes next is no option. -/
  optionsEnded : Bool
  deriving Repr

namespace Collected

def start : Collected := ⟨[], [], [], false, false⟩

/-- Takes a file of metadata tables. -/
def addTables (collected : Collected) (path : String) : Except Refusal Collected :=
  if collected.tables.isEmpty then .ok { collected with tables := [path] } else .error .misuse

def addOutput (collected : Collected) (path : String) : Collected :=
  { collected with outputs := path :: collected.outputs, awaitsOutput := false }

def addSwitch (collected : Collected) (switch : Switch) : Collected :=
  { collected with switches := switch :: collected.switches }

/-- Takes a long option, without its hyphens, and the value attached to it. -/
def addLong (collected : Collected) (name : String) (value? : Option String) :
    Except Refusal Collected :=
  match name, value? with
  | "output", some value => .ok (collected.addOutput value)
  | "output", none => .ok { collected with awaitsOutput := true }
  | "no-generic-instances", none => .ok (collected.addSwitch .noGenericInstances)
  | "no-image-names", none => .ok (collected.addSwitch .noImageNames)
  | "verbose", none => .ok (collected.addSwitch .verbose)
  | "help", none | "version", none => .error .information
  | _, _ => .error .misuse

/-- Takes joined short options, without their hyphen. -/
def addShort (collected : Collected) : List Char → Except Refusal Collected
  | [] => .ok collected
  | 'v' :: rest => (collected.addSwitch .verbose).addShort rest
  | ['o'] => .ok { collected with awaitsOutput := true }
  | 'o' :: '=' :: value => .ok (collected.addOutput (String.ofList value))
  | 'o' :: value => .ok (collected.addOutput (String.ofList value))
  | 'h' :: _ | 'V' :: _ => .error .information
  | _ => .error .misuse

/-- Takes one argument. -/
def add (collected : Collected) (argument : String) : Except Refusal Collected :=
  if collected.optionsEnded then collected.addTables argument
  else
    match argument.toList with
    | '-' :: '-' :: name =>
      if collected.awaitsOutput then .error .misuse
      else if name.isEmpty then .ok { collected with optionsEnded := true }
      else
        match name.span (· != '=') with
        | (name, []) => collected.addLong (String.ofList name) none
        | (name, _ :: value) =>
          collected.addLong (String.ofList name) (some (String.ofList value))
    | '-' :: char :: rest =>
      if collected.awaitsOutput then .error .misuse else collected.addShort (char :: rest)
    | _ =>
      if collected.awaitsOutput then .ok (collected.addOutput argument)
      else collected.addTables argument

/-- What the arguments ask for when all of them are taken. Nothing may be given twice. -/
def finish (collected : Collected) : Except Refusal Invocation :=
  match collected.tables with
  | [tables] =>
    if collected.awaitsOutput || 1 < collected.outputs.length
        || collected.switches.eraseDups.length < collected.switches.length then
      .error .misuse
    else .ok {
      tables
      output := collected.outputs.head?.getD "structs.json"
      options := {
        genericInstances := !collected.switches.contains .noGenericInstances
        imageNames := !collected.switches.contains .noImageNames }
      isVerbose := collected.switches.contains .verbose }
  | _ => .error .misuse

end Collected

/-- Reads the arguments of the program. -/
def parseArguments (arguments : List String) : Except Refusal Invocation := do
  (← arguments.foldlM Collected.add Collected.start).finish

end ManagedLayout.CommandLine
