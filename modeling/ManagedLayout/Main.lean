import ManagedLayout.CommandLine.Run

/-!
# The program

Connects a run to the files and streams of the machine.
-/

namespace ManagedLayout.CommandLine

/-- What the system says about a failure, with the number that it gives it. -/
def causeText (error : IO.Error) : String :=
  match error with
  | .alreadyExists _ code details | .otherError code details | .resourceBusy code details
  | .resourceVanished code details | .unsupportedOperation code details
  | .hardwareFault code details | .unsatisfiedConstraints code details
  | .illegalOperation code details | .protocolError code details | .timeExpired code details
  | .interrupted _ code details | .noFileOrDirectory _ code details
  | .invalidArgument _ code details | .permissionDenied _ code details
  | .resourceExhausted _ code details | .inappropriateType _ code details
  | .noSuchThing _ code details => details ++ " (os error " ++ toString code.toNat ++ ")"
  | .unexpectedEof => "unexpected end of file"
  | .userError details => details

/-- The result of an action on files, or the text of its failure. -/
def catching {Result : Type} (action : IO Result) : IO (Except String Result) := do
  try
    return .ok (← action)
  catch error =>
    return .error (causeText error)

/-- The machine that the program runs on. -/
def machine : Host IO where
  fileExists path := return (← catching (IO.FS.Handle.mk path .read)).isOk
  read path := catching do
    return (← (← IO.FS.Handle.mk path .read).readBinToEnd).data.toList
  write path contents := catching (IO.FS.writeBinFile path ⟨contents.toArray⟩)
  print text := IO.print text
  report event := IO.eprintln ("[" ++ event.severity.label ++ "] " ++ event.message)

end ManagedLayout.CommandLine

open ManagedLayout CommandLine in
def main (arguments : List String) : IO UInt32 := do
  let outcome ← run machine arguments
  match outcome with
  | .failure context cause => IO.eprintln ("Error: " ++ context ++ "\n\nCaused by:\n    " ++ cause)
  | .misuse => IO.eprintln "error: invalid arguments"
  | .success => pure ()
  return outcome.exitCode.toUInt32
