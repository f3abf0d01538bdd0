import ManagedLayout.CommandLine.Path
import ManagedLayout.CommandLine.Run
import ManagedLayout.Proofs.Metadata.Storable

/-!
# Runs with and without a cache

Several runs read one dump, each with options and an output of its own. The first of them that can
read it leaves a cache, which the others read instead. This makes no difference to what they do:
with the cache or without it, what a run writes and how it ends depends on the JSON text alone.

The files of a session are a function of their paths, and reading and writing them does not fail.
The length of a file fits 64 bits.
-/

namespace ManagedLayout.CommandLine

/-- Files by their paths, of which all can be read and written, and the events that runs have
reported. -/
structure Session where
  files : String → Option (List UInt8)
  reported : List Event

namespace Session

/-- Replaces the contents of the file at a path, or makes a file there. -/
def insert (session : Session) (path : String) (contents : List UInt8) : Session :=
  { session with files := Function.update session.files path (some contents) }

/-- Removes the file at a path. -/
def erase (session : Session) (path : String) : Session :=
  { session with files := Function.update session.files path none }

def report (session : Session) (events : List Event) : Session :=
  { session with reported := session.reported ++ events }

/-- The host whose files are those of a session. What is printed is lost. -/
def host : Host (StateM Session) where
  fileExists path := return ((← get).files path).isSome
  read path := return match (← get).files path with
    | some contents => .ok contents
    | none => .error PathFault.notFound.message
  write path contents := do
    modify (·.insert path contents)
    return .ok ()
  print _ := pure ()
  report event := modify (·.report [event])

/-- How a run ends, and the session after it. -/
def run (session : Session) (arguments : List String) : Outcome × Session :=
  (CommandLine.run host arguments).run session

/-- The session after several runs, one after the other. -/
def after (session : Session) (runs : List (List String)) : Session :=
  runs.foldl (fun session arguments ↦ (session.run arguments).2) session

/-- Writes the document, or fails. -/
def conclude (session : Session) (output : String) :
    Except Failure (List UInt8) → Outcome × Session
  | .ok document => (.success, session.insert output document)
  | .error failure => (.failure failure.context failure.cause, session)

end Session

/-- The bytes of the document that a dump is made into, or why it cannot be made. -/
def documentOfMetadata (metadata : Metadata) (options : BuildOptions) :
    Except Failure (List UInt8) := do
  let catalogue ← (Catalogue.build metadata options).result.mapError fun error ↦
    ⟨"Failed to build struct index", error.message⟩
  return Text.utf8 (Document.ofCatalogue catalogue).text

/-- The bytes of the document that the dump in a JSON text is made into, or why it cannot be made. -/
def documentOfText (bytes : List UInt8) (options : BuildOptions) :
    Except Failure (List UInt8) := do
  let metadata ← (Metadata.ofTextBytes bytes).mapError fun error ↦
    ⟨"Failed to parse table dump", error.message⟩
  documentOfMetadata metadata options

/-- The events that a run shows while it builds. -/
def shownEvents (metadata : Metadata) (invocation : Invocation) : List Event :=
  (Catalogue.build metadata invocation.options).events.filter (isShown invocation.isVerbose)

namespace Session

section

variable {session : Session} {Result Other : Type} {context path : String}

/-! ### Parts of a run -/

theorem run_bind {first : ExceptT Failure (StateM Session) Other}
    {next : Other → ExceptT Failure (StateM Session) Result} :
    (first >>= next).run.run session =
      match first.run.run session with
      | (.ok found, middle) => (next found).run.run middle
      | (.error failure, middle) => (.error failure, middle) := by
  rw [ExceptT.run_bind, StateT.run_bind]
  rcases first.run.run session with ⟨_ | _, _⟩ <;> rfl

theorem run_pure {result : Result} :
    (pure result : ExceptT Failure (StateM Session) Result).run.run session =
      (.ok result, session) := rfl

theorem run_attempt {action : StateM Session (Except String Result)} :
    (attempt context action).run.run session =
      ((action.run session).1.mapError (⟨context, ·⟩), (action.run session).2) := rfl

theorem run_compute {Error : Type} {message : Error → String} {result : Except Error Result} :
    (compute context message result : ExceptT Failure (StateM Session) Result).run.run session =
      (result.mapError fun error ↦ ⟨context, message error⟩, session) := rfl

theorem run_lift {action : StateM Session Result} :
    (liftM action : ExceptT Failure (StateM Session) Result).run.run session =
      (.ok (action.run session).1, (action.run session).2) := rfl

theorem run_fileExists :
    (host.fileExists path).run session = ((session.files path).isSome, session) := rfl

theorem run_read {contents : List UInt8} (isFile : session.files path = some contents) :
    (host.read path).run session = (.ok contents, session) := by
  change (match session.files path with | some _ => _ | none => _, session) = _
  rw [isFile]

theorem run_write {contents : List UInt8} :
    (host.write path contents).run session = (.ok (), session.insert path contents) := rfl

theorem run_print {text : String} : (host.print text).run session = ((), session) := rfl

theorem run_forM_report (events : List Event) :
    (events.forM host.report).run session = (⟨⟩, session.report events) := by
  induction events generalizing session with
  | nil => exact congrArg (Prod.mk _) (by simp [report])
  | cons event events ih =>
    calc ((event :: events).forM host.report).run session
      _ = (events.forM host.report).run (session.report [event]) := rfl
      _ = (⟨⟩, (session.report [event]).report events) := ih
      _ = (⟨⟩, session.report (event :: events)) := by simp [report]

/-! ### Runs -/

variable {tables : String} {bytes : List UInt8}

theorem run_loadMetadata_cached (isCached : session.files (cachePath tables) = some bytes) :
    (loadMetadata host tables).run.run session =
      ((Metadata.ofBytes bytes).mapError fun error ↦
        ⟨"Failed to parse table dump cache", error.message⟩, session) := by
  simp only [loadMetadata, run_bind, run_lift, run_fileExists, isCached, Option.isSome_some,
    if_true, run_attempt, run_read isCached, run_compute]
  rfl

theorem run_loadMetadata_uncached (isFresh : session.files (cachePath tables) = none)
    (isDump : session.files tables = some bytes) :
    (loadMetadata host tables).run.run session =
      match Metadata.ofTextBytes bytes with
      | .ok metadata => (.ok metadata, session.insert (cachePath tables) metadata.toBytes)
      | .error error => (.error ⟨"Failed to parse table dump", error.message⟩, session) := by
  simp only [loadMetadata, run_bind, run_lift, run_fileExists, isFresh, Option.isSome_none,
    Bool.false_eq_true, if_false, run_attempt, run_read isDump, run_print, run_compute, run_write,
    run_pure, Except.mapError]
  cases Metadata.ofTextBytes bytes <;> rfl

variable {arguments : List String} {invocation : Invocation}

theorem run_eq (isParsed : parseArguments arguments = .ok invocation) :
    session.run arguments =
      match (loadMetadata host invocation.tables).run.run session with
      | (.ok metadata, loaded) =>
        (loaded.report (shownEvents metadata invocation)).conclude invocation.output
          (documentOfMetadata metadata invocation.options)
      | (.error failure, after) => (.failure failure.context failure.cause, after) := by
  simp only [run, CommandLine.run, isParsed, StateT.run_bind]
  simp only [runInvocation, run_bind]
  rcases (loadMetadata host invocation.tables).run.run session with ⟨_ | metadata, loaded⟩
  · rfl
  simp only [run_lift, run_forM_report, run_compute, run_attempt, run_write, run_print,
    documentOfMetadata, shownEvents]
  cases (Catalogue.build metadata invocation.options).result <;> rfl

/-! ### Sessions in which a dump stands -/

theorem cachePath_ne (tables : String) : cachePath tables ≠ tables := by
  intro same
  have sameLength := congrArg String.length same
  simp [cachePath] at sameLength

/-- The dump stands in the session. Its cache is missing, or is the one that belongs to it. -/
structure Holds (session : Session) (tables : String) (bytes : List UInt8) : Prop where
  dump : session.files tables = some bytes
  cache : session.files (cachePath tables) = none ∨ ∃ metadata,
    Metadata.ofTextBytes bytes = .ok metadata ∧
      session.files (cachePath tables) = some metadata.toBytes

theorem Holds.erased (holds : session.Holds tables bytes) :
    (session.erase (cachePath tables)).Holds tables bytes where
  dump := by simpa [Session.erase, Function.update, (cachePath_ne tables).symm] using holds.dump
  cache := .inl (by simp [Session.erase])

/-- The session after the dump was read and its catalogue was built. -/
def loaded (session : Session) (invocation : Invocation) (bytes : List UInt8) : Session :=
  match Metadata.ofTextBytes bytes with
  | .ok metadata =>
    (session.insert (cachePath invocation.tables) metadata.toBytes).report
      (shownEvents metadata invocation)
  | .error _ => session

/-- **A run is determined by the JSON text.** -/
theorem Holds.run_eq (holds : session.Holds invocation.tables bytes)
    (fits : bytes.length < UInt64.size)
    (isParsed : parseArguments arguments = .ok invocation) :
    session.run arguments =
      (session.loaded invocation bytes).conclude invocation.output
        (documentOfText bytes invocation.options) := by
  rw [session.run_eq isParsed, loaded, documentOfText]
  obtain isFresh | ⟨metadata, read, isCached⟩ := holds.cache
  · rw [run_loadMetadata_uncached isFresh holds.dump]
    cases Metadata.ofTextBytes bytes <;> rfl
  · have unchanged : session.insert (cachePath invocation.tables) metadata.toBytes = session := by
      rw [insert, ← isCached, Function.update_eq_self]
    rw [run_loadMetadata_cached isCached, Metadata.ofBytes_toBytes_of_ofTextBytes read fits, read]
    simp only [Except.mapError, unchanged]
    rfl

@[simp]
theorem files_loaded_of_ne {path : String} (isOther : path ≠ cachePath invocation.tables) :
    (session.loaded invocation bytes).files path = session.files path := by
  unfold loaded
  split <;> simp [report, insert, isOther]

/-- After the dump was read, its cache is there if it could be read. -/
theorem Holds.files_loaded_cachePath (holds : session.Holds invocation.tables bytes) :
    (session.loaded invocation bytes).files (cachePath invocation.tables) =
      (Metadata.ofTextBytes bytes).toOption.map Metadata.toBytes := by
  unfold loaded
  split
  next read => simp [read, report, insert, Except.toOption]
  next unread =>
    obtain isFresh | ⟨metadata, read, -⟩ := holds.cache
    · simp [isFresh, unread, Except.toOption]
    · simp [read] at unread

/-- A cache that is there makes no difference once the dump was read. -/
theorem Holds.loaded_erase (holds : session.Holds invocation.tables bytes) :
    (session.erase (cachePath invocation.tables)).loaded invocation bytes =
      session.loaded invocation bytes := by
  unfold loaded
  split
  next => simp [erase, insert, report]
  next unread =>
    obtain isFresh | ⟨metadata, read, -⟩ := holds.cache
    · rw [erase, ← isFresh, Function.update_eq_self]
    · simp [read] at unread

/-- Only the output of a run that succeeds changes. -/
theorem files_conclude {output path : String} {result : Except Failure (List UInt8)} :
    (session.conclude output result).2.files path =
      if path = output then result.toOption.or (session.files path) else session.files path := by
  cases result with
  | error => simp [conclude, Except.toOption]
  | ok document => simp [conclude, insert, Function.update_apply, Except.toOption]

end

/-- If the arguments ask for anything, then for this dump, and not to write over it or its cache. -/
def Spares (tables : String) (arguments : List String) : Prop :=
  ∀ invocation, parseArguments arguments = .ok invocation →
    invocation.tables = tables ∧ invocation.output ≠ tables ∧ invocation.output ≠ cachePath tables

instance (tables : String) (arguments : List String) : Decidable (Spares tables arguments) :=
  match isParsed : parseArguments arguments with
  | .error _ => .isTrue fun _ isOther ↦ nomatch isParsed.symm.trans isOther
  | .ok invocation =>
    decidable_of_iff
      (invocation.tables = tables ∧ invocation.output ≠ tables ∧
        invocation.output ≠ cachePath tables)
      (by simp [Spares, isParsed])

/-- What one run does to a session in which the dump stands, with its cache or without it. -/
structure IsTransparent (session : Session) (tables : String) (bytes : List UInt8)
    (arguments : List String) : Prop where
  /-- The run ends as it would without the cache. -/
  outcome_eq :
    (session.run arguments).1 = ((session.erase (cachePath tables)).run arguments).1
  /-- Apart from the cache, the run leaves the files, and reports the events, that it would without
  the cache. -/
  session_eq :
    (session.run arguments).2.erase (cachePath tables) =
      ((session.erase (cachePath tables)).run arguments).2.erase (cachePath tables)
  /-- If the JSON text can be read and built, the run writes its document, and nothing else. -/
  written : ∀ invocation document, parseArguments arguments = .ok invocation →
    documentOfText bytes invocation.options = .ok document →
      (session.run arguments).1 = .success ∧ ∀ path ≠ cachePath tables,
        (session.run arguments).2.files path =
          if path = invocation.output then some document else session.files path
  /-- If it cannot, the run says why, and leaves all files as they are, its output among them. -/
  failed : ∀ invocation failure, parseArguments arguments = .ok invocation →
    documentOfText bytes invocation.options = .error failure →
      (session.run arguments).1 = .failure failure.context failure.cause ∧
        ∀ path ≠ cachePath tables, (session.run arguments).2.files path = session.files path
  /-- Arguments that ask for nothing change nothing. -/
  refused : ∀ refusal, parseArguments arguments = .error refusal →
    (session.run arguments).2 = session

variable {session : Session} {tables : String} {bytes : List UInt8} {arguments : List String}

theorem run_refused {refusal : Refusal} (isRefused : parseArguments arguments = .error refusal) :
    session.run arguments =
      (match refusal with | .misuse => .misuse | .information => .success, session) := by
  simp only [run, CommandLine.run, isRefused]
  cases refusal <;> rfl

theorem Holds.isTransparent (holds : session.Holds tables bytes)
    (fits : bytes.length < UInt64.size) (spares : Spares tables arguments) :
    session.IsTransparent tables bytes arguments := by
  cases isParsed : parseArguments arguments with
  | error refusal =>
    constructor
    case outcome_eq => simp [run_refused isParsed]
    case session_eq => simp [run_refused isParsed, erase]
    case refused => simp [run_refused isParsed]
    all_goals simp [isParsed]
  | ok invocation =>
    obtain ⟨rfl, -, -⟩ := spares invocation isParsed
    have ran := holds.run_eq fits isParsed
    have ranWithout := holds.erased.run_eq fits isParsed
    rw [holds.loaded_erase, ← ran] at ranWithout
    constructor
    case outcome_eq => rw [ranWithout]
    case session_eq => rw [ranWithout]
    case written =>
      intro other document isOther isDocument
      obtain rfl := Except.ok.inj (isParsed.symm.trans isOther)
      rw [ran, isDocument]
      refine ⟨rfl, fun path notCache ↦ ?_⟩
      rw [files_conclude, files_loaded_of_ne notCache]
      rfl
    case failed =>
      intro other failure isOther isFailure
      obtain rfl := Except.ok.inj (isParsed.symm.trans isOther)
      rw [ran, isFailure]
      exact ⟨rfl, fun path notCache ↦ files_loaded_of_ne notCache⟩
    case refused => simp [isParsed]

/-- After a run the dump still stands, and its cache is there if the run asked for anything and the
dump can be read. Otherwise the cache is as before. -/
theorem Holds.run (holds : session.Holds tables bytes) (fits : bytes.length < UInt64.size)
    (spares : Spares tables arguments) :
    (session.run arguments).2.Holds tables bytes ∧
      (session.run arguments).2.files (cachePath tables) =
        if (parseArguments arguments).isOk then
          (Metadata.ofTextBytes bytes).toOption.map Metadata.toBytes
        else session.files (cachePath tables) := by
  cases isParsed : parseArguments arguments with
  | error refusal =>
    rw [run_refused isParsed]
    exact ⟨holds, rfl⟩
  | ok invocation =>
    obtain ⟨rfl, notDump, notCache⟩ := spares invocation isParsed
    have cached : (session.run arguments).2.files (cachePath invocation.tables) =
        (Metadata.ofTextBytes bytes).toOption.map Metadata.toBytes := by
      rw [holds.run_eq fits isParsed, files_conclude, if_neg notCache.symm,
        holds.files_loaded_cachePath]
    refine ⟨⟨?_, ?_⟩, cached⟩
    · rw [holds.run_eq fits isParsed, files_conclude, if_neg notDump.symm,
        files_loaded_of_ne (cachePath_ne _).symm, holds.dump]
    · rw [cached]
      cases Metadata.ofTextBytes bytes with
      | error => exact .inl rfl
      | ok metadata => exact .inr ⟨metadata, rfl, rfl⟩

theorem Holds.after (holds : session.Holds tables bytes) (fits : bytes.length < UInt64.size)
    {runs : List (List String)} (spare : ∀ arguments ∈ runs, Spares tables arguments) :
    (session.after runs).Holds tables bytes ∧
      (session.after runs).files (cachePath tables) =
        if runs.any fun arguments ↦ (parseArguments arguments).isOk then
          (Metadata.ofTextBytes bytes).toOption.map Metadata.toBytes
        else session.files (cachePath tables) := by
  induction runs generalizing session with
  | nil => exact ⟨holds, rfl⟩
  | cons arguments runs ih =>
    obtain ⟨spares, spare⟩ := List.forall_mem_cons.mp spare
    obtain ⟨held, cached⟩ := holds.run fits spares
    obtain ⟨heldAfter, cachedAfter⟩ := ih held spare
    refine ⟨heldAfter, cachedAfter.trans ?_⟩
    rw [cached, List.any_cons]
    cases (parseArguments arguments).isOk <;> simp

/-- **Caches are transparent.** In a session that begins without a cache, runs for one dump do not
change it. The first of them that asks for anything makes the cache, if the dump can be read, whatever
comes of its catalogue, and no later one changes the cache. Another run after them does what it would
do if it read the JSON text. -/
theorem runs_transparent (isDump : session.files tables = some bytes)
    (fits : bytes.length < UInt64.size) (isFresh : session.files (cachePath tables) = none)
    {runs : List (List String)} (spare : ∀ arguments ∈ runs, Spares tables arguments) :
    (session.after runs).files tables = some bytes ∧
      (session.after runs).files (cachePath tables) =
        (if runs.any fun arguments ↦ (parseArguments arguments).isOk then
          (Metadata.ofTextBytes bytes).toOption.map Metadata.toBytes
        else none) ∧
      ∀ next, Spares tables next → (session.after runs).IsTransparent tables bytes next := by
  obtain ⟨held, cached⟩ := Holds.after ⟨isDump, .inl isFresh⟩ fits spare
  refine ⟨held.dump, ?_, fun next spares ↦ held.isTransparent fits spares⟩
  rw [cached, isFresh]

end Session

/-- A dump of a class with one field, whose type is a parameter of the class, and of an instantiation
with an argument too few. -/
def boxDump : List UInt8 :=
  ["\x7b\"version\":24,\"global_metadata\":\x7b",
    "\"type_definitions\":[\x7b\"name\":\"Box\",",
      "\"generic_container_index\":0,\"field_start\":0,\"field_count\":1\x7d],",
    "\"fields\":[\x7b\"name\":\"item\",\"type_index\":0\x7d],",
    "\"generic_parameters\":[\x7b\"name\":\"T\",\"num\":1\x7d],",
    "\"generic_containers\":[\x7b\"type_argc\":1,\"generic_parameter_start\":0\x7d],",
    "\"images\":[\x7b\"name\":\"main.dll\",\"type_start\":0,\"type_count\":1\x7d]\x7d,",
  "\"runtime_metadata\":\x7b\"metadata_registration\":\x7b",
    "\"generic_classes\":[\x7b\"type_definition_index\":0,",
      "\"context\":\x7b\"class_inst_index\":0\x7d\x7d],",
    "\"generic_insts\":[\x7b\"types\":[1]\x7d],",
    "\"types\":[\x7b\"data\":\x7b\"GenericParameterIndex\":0\x7d,\"ty\":\"var\"\x7d,",
      "\x7b\"ty\":\"i4\"\x7d,",
      "\x7b\"data\":\x7b\"GenericClassIndex\":0\x7d,\"ty\":\"genericinst\"\x7d],",
    "\"field_offsets\":\x7b\"ByType\":[[16]]\x7d\x7d\x7d\x7d"].flatMap Text.utf8

namespace Session

/-- The dump stands alone in the session. -/
def boxes : Session where
  files path := if path = "dump.json" then some boxDump else none
  reported := []

/-- The instantiation cannot be laid out, so the first run makes the cache and fails. The last one
leaves instantiations out. -/
def boxRuns : List (List String) :=
  [["dump.json", "--output", "all.json"], ["--help"],
    ["dump.json", "-ogeneric.json", "--no-generic-instances"]]

set_option maxRecDepth 10000 in
theorem boxes_runs_transparent :
    (boxes.files "dump.json" = some boxDump ∧ boxDump.length < UInt64.size ∧
      boxes.files (cachePath "dump.json") = none ∧
      ∀ arguments ∈ boxRuns, Spares "dump.json" arguments) ∧
    ((documentOfText boxDump ⟨true, true⟩).isOk = false ∧
      (documentOfText boxDump ⟨false, true⟩).isOk = true) ∧
    (boxes.after boxRuns).files "dump.json" = some boxDump ∧
      (boxes.after boxRuns).files (cachePath "dump.json") =
        (if boxRuns.any fun arguments ↦ (parseArguments arguments).isOk then
          (Metadata.ofTextBytes boxDump).toOption.map Metadata.toBytes
        else none) ∧
      ∀ next, Spares "dump.json" next →
        (boxes.after boxRuns).IsTransparent "dump.json" boxDump next := by
  have fits : boxDump.length < UInt64.size := by decide +kernel
  have isFresh : boxes.files (cachePath "dump.json") = none := by decide +kernel
  have spare : ∀ arguments ∈ boxRuns, Spares "dump.json" arguments := by decide +kernel
  exact ⟨⟨rfl, fits, isFresh, spare⟩, ⟨by decide +kernel, by decide +kernel⟩,
    runs_transparent rfl fits isFresh spare⟩

end Session

end ManagedLayout.CommandLine
