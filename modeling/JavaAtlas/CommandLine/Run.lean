import JavaAtlas.CommandLine.Commands
import JavaAtlas.CommandLine.Help
import JavaAtlas.Request.Call
import JavaAtlas.Request.Line

namespace JavaAtlas.CommandLine

/-! # Running a command

A run is a function of the arguments, the environment, the disk and the lines on the input; what
it leaves is an exit code and what it prints.
-/

/-- What a run leaves. -/
structure Outcome where
  exitCode : UInt8
  output : String := ""
  errors : String := ""
deriving DecidableEq, Inhabited, Repr

/-! ## Failures -/

/-- A text of which all lines but the first are indented. -/
def indentRest (indent text : String) : String := ("\n" ++ indent).intercalate (text.splitOn "\n")

/-- A cause with its number, or without if it is the only one. -/
def causeText (number : Option Nat) (text : String) : String :=
  match number with
  | none => "    " ++ indentRest "    " text
  | some n =>
    let digits := toString n
    let lead := String.ofList (List.replicate (5 - digits.length) ' ') ++ digits ++ ": "
    lead ++ indentRest "       " text

/-- The causes behind the outermost text of a failure. -/
def causesText : List String → String
  | [] => ""
  | [cause] => "\n\nCaused by:\n" ++ causeText none cause
  | causes =>
    "\n\nCaused by:\n" ++
      "\n".intercalate (causes.zipIdx.map fun (cause, i) => causeText (some i) cause)

/-- The report of a failure that ends the program. -/
def failureReport (f : Failure) : String := s!"Error: {f.outer}{causesText f.chain.tail}\n"

/-- The report of a query without an answer that ends the program. -/
def queryReport (e : QueryError) : String :=
  let details := match e.details with
    | some details => "\n" ++ details.pretty
    | none => ""
  s!"Error: {e.message} [{e.code}]{details}\n"

/-- A run that has failed. -/
def failed (report : String) : Outcome := { exitCode := 1, errors := report }

/-- A run that has printed something. -/
def printed (output : String) : Outcome := { exitCode := 0, output }

/-! ## Tasks -/

/-- The circumstances of a run. -/
structure Circumstances where
  disk : Disk
  config : Config
  /-- The lines on the input. -/
  input : List String := []

/-- How the project is opened: paths of the settings come before those of the arguments. -/
def optionsFor (config : Config) (args : ProjectArgs) : ProjectOptions :=
  { noIgnore := args.noIgnore
    classpath := config.classpath ++ args.classpath
    libraries := config.libraryRoots ++ args.libraryRoots }

/-- Where the index is stored. -/
def indexPath (args : ProjectArgs) : String := args.db.getD (defaultIndexPath args.repo)

/-- What a run over all files did; how long it took is not told. -/
def statsJson (stats : IndexStats) : Json :=
  match stats.toJson with
  | .obj fields => .obj (Json.insertField "duration_ms" (.int 0) fields)
  | j => j

/-- Indexes the project once. -/
def reindex (c : Circumstances) (args : ProjectArgs) : Except Failure String := do
  let disk ← c.disk.placeIndex (indexPath args)
  let options := optionsFor c.config args
  let tree := SourceTree.ofPaths disk args.repo options.libraries options.noIgnore
  let (_, stats) ← Index.reindex {} tree disk
  return (statsJson stats).pretty ++ "\n"

/-- Opens the project and waits until it is indexed. -/
def openService (c : Circumstances) (args : ProjectArgs) : Except Failure Service :=
  Service.openingReady c.disk c.config args.repo (indexPath args) (optionsFor c.config args)

/-- Answers one query. Texts are printed as they are, all else as JSON. -/
def query (c : Circumstances) (args : ProjectArgs) (method : String)
    (params : List (String × Json)) : Outcome :=
  match openService c args with
  | .error e => failed (failureReport e)
  | .ok service =>
    match ((Request.answer method (Json.ofFields params)).run.run service).1 with
    | .ok (.str text) => printed text
    | .ok result => printed (result.pretty ++ "\n")
    | .error e => failed (queryReport e)

/-- The text of the parameters of a request. -/
def paramsText (c : Circumstances) (params : String) : Option String → Except Failure String
  | none => .ok params
  | some file => (c.disk.readText file).mapError .file

/-- Answers one request. -/
def request (c : Circumstances) (args : ProjectArgs) (method params : String)
    (paramsFile : Option String) (id : String) : Except Failure String := do
  let params ← paramsText c params paramsFile
  let response ← Request.call c.disk c.config args.repo (indexPath args)
    (optionsFor c.config args) method params id
  return response.compress ++ "\n"

/-- Opens the project for requests, and starts to watch it. -/
def startServing (c : Circumstances) (args : ProjectArgs) (mode : Watch.WatchMode)
    (debounce : Nat) : Except Failure (Service × Option Watch.Watcher) := do
  let service ← openService c args
  let root := ((service.project.map (·.tree.root))).getD args.repo
  let watcher ← Watch.start service.disk root (.ofDebounce mode debounce args.noIgnore) 0
  return (service, watcher)

/-- Answers the requests on the input. -/
def serve (c : Circumstances) (args : ProjectArgs) (mode : Watch.WatchMode) (debounce : Nat) :
    Except Failure String := do
  let (service, _) ← startServing c args mode debounce
  let responses := Request.answerLines service c.input
  return String.join (responses.map fun r => r.compress ++ "\n")

/-- What a task leaves that prints something or fails. -/
def outcomeOf : Except Failure String → Outcome
  | .ok output => printed output
  | .error e => failed (failureReport e)

/-- Does what the program is asked to do. -/
def perform (c : Circumstances) (i : Invocation) : Outcome :=
  match i.task with
  | .serve mode debounce => outcomeOf (serve c i.project mode debounce)
  | .reindex => outcomeOf (reindex c i.project)
  | .request method params file id => outcomeOf (request c i.project method params file id)
  | .describe name format =>
    query c i.project "describe" [("class", .str name), ("format", .str format)]
  | .callers name method format =>
    query c i.project "callers"
      [("class", .str name), ("method", .str method), ("format", .str format)]
  | .check name format timeout =>
    query c i.project "check_errors"
      [("class", .str name), ("format", .str format),
        ("timeout_ms", Json.ofOption Json.ofNat timeout)]

/-- What is printed for arguments that cannot be used, or need not be. -/
def usageOutcome (args : List String) : UsageError → Outcome
  | .displayHelp => printed (helpFor args)
  | .displayVersion => printed versionText
  | .helpOnMissingArgument => { exitCode := 2, errors := helpFor [] }
  | e => { exitCode := 2, errors := s!"error: {e.message}\n" }

/-- Runs the program. -/
def run (c : Circumstances) (args : List String) : Outcome :=
  match parse args with
  | .ok i => perform c i
  | .error e => usageOutcome args e

end JavaAtlas.CommandLine
