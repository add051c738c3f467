import JavaAtlas.CommandLine.Args
import JavaAtlas.Watch

namespace JavaAtlas.CommandLine

/-! # The commands of the program -/

/-- Where the project is and how it is indexed. -/
structure ProjectArgs where
  repo : String := "."
  db : Option String := none
  noIgnore : Bool := false
  classpath : List String := []
  libraryRoots : List String := []
deriving DecidableEq, Inhabited, Repr

/-- What the program is asked to do with a project. -/
inductive Task where
  | serve (watch : Watch.WatchMode) (debounce : Nat)
  | reindex
  | request (method params : String) (paramsFile : Option String) (id : String)
  | describe (name format : String)
  | callers (name method format : String)
  | check (name format : String) (timeout : Option Nat)
deriving DecidableEq, Inhabited, Repr

/-- What the program is asked to do. -/
structure Invocation where
  project : ProjectArgs
  task : Task
deriving DecidableEq, Inhabited, Repr

/-! ## Commands and options -/

/-- The options that all commands have. -/
def projectOptions : List OptionSpec :=
  [ { name := "repo", form := .single .path, placeholder := "REPO", default := some "." },
    { name := "db", form := .single .path, placeholder := "DB" },
    { name := "no-ignore", form := .flag, note := "Include files ignored by .gitignore" },
    { name := "classpath"
      form := .repeated .path
      placeholder := "PATH"
      note := "Compiled class directory or jar; repeatable. Added after CODEPROBE_CLASSPATH" },
    { name := "library-root"
      form := .repeated .path
      placeholder := "PATH"
      note := "Dependency source root; repeatable. Added after CODEPROBE_LIBRARY_ROOTS" }]

/-- The option for whether to watch. -/
def watchOption : OptionSpec :=
  { name := "watch"
    form := .single (.choice (Watch.WatchMode.all.map (·.name)))
    placeholder := "WATCH"
    default := some "auto"
    note := "File watch mode: auto|on|off"
    choiceNotes := Watch.WatchMode.all.map fun mode => (mode.name, mode.note) }

/-- The option for how long no change must have come. -/
def debounceOption : OptionSpec :=
  { name := "watch-debounce-ms"
    form := .single .count
    placeholder := "WATCH_DEBOUNCE_MS"
    default := some "300"
    note := "Debounce window for filesystem events in milliseconds" }

/-- The options for a request. -/
def requestOptions : List OptionSpec :=
  [ { name := "method", form := .single .text, required := true, placeholder := "METHOD" },
    { name := "params"
      form := .single .text
      placeholder := "PARAMS"
      default := some "\x7b\x7d" },
    { name := "params-file", form := .single .path, placeholder := "PATH" },
    { name := "id", form := .single .text, placeholder := "ID", default := some "1" }]

/-- The option for the form of an answer. -/
def formatOption (formats : String) : OptionSpec :=
  { name := "format"
    form := .single .text
    placeholder := "FORMAT"
    default := some "text"
    note := s!"Output format: {formats}" }

/-- The option for how long diagnostics may take to settle. -/
def timeoutOption : OptionSpec :=
  { name := "timeout-ms"
    form := .single .count
    placeholder := "TIMEOUT_MS"
    note := "Stability timeout in milliseconds" }

/-- All commands. -/
def commands : List CommandSpec :=
  [ { name := "serve"
      about := "Run JSONL RPC server over stdin/stdout"
      options := projectOptions ++ [watchOption, debounceOption] },
    { name := "reindex"
      about := "Reindex repository once and exit"
      options := projectOptions },
    { name := "request"
      about := "Run a single JSONL request and exit"
      options := projectOptions ++ requestOptions },
    { name := "describe"
      about := "Describe a type"
      options := projectOptions ++ [formatOption "json|text|simple"]
      arguments := [{ placeholder := "CLASS"
                      note := "Qualified name, simple name or source file name" }] },
    { name := "callers"
      about := "List the callers of a method"
      options := projectOptions ++ [formatOption "json|text"]
      arguments := [{ placeholder := "CLASS" }, { placeholder := "METHOD" }] },
    { name := "check"
      about := "Report the errors of one source unit"
      options := projectOptions ++ [formatOption "json|text", timeoutOption]
      arguments := [{ placeholder := "CLASS" }] }]

/-- The command with a name. -/
def command? (name : String) : Option CommandSpec := commands.find? (·.name == name)

/-! ## Reading -/

/-- The project that is meant. -/
def projectArgs (r : Reading) : ProjectArgs :=
  { repo := (r.value? "repo").getD "."
    db := r.value? "db"
    noIgnore := r.flag "no-ignore"
    classpath := r.values "classpath"
    libraryRoots := r.values "library-root" }

/-- What is to be done. -/
def taskOf (command : String) (r : Reading) : Task :=
  let format := (r.value? "format").getD "text"
  match command with
  | "serve" =>
    .serve (((r.value? "watch").bind Watch.WatchMode.parse?).getD .auto)
      ((r.count? "watch-debounce-ms").getD 300)
  | "request" =>
    .request ((r.value? "method").getD "") ((r.value? "params").getD "\x7b\x7d")
      (r.value? "params-file") ((r.value? "id").getD "1")
  | "describe" => .describe (r.argument 0) format
  | "callers" => .callers (r.argument 0) (r.argument 1) format
  | "check" => .check (r.argument 0) format (r.count? "timeout-ms")
  | _ => .reindex

/-- Reads the arguments of a command. -/
def readCommand (c : CommandSpec) (args : List String) : Except UsageError Invocation := do
  let r ← c.read args
  return { project := projectArgs r, task := taskOf c.name r }

/-- The command about which help is asked, by the names behind `help`: none for the program as a
whole. -/
def helpTopic : List String → Except UsageError (Option String)
  | [] => .ok none
  | name :: rest =>
    if !(name == "help" || (command? name).isSome) then .error .invalidSubcommand
    else if rest.isEmpty then .ok (some name)
    else .error .invalidSubcommand

/-- Asks for help. -/
def askHelp {α : Type} (names : List String) : Except UsageError α := do
  let _ ← helpTopic names
  throw .displayHelp

/-- Reads letters behind a single dash in front of a command. -/
def readLeadingShort {α : Type} : List Char → Except UsageError α
  | 'h' :: _ => .error .displayHelp
  | 'V' :: _ => .error .displayVersion
  | _ => .error .unknownArgument

/-- Reads what stands behind `--` in front of a command. Commands are not looked for there. -/
def readBehindDashes {α : Type} : List String → Except UsageError α
  | [] => .error .helpOnMissingArgument
  | arg :: _ =>
    .error (if arg == "help" || (command? arg).isSome then .unknownArgument else .invalidSubcommand)

/-- Reads all arguments of the program. -/
def parse : List String → Except UsageError Invocation
  | [] => .error .helpOnMissingArgument
  | arg :: rest =>
    match command? arg with
    | some c => readCommand c rest
    | none =>
      if arg == "help" then askHelp rest
      else
        match arg.toList with
        | [ '-', '-'] => readBehindDashes rest
        | '-' :: '-' :: long =>
          match Reading.splitLong long with
          | ("help", none) => .error .displayHelp
          | ("version", none) => .error .displayVersion
          | ("help", some _) | ("version", some _) => .error .tooManyValues
          | _ => .error .unknownArgument
        | '-' :: x :: letters => readLeadingShort (x :: letters)
        | _ => .error .invalidSubcommand

end JavaAtlas.CommandLine
