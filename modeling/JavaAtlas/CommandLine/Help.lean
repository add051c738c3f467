import JavaAtlas.CommandLine.Commands

namespace JavaAtlas.CommandLine

/-! # Help

Help is laid out in columns on lines of a hundred characters. If the notes do not fit beside the
names they go below them.
-/

/-- The name of the program. -/
def programName : String := "codeprobe"

/-- The name and version of the program. -/
def versionText : String := s!"{programName} 0.1.0\n"

/-- The length of a line. -/
def lineWidth : Nat := 100

/-- How far notes below names are indented. -/
def noteIndent : Nat := 10

/-- So many spaces. -/
def spaces (n : Nat) : String := String.ofList (List.replicate n ' ')

/-- Puts words on lines, behind what stands on the present one. -/
def fillLines (width : Nat) (line : String) : List String → List String
  | [] => [line]
  | word :: rest =>
    if line.isEmpty then fillLines width word rest
    else if line.length + 1 + word.length ≤ width then
      fillLines width (line ++ " " ++ word) rest
    else line :: fillLines width word rest

/-- A text on lines that are not too long; later lines are indented. -/
def wrapped (indent : Nat) (text : String) : String :=
  let lines := (text.splitOn "\n").flatMap fun line =>
    fillLines (lineWidth - indent) "" (line.splitOn " ")
  ("\n" ++ spaces indent).intercalate lines

/-! ## Entries -/

/-- Something that help is about. -/
structure Entry where
  /-- What stands in front of the label. -/
  lead : String
  label : String
  /-- The note on one line. -/
  note : String
  /-- The note with room for paragraphs. -/
  longNote : String := ""
  /-- Lines behind the long note. -/
  more : List String := []
deriving DecidableEq, Inhabited, Repr

/-- The label of an option. -/
def OptionSpec.label (o : OptionSpec) : String :=
  if o.form = .flag then "--" ++ o.name else s!"--{o.name} <{o.placeholder}>"

/-- Parts of a note that are there, with something between them. -/
def joinParts (between : String) (parts : List String) : String :=
  between.intercalate (parts.filter (· ≠ ""))

/-- The values of an option with what is said about each of them. -/
def choiceLines (notes : List (String × String)) : List String :=
  let width := (notes.map (·.1.length)).foldl max 0
  let lines := notes.map fun (name, note) =>
    s!"- {name}: {spaces (width - name.length)}{note}"
  if notes.isEmpty then [] else "Possible values:" :: lines

/-- An option in help. -/
def OptionSpec.entry (o : OptionSpec) : Entry :=
  let default := (o.default.map fun d => s!"[default: {d}]").getD ""
  let names := ", ".intercalate (o.choiceNotes.map (·.1))
  let choices := if o.choiceNotes.isEmpty then "" else s!"[possible values: {names}]"
  { lead := spaces 6
    label := o.label
    note := joinParts " " [o.note, default, choices]
    longNote := joinParts "\n\n" [o.note, default]
    more := choiceLines o.choiceNotes }

/-- The option that asks for help. -/
def helpEntry (hasLong : Bool) : Entry :=
  { lead := "  -h, "
    label := "--help"
    note := if hasLong then "Print help (see more with '--help')" else "Print help"
    longNote := "Print help (see a summary with '-h')" }

/-- An argument in help. -/
def ArgumentSpec.entry (a : ArgumentSpec) : Entry :=
  { lead := "  ", label := s!"<{a.placeholder}>", note := a.note, longNote := a.note }

/-- The length of the longest label. -/
def labelWidth (entries : List Entry) : Nat := (entries.map (·.label.length)).foldl max 0

/-- Where notes beside labels start. -/
def noteColumn (entries : List Entry) : Nat :=
  ((entries.map (·.lead.length)).foldl max 0) + labelWidth entries + 2

/-- Whether notes go below the labels: these take up more than two fifths of the lines, and a note
does not fit beside them. -/
def goesBelow (entries : List Entry) : Bool :=
  let column := noteColumn entries
  column * 10 > lineWidth * 4 && entries.any fun e => lineWidth - column < e.note.length

/-- An entry with its note below. -/
def Entry.below (e : Entry) (note : String) : String :=
  s!"{e.lead}{e.label}\n{spaces noteIndent}{wrapped noteIndent note}"

/-- An entry with all there is to say below. -/
def Entry.inFull (e : Entry) : String :=
  let more := ("\n" ++ spaces noteIndent).intercalate e.more
  e.below e.longNote ++ (if e.more.isEmpty then "" else s!"\n\n{spaces noteIndent}{more}")

/-- An entry with its note beside it. -/
def Entry.beside (column : Nat) (e : Entry) : String :=
  let label := e.lead ++ e.label
  label ++ spaces (column - label.length) ++ wrapped column e.note

/-- Entries with their notes. -/
def entriesText (long : Bool) (entries : List Entry) : String :=
  if long then "\n\n".intercalate (entries.map (·.inFull))
  else if goesBelow entries then "\n".intercalate (entries.map fun e => e.below e.note)
  else "\n".intercalate (entries.map (·.beside (noteColumn entries)))

/-! ## Texts -/

/-- Whether there is more to say about a command than fits in its short help. -/
def CommandSpec.hasLongHelp (c : CommandSpec) : Bool := c.options.any (!·.choiceNotes.isEmpty)

/-- How a command is used. -/
def CommandSpec.usage (c : CommandSpec) : String :=
  let required := (c.options.filter (·.required)).map fun o => " " ++ o.label
  let arguments := c.arguments.map fun a => s!" <{a.placeholder}>"
  s!"{programName} {c.name} [OPTIONS]" ++ String.join (required ++ arguments)

/-- The help for a command. -/
def CommandSpec.help (c : CommandSpec) (long : Bool) : String :=
  let long := long && c.hasLongHelp
  let arguments := if c.arguments.isEmpty then ""
    else s!"Arguments:\n{entriesText long (c.arguments.map (·.entry))}\n\n"
  let options := entriesText long (c.options.map (·.entry) ++ [helpEntry c.hasLongHelp])
  s!"{c.about}\n\nUsage: {c.usage}\n\n{arguments}Options:\n{options}\n"

/-- What is said about asking for help. -/
def helpNote : String := "Print this message or the help of the given subcommand(s)"

/-- The help for asking for help. -/
def helpHelp : String :=
  let entry : Entry :=
    { lead := "  "
      label := "[COMMAND]..."
      note := "Print help for the subcommand(s)" }
  s!"{helpNote}\n\nUsage: {programName} help [COMMAND]...\n\nArguments:\n" ++
    entriesText false [entry] ++ "\n"

/-- Ways to use the program. -/
def exampleLines : List String :=
  [ "reindex --repo .",
    "describe --repo . com.example.Main --format text",
    "callers --repo . Widget reset",
    "check --repo . Widget.java",
    "request --method resolve --params '\x7b\"name\":\"Widget\"\x7d'",
    "serve --repo . --watch auto"]

/-- The help for the program as a whole. -/
def programHelp : String :=
  let entry (name note : String) : Entry := { lead := "  ", label := name, note }
  let options := [helpEntry false,
    { lead := "  -V, ", label := "--version", note := "Print version" }]
  "Symbol resolution, call chains and live diagnostics for Java projects\n\n" ++
    s!"Usage: {programName} <COMMAND>\n\nCommands:\n" ++
    entriesText false (commands.map (fun c => entry c.name c.about) ++ [entry "help" helpNote]) ++
    "\n\nOptions:\n" ++ entriesText false options ++ "\n\nExamples:\n" ++
    String.join (exampleLines.map fun line => s!"  {programName} {line}\n")

/-- The help that arguments ask for. -/
def helpFor : List String → String
  | "help" :: name :: _ => if name = "help" then helpHelp else ofCommand name true
  | name :: rest => ofCommand name (!asksShortly rest)
  | [] => programHelp
where
  /-- The help for a command, or for the program if there is no such command. -/
  ofCommand (name : String) (long : Bool) : String :=
    match command? name with
    | some c => c.help long
    | none => programHelp
  /-- Whether help is asked for with a single letter. -/
  asksShortly : List String → Bool
    | [] => false
    | arg :: rest =>
      if arg = "--help" then false else arg.startsWith "-h" || asksShortly rest

end JavaAtlas.CommandLine
