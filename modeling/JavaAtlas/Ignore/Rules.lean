import JavaAtlas.Disk
import JavaAtlas.Ignore.Glob
import JavaAtlas.Text.Blank

namespace JavaAtlas.Ignore

/-! # Rules for files that are left out

A rule is a pattern that leaves out what it matches or, behind an exclamation mark, keeps it. Of
several rules in one place the last that matches decides. Rules stand in files in the directories
to which they apply; the deeper directory decides first, and rules of the kind that holds for all
tools go before those of version control.
-/

/-- What rules say about a path. -/
inductive Verdict where
  | ignored
  | kept
deriving DecidableEq, Inhabited, Repr

/-- A rule. -/
structure Rule where
  glob : Glob
  verdict : Verdict
  /-- It is about directories only. -/
  onlyDirectories : Bool
deriving DecidableEq, Inhabited, Repr

/-- Whether a text holds a slash. -/
def hasSlash (text : List Char) : Bool := text.contains '/'

/-- A line without the white space at its end, unless that is protected by a backslash. -/
def trimRule (line : String) : String :=
  if line.endsWith "\\ " then line else trimEnd line

/-- The pattern that is matched for what a rule says. Without a slash it matches at any depth;
`/**` at the end matches what is in a directory but not the directory. -/
def anchored (absolute : Bool) (body : List Char) : String :=
  let deep := "**/".toList.isPrefixOf body || body == "**".toList
  let text := String.ofList body
  let text := if absolute || hasSlash body || deep then text else "**/" ++ text
  if text.endsWith "/**" then text ++ "/*" else text

/-- The rule of a line; none if the line is empty, a comment, or not well formed. -/
def Rule.parse? (line : String) : Option Rule :=
  let text := trimRule line
  if line.startsWith "#" || text.isEmpty then none
  else
    let (verdict, absolute, body) : Verdict × Bool × List Char :=
      match text.toList with
      | '\\' :: '!' :: rest => (.ignored, false, '!' :: rest)
      | '\\' :: '#' :: rest => (.ignored, false, '#' :: rest)
      | '!' :: '/' :: rest => (.kept, true, rest)
      | '!' :: rest => (.kept, false, rest)
      | '/' :: rest => (.ignored, true, rest)
      | rest => (.ignored, false, rest)
    let (onlyDirectories, body) : Bool × List Char :=
      match body.reverse with
      | '/' :: '\\' :: rest => (true, rest.reverse)
      | '/' :: rest => (true, rest.reverse)
      | _ => (false, body)
    (Glob.parse? (anchored absolute body)).map fun glob => { glob, verdict, onlyDirectories }

/-- The lines of a file, as far as they are text. -/
def textLines (content : ByteArray) : List String :=
  let lines := splitAt [] content.toList
  let texts := (lines.map fun l => String.fromUTF8? ⟨(dropReturn l).toArray⟩)
  (texts.takeWhile Option.isSome).filterMap id
where
  splitAt (line : List UInt8) : List UInt8 → List (List UInt8)
    | [] => if line.isEmpty then [] else [line.reverse]
    | b :: rest => if b = 10 then line.reverse :: splitAt [] rest else splitAt (b :: line) rest
  dropReturn (line : List UInt8) : List UInt8 :=
    if line.getLast? = some 13 then line.dropLast else line

/-- The lines without the marks that may stand at the start of a text. -/
def withoutMark : List String → List String
  | [] => []
  | line :: rest =>
    String.ofList (line.toList.dropWhile (· == Char.ofNat 0xFEFF)) :: rest

/-- Rules that belong to a directory. -/
structure RuleSet where
  directory : String
  rules : List Rule
deriving DecidableEq, Inhabited, Repr

/-- The rules in a file, which belong to a directory. -/
def RuleSet.read (disk : Disk) (directory file : String) : RuleSet :=
  let lines := match disk.read file with
    | .ok content => withoutMark (textLines content)
    | .error _ => []
  { directory
    rules := lines.filterMap Rule.parse? }

/-- What rules say about a path relative to their directory: what the last one that matches
says. -/
def decideRules (rules : List Rule) (path : String) (isDirectory : Bool) : Option Verdict :=
  (rules.reverse.find? fun r =>
    (isDirectory || !r.onlyDirectories) && r.glob.test path).map (·.verdict)

/-- What rules say about an absolute path. -/
def RuleSet.verdict? (s : RuleSet) (path : String) (isDirectory : Bool) : Option Verdict :=
  match Path.below? s.directory path with
  | some names => decideRules s.rules (Path.ofComponents names) isDirectory
  | none => none

/-- A path and the directories above it, nearest first, down to but without the start. -/
def upward : List Path.Component → List (List Path.Component) :=
  fun names => (List.range names.length).map fun i => names.take (names.length - i)

/-- What rules say about an absolute path or, if nothing, about the nearest directory above it of
which they say something. The last of these is the directory of the rules itself, whose path is
empty. -/
def RuleSet.verdictUpward? (s : RuleSet) (path : String) (isDirectory : Bool) : Option Verdict :=
  match Path.below? s.directory path with
  | some names =>
    (upward names ++ [[]]).findSome? fun part =>
      decideRules s.rules (Path.ofComponents part) (isDirectory || part.length < names.length)
  | none => none

/-! ## The rules of a tree -/

/-- The rules that stand in one directory. -/
structure DirectoryRules where
  /-- For all tools. -/
  general : RuleSet
  /-- Of version control. -/
  shared : RuleSet
  /-- Of version control, for this place only. -/
  excluded : RuleSet

/-- Reads the rules that stand in a directory. -/
def DirectoryRules.read (disk : Disk) (directory : String) : DirectoryRules :=
  { general := .read disk directory (Path.join directory ".ignore")
    shared := .read disk directory (Path.join directory ".gitignore")
    excluded := .read disk directory (Path.join directory ".git/info/exclude") }

/-- The directories above a path, nearest first. -/
def directoriesAbove (path : String) : List String :=
  ((upward (Path.components path)).drop 1).map Path.ofComponents

/-- What the rules in the directories above an absolute path say about it. -/
def verdictOf (disk : Disk) (path : String) (isDirectory : Bool) : Option Verdict :=
  let sets := (directoriesAbove path).map (DirectoryRules.read disk)
  let first (choose : DirectoryRules → RuleSet) : Option Verdict :=
    sets.findSome? fun s => (choose s).verdict? path isDirectory
  (first (·.general)).orElse fun _ =>
    (first (·.shared)).orElse fun _ => first (·.excluded)

end JavaAtlas.Ignore
