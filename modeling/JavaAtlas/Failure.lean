import JavaAtlas.Json.Basic

namespace JavaAtlas

/-! # Failures

What can go wrong with files, indexes and classes, and what requests answer when it does. A
failure is a chain of texts from what was being done to what stood in the way.
-/

/-- Why a file could not be read. -/
inductive FileFault where
  | notFound
  | isDirectory
  | notDirectory
  | denied
  | alreadyThere
  | notUtf8
deriving DecidableEq, Inhabited, Repr

/-- The wording of a fault. -/
def FileFault.text : FileFault → String
  | .notFound => "No such file or directory (os error 2)"
  | .isDirectory => "Is a directory (os error 21)"
  | .notDirectory => "Not a directory (os error 20)"
  | .denied => "Permission denied (os error 13)"
  | .alreadyThere => "File exists (os error 17)"
  | .notUtf8 => "stream did not contain valid UTF-8"

/-- Damage to a stored row: a text where a value of another form should be. -/
inductive Damage where
  | superclass
  | kind
  | params
  | receiverType
deriving DecidableEq, Inhabited, Repr

/-- The column that is damaged. -/
def Damage.column : Damage → Nat
  | .superclass => 6
  | .kind => 3
  | .params => 6
  | .receiverType => 4

/-- What is wrong with the column. -/
def Damage.reason : Damage → String
  | .kind => "unexpected value 'odd'"
  | _ => "expected ident at line 1 column 2"

/-- Why something failed. -/
inductive Failure where
  /-- A path does not start with a root. -/
  | outside (root path : String)
  | notIndexed (path : String)
  | cannotOpen (path : String)
  | noIndexedFile (path : String)
  | engineStopped
  | noEnclosingType
  | orphanMember (name : String)
  | unresolvedType (text : String)
  | emptyType
  | newerSchema (version : Int)
  | damaged (damage : Damage)
  | file (fault : FileFault)
  /-- A cause that is only known by its text. -/
  | because (text : String)
  /-- What was being done when the cause came up. -/
  | while (doing : String) (cause : Failure)
deriving DecidableEq, Inhabited, Repr

namespace Failure

/-- The texts of a failure, outermost first. -/
def chain : Failure → List String
  | .outside root path => [s!"strip prefix {root} from {path}", "prefix not found"]
  | .notIndexed path => [s!"{path} is not indexed"]
  | .cannotOpen path => [s!"cannot open {path}: not indexed"]
  | .noIndexedFile path => [s!"no indexed file at {path}"]
  | .engineStopped => ["analysis engine has stopped"]
  | .noEnclosingType => ["no enclosing type"]
  | .orphanMember name => [s!"member {name} has no declaration"]
  | .unresolvedType text => [s!"cannot resolve type '{text}'"]
  | .emptyType => ["empty type text"]
  | .newerSchema version =>
    [s!"index schema version {version} is newer than supported version 2; " ++
      "delete the index to rebuild"]
  | .damaged d =>
    [s!"Conversion error from type Text at index: {d.column}, {d.reason}", d.reason]
  | .file fault => [fault.text]
  | .because text => [text]
  | .while doing cause => doing :: cause.chain

/-- The outermost text. -/
def outer (f : Failure) : String := f.chain.head?.getD ""

/-- All texts, outermost first. -/
def text (f : Failure) : String := ": ".intercalate f.chain

/-- The answer to a request that failed for this reason outside of any query. -/
def toJson (f : Failure) : Json :=
  Json.ofFields [("error", .str "internal"), ("message", .str f.text)]

end Failure

/-- Why a query has no answer. -/
inductive QueryError where
  | noProjectOpen
  | indexBuilding
  | notFound (input : String)
  /-- The names are sorted. -/
  | ambiguous (input : String) (names : List String)
  | invalidRequest (reason : String)
  | internal (failure : Failure)
deriving DecidableEq, Inhabited, Repr

namespace QueryError

/-- The name of the error. -/
def code : QueryError → String
  | .noProjectOpen => "NO_PROJECT_OPEN"
  | .indexBuilding => "INDEX_BUILDING"
  | .notFound _ => "CLASS_NOT_FOUND"
  | .ambiguous _ _ => "MULTIPLE_MATCHES"
  | .invalidRequest _ => "INVALID_REQUEST"
  | .internal _ => "INTERNAL_ERROR"

/-- The wording of the error. -/
def message : QueryError → String
  | .noProjectOpen => "no project is open"
  | .indexBuilding => "the project is still indexing; retry once indexing finishes"
  | .notFound input => s!"no declaration found for '{input}'"
  | .ambiguous input names =>
    s!"'{input}' matches {names.length} declarations; use a qualified name"
  | .invalidRequest reason => s!"invalid request: {reason}"
  | .internal failure => failure.outer

/-- What a name may look like. -/
def hints : List String :=
  ["qualified name, e.g. com.example.Main",
    "simple name, e.g. Main",
    "source file name, e.g. Main.java",
    "for a file name, make sure the file is inside the project"]

/-- What else there is to say about the error. -/
def details : QueryError → Option Json
  | .notFound input =>
    some (Json.ofFields [("input", .str input), ("hints", Json.ofStrs hints)])
  | .ambiguous input names =>
    some (Json.ofFields [
      ("input", .str input),
      ("matches", Json.ofStrs names),
      ("suggestion", .str ("retry with one of: " ++ ", ".intercalate names))])
  | .internal failure => some (Json.ofFields [("cause", .str failure.text)])
  | _ => none

/-- The error as an answer. -/
def toJson (e : QueryError) : Json :=
  Json.ofPresent [
    ("error", some (.str e.code)),
    ("message", some (.str e.message)),
    ("details", e.details)]

end QueryError

end JavaAtlas
