import JavaAtlas.Failure
import JavaAtlas.Model.Kinds

namespace JavaAtlas

/-! # Paths

Paths are texts with slashes. They are compared by their components: repeated slashes count as
one, and a single dot counts only at the start of a relative path.
-/

namespace Path

/-- A part of a path. -/
inductive Component where
  | root
  | current
  | parent
  | normal (name : String)
deriving DecidableEq, Inhabited, Repr

/-- The stretches between slashes. -/
def segments (path : String) : List String := (path.toList.splitOn '/').map String.ofList

/-- Whether the path starts at the root. -/
def isAbsolute (path : String) : Bool := path.startsWith "/"

/-- The components of a path. -/
def components (path : String) : List Component :=
  let parts := segments path
  let lead := if isAbsolute path then [.root] else if parts.head? = some "." then [.current] else []
  lead ++ parts.filterMap fun s =>
    if s = "" ∨ s = "." then none
    else if s = ".." then some .parent
    else some (.normal s)

/-- The text of a component. -/
def Component.text : Component → String
  | .root => "/"
  | .current => "."
  | .parent => ".."
  | .normal name => name

/-- The text of components, with one slash between them. -/
def ofComponents : List Component → String
  | .root :: rest => "/" ++ "/".intercalate (rest.map Component.text)
  | cs => "/".intercalate (cs.map Component.text)

/-- What a component adds to the normal form. -/
def Component.part? : Component → Option String
  | .normal name => some name
  | .parent => some ".."
  | .root | .current => none

/-- The normal form of the path with these components: without single dots, a single dot if
nothing is left. -/
def normalizeComponents (cs : List Component) : String :=
  let joined := "/".intercalate (cs.filterMap Component.part?)
  if cs.contains .root then "/" ++ joined
  else if joined = "" then "."
  else joined

/-- The normal form of a path. -/
def normalize (path : String) : String := normalizeComponents (components path)

/-- What is left of a list behind a beginning. -/
def dropLead? {α : Type} [DecidableEq α] : List α → List α → Option (List α)
  | [], rest => some rest
  | _ :: _, [] => none
  | a :: as, b :: bs => if a = b then dropLead? as bs else none

/-- The components of `path` below `root`. -/
def below? (root path : String) : Option (List Component) :=
  dropLead? (components root) (components path)

/-- Whether `path` is `root` or lies below it. -/
def startsWith (path root : String) : Bool := (below? root path).isSome

/-- The normal form of `path` relative to `root`. -/
def relative (root path : String) : Except Failure String :=
  match below? root path with
  | some cs => .ok (normalizeComponents cs)
  | none => .error (.outside root path)

/-- `path` seen from `base`; an absolute path stands for itself. -/
def join (base path : String) : String :=
  if isAbsolute path then path
  else if base = "" ∨ base.endsWith "/" then base ++ path
  else base ++ "/" ++ path

/-- What follows the last slash. -/
def fileName (path : String) : String := ((segments path).getLast?).getD path

/-- The name of the last component, unless that is a root or dots. -/
def lastName? (path : String) : Option String :=
  match (components path).getLast? with
  | some (.normal name) => some name
  | _ => none

/-- What follows the last dot of the last component, unless that dot comes first. -/
def extension? (path : String) : Option String :=
  (lastName? path).bind fun name =>
    let after := name.toList.reverse.takeWhile (· != '.')
    if after.length = name.length ∨ after.length + 1 = name.length then none
    else some (String.ofList after.reverse)

/-- The path without its last component; none for a root or an empty path. -/
def parent? (path : String) : Option String :=
  match (components path).reverse with
  | [] | .root :: _ => none
  | _ :: rest => some (ofComponents rest.reverse)

/-- Whether a path names a source file. -/
def isSource (path : String) : Bool := extension? path = some "java"

/-- The path under which an absolute path is stored, and whether it is part of the project or of
a library: files below a library root keep their absolute path, those of the project are stored
relative to its root. -/
def locate (root : String) (libraries : List String) (path : String) : Option (String × Origin) :=
  if libraries.any (startsWith path) then some (normalize path, .library)
  else match relative root path with
    | .ok stored => some (stored, .project)
    | .error _ => none

end Path

end JavaAtlas
