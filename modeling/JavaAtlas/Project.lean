import JavaAtlas.Classpath
import JavaAtlas.Config
import JavaAtlas.Engine
import JavaAtlas.Host
import JavaAtlas.Model.Encode
import JavaAtlas.Reads

namespace JavaAtlas

/-! # Projects

A project is a source tree with its index, the worker that keeps it, and the places of its
compiled classes.
-/

/-- How a project is opened, apart from where it is. -/
structure ProjectOptions where
  noIgnore : Bool := false
  /-- Compiled classes beside those that the project itself is compiled to. -/
  classpath : List String := []
  libraries : List String := []
deriving DecidableEq, Inhabited, Repr

/-- An open project. -/
structure Project where
  tree : SourceTree
  classpath : Classpath
  engine : Engine

/-- What is told about a project. -/
structure ProjectInfo where
  name : String
  root : String
  indexState : IndexState
  files : Nat
  declarations : Nat
  libraries : List String
  classpath : List String
  isIndexed : Bool
deriving DecidableEq, Inhabited, Repr

/-- What is told about a project; of the time at which it was indexed only whether there is
one. -/
def ProjectInfo.toJson (p : ProjectInfo) : Json :=
  Json.ofFields [
    ("name", .str p.name),
    ("root", .str p.root),
    ("index_state", .str p.indexState.name),
    ("files", Json.ofNat p.files),
    ("declarations", Json.ofNat p.declarations),
    ("library_roots", Json.ofStrs p.libraries),
    ("classpath", Json.ofStrs p.classpath),
    ("last_indexed", if p.isIndexed then .int 0 else .null)]

/-! ## Opening the stored index -/

/-- Where the index of a project is stored if nothing else is said. -/
def defaultIndexPath (root : String) : String :=
  Path.join (Path.join root ".codeprobe") "index.sqlite"

/-- Why a directory cannot be made with those above it; none if it can or is there already. -/
def Disk.directoryFault? (d : Disk) (path : String) : Option FileFault :=
  if path.isEmpty ∨ d.isDirectory path then none
  else if d.isFile path then some .alreadyThere
  else
    match d.find path with
    | .error .notDirectory => some .notDirectory
    | _ => none

/-- Whether a file may be a stored index, by how it starts. -/
def looksStored (content : ByteArray) : Bool :=
  content.isEmpty || "SQLite format 3\x00".toUTF8.toList.isPrefixOf (content.toList.take 16)

/-- The disk after the place of an index has been made ready. What is stored there is not looked
at, but nothing else may stand in its place. -/
def Disk.placeIndex (d : Disk) (path : String) : Except Failure Disk :=
  let parent := (Path.parent? path).getD ""
  match d.directoryFault? parent with
  | some fault => .error (.while s!"create dir {parent}" (.file fault))
  | none =>
    if d.isDirectory path then
      .error (.while s!"open sqlite db at {path}" (.while s!"unable to open database file: {path}"
        (.because "Error code 14: Unable to open the database file")))
    else
      match d.read path with
      | .ok content =>
        if looksStored content then .ok d
        else .error (.while "file is not a database"
          (.because "Error code 26: File opened that is not a database file"))
      | .error _ => .ok (if parent.isEmpty then d else d.write parent .directory)

namespace Project

/-- Opens a project. The worker is asked first of all to index it. -/
def ofPaths (disk : Disk) (config : Config) (root : String) (options : ProjectOptions) : Project :=
  let tree := SourceTree.ofPaths disk root options.libraries options.noIgnore
  { tree
    classpath := .ofProject tree.root options.classpath
    engine := .start config.commitDelay }

/-- The name of a project is that of its directory. -/
def name (p : Project) : String :=
  (Path.lastName? p.tree.root).getD (Path.normalize p.tree.root)

/-- What a read of the index shows. -/
def view (p : Project) (disk : Disk) : IndexView :=
  { index := p.engine.index, disk, root := p.tree.root }

/-- The project when the worker has done all that is left for it. -/
def settle (p : Project) (disk : Disk) (time : Nat) : Project :=
  { p with engine := p.engine.settle p.tree disk time }

/-- What is told about the project. -/
def info (p : Project) (view : IndexView) : ProjectInfo :=
  { name := p.name
    root := Path.normalize p.tree.root
    indexState := p.engine.indexState
    files := view.countFiles .project
    declarations := view.countDeclarations .project
    libraries := p.tree.libraries.map Path.normalize
    classpath := p.classpath.paths
    isIndexed := view.index.isIndexed }

end Project

end JavaAtlas
