import JavaAtlas.Path

namespace JavaAtlas

/-! # Files on disk

A disk is a set of files and directories under absolute paths. Paths are followed component by
component, so that `..` leads back only out of a directory that is there.
-/

/-- What stands under a path. -/
inductive DiskEntry where
  | directory
  | file (content : ByteArray)
  /-- A file that is there but must not be read. -/
  | locked
deriving Inhabited

/-- Whether it is a file. -/
def DiskEntry.isFile : DiskEntry → Bool
  | .directory => false
  | .file _ | .locked => true

/-- The bytes of a file. -/
def DiskEntry.read : DiskEntry → Except FileFault ByteArray
  | .directory => .error .isDirectory
  | .file content => .ok content
  | .locked => .error .denied

/-- The files and directories under their absolute paths, and the directory from which relative
paths start. -/
structure Disk where
  entries : List (String × DiskEntry) := []
  workingDirectory : String := "/"
deriving Inhabited

namespace Disk

/-- The absolute path with these names, the last one first. -/
def pathOf (names : List String) : String := "/" ++ "/".intercalate names.reverse

/-- The entry under the path with these names, the last one first. The root is always there. -/
def entryAt? (d : Disk) (names : List String) : Option DiskEntry :=
  if names.isEmpty then some .directory else d.entries.lookup (pathOf names)

/-- Follows components from the directory with these names, the last one first. -/
def follow (d : Disk) (names : List String) : List Path.Component → Except FileFault (List String)
  | [] => .ok names
  | .root :: rest => d.follow [] rest
  | .current :: rest => d.follow names rest
  | .parent :: rest => d.follow names.tail rest
  | .normal name :: rest =>
    match d.entryAt? (name :: names) with
    | none => .error .notFound
    | some entry =>
      if entry.isFile && !rest.isEmpty then .error .notDirectory else d.follow (name :: names) rest

/-- Whether a path is written so that it can only mean a directory. -/
def namesDirectory (path : String) : Bool := path.endsWith "/" || path.endsWith "/."

/-- The names of the path that a path leads to, and what is there. -/
def find (d : Disk) (path : String) : Except FileFault (List String × DiskEntry) := do
  let names ← d.follow [] (Path.components (Path.join d.workingDirectory path))
  match d.entryAt? names with
  | none => .error .notFound
  | some entry =>
    if entry.isFile && namesDirectory path then .error .notDirectory else .ok (names, entry)

/-- The absolute path without dots that a path leads to. -/
def canonical (d : Disk) (path : String) : Except FileFault String :=
  (d.find path).map fun (names, _) => pathOf names

/-- Whether something is there. -/
def has (d : Disk) (path : String) : Bool := (d.find path).isOk

/-- Whether a file is there. -/
def isFile (d : Disk) (path : String) : Bool :=
  match d.find path with
  | .ok (_, entry) => entry.isFile
  | .error _ => false

/-- Whether a directory is there. -/
def isDirectory (d : Disk) (path : String) : Bool :=
  match d.find path with
  | .ok (_, entry) => !entry.isFile
  | .error _ => false

/-- The bytes of a file. -/
def read (d : Disk) (path : String) : Except FileFault ByteArray := do
  let (_, entry) ← d.find path
  entry.read

/-- The text of a file. -/
def readText (d : Disk) (path : String) : Except FileFault String := do
  match String.fromUTF8? (← d.read path) with
  | some text => .ok text
  | none => .error .notUtf8

/-- The names in a directory, in ascending order. -/
def list (d : Disk) (path : String) : List String :=
  match d.find path with
  | .ok (names, .directory) =>
    let own := d.entries.filterMap fun (key, _) =>
      match Path.below? (pathOf names) key with
      | some [.normal name] => some name
      | _ => none
    (own.mergeSort fun a b => decide (a ≤ b)).eraseDups
  | _ => []

/-! ## Changes -/

/-- The disk with an entry under a path, in place of what was there. -/
def put (d : Disk) (path : String) (entry : DiskEntry) : Disk :=
  { d with entries := (path, entry) :: d.entries.filter (·.1 ≠ path) }

/-- The disk with all directories above a path. -/
def withParents (d : Disk) (names : List Path.Component) : Disk :=
  (List.range names.length).foldl (fun d i =>
    let path := Path.ofComponents (names.take i)
    if i = 0 ∨ path = "/" ∨ d.has path then d else d.put path .directory) d

/-- The disk after an entry is written, with the directories above it. -/
def write (d : Disk) (path : String) (entry : DiskEntry) : Disk :=
  let path := Path.normalize (Path.join d.workingDirectory path)
  (d.withParents (Path.components path)).put path entry

/-- The disk after a file or a directory with all in it is removed. -/
def remove (d : Disk) (path : String) : Disk :=
  let path := Path.normalize (Path.join d.workingDirectory path)
  { d with entries := d.entries.filter fun (key, _) => !Path.startsWith key path }

end Disk

end JavaAtlas
