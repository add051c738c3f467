import JavaAtlas.Ignore.Rules

namespace JavaAtlas

/-! # Finding source files

The source files below a root, without those that rules leave out and without what lies in the
directories of version control and of the index itself. What is left out is left out with all
below it.
-/

/-- A source file that was found. -/
structure ScannedFile where
  /-- The path under which it is stored. -/
  stored : String
  path : String
  content : ByteArray
  origin : Origin

/-- The number of bytes of a file. -/
def ScannedFile.size (f : ScannedFile) : Nat := f.content.size

namespace Scan

/-- The directories that are never entered. -/
def internalNames : List String := [".codeprobe", ".git"]

/-- Whether the entry at an absolute path is left out: by its name, or by the rules above it. -/
def skips (disk : Disk) (noIgnore : Bool) (path : String) (isDirectory : Bool) : Bool :=
  internalNames.contains (Path.fileName path) ||
    (!noIgnore && Ignore.verdictOf disk path isDirectory == some .ignored)

/-- Whether a file, given by its components below a root, is reached from there: neither it nor
a directory between the root and it is left out. -/
def reaches (disk : Disk) (noIgnore : Bool) (root : String) (names : List Path.Component) : Bool :=
  (Ignore.upward names).all fun part =>
    !skips disk noIgnore (Path.join root (Path.ofComponents part)) (part.length < names.length)

/-- The files below a root that are reached from it, as their components below the root. -/
def filesBelow (disk : Disk) (noIgnore : Bool) (root : String) :
    List (List Path.Component × DiskEntry) :=
  match disk.find root with
  | .error _ => []
  | .ok (names, entry) =>
    if entry.isFile then [([], entry)]
    else
      let start := Disk.pathOf names
      disk.entries.filterMap fun (key, entry) =>
        match Path.below? start key with
        | some names =>
          if entry.isFile && reaches disk noIgnore start names then some (names, entry) else none
        | none => none

/-- The path of a file below a root. -/
def pathBelow (root : String) (names : List Path.Component) : String :=
  if names.isEmpty then root else Path.join root (Path.ofComponents names)

/-- The path under which a file is stored: relative to the root for the project, else as it is. -/
def storedPath (root : String) (origin : Origin) (names : List Path.Component) : String :=
  match origin with
  | .project => Path.normalizeComponents names
  | .library => Path.normalize (pathBelow root names)

/-- A source file with its bytes. -/
def describe (stored path : String) (origin : Origin) (entry : DiskEntry) :
    Except Failure ScannedFile :=
  match entry.read with
  | .ok content => .ok { stored, path, content, origin }
  | .error fault => .error (.while ("hash " ++ path) (.file fault))

/-- The source files below a root, by their stored paths in ascending order. It fails if one of
them cannot be read. -/
def scan (disk : Disk) (noIgnore : Bool) (root : String) (origin : Origin) :
    Except Failure (List ScannedFile) := do
  let sources := (filesBelow disk noIgnore root).filter fun (names, _) =>
    Path.isSource (pathBelow root names)
  let found ← sources.mapM fun (names, entry) =>
    describe (storedPath root origin names) (pathBelow root names) origin entry
  return found.mergeSort fun a b => decide (a.stored ≤ b.stored)

/-- The source file at an absolute path, if it belongs to the project or to a library. -/
def scanPath (disk : Disk) (root : String) (libraries : List String) (path : String) :
    Except Failure (Option ScannedFile) :=
  match disk.find path, Path.locate root libraries path with
  | .ok (_, entry), some (stored, origin) =>
    if entry.isFile && Path.isSource path then some <$> describe stored path origin entry
    else .ok none
  | _, _ => .ok none

end Scan

end JavaAtlas
