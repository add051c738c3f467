import JavaAtlas.Index.Basic
import JavaAtlas.Java.Source
import JavaAtlas.Scan

namespace JavaAtlas

/-! # Keeping the index up to date

All files of a project and its libraries are compared with the index, or some changed ones are.
A file is indexed again if its content is not what was indexed; one that is gone is dropped.
-/

/-- What is indexed: a project with the sources of its libraries. -/
structure SourceTree where
  root : String
  libraries : List String := []
  /-- Rules for files that are left out do not count. -/
  noIgnore : Bool := false
deriving DecidableEq, Inhabited, Repr

/-- A source tree given by paths that may lead to it in roundabout ways. -/
def SourceTree.ofPaths (disk : Disk) (root : String) (libraries : List String) (noIgnore : Bool) :
    SourceTree :=
  let direct (path : String) : String :=
    match disk.canonical path with
    | .ok direct => direct
    | .error _ => path
  { root := direct root
    libraries := libraries.map direct
    noIgnore }

/-- The size, in bytes, above which files are not indexed. -/
def maxFileSize : Nat := 10 * 1024 * 1024

namespace Index

/-- Indexes a file that was found. One that is too large changes nothing and counts as empty. -/
def indexFile (ix : Index) (file : ScannedFile) : Except Failure (Index × FileCounts) :=
  if file.size > maxFileSize then .ok (ix, {})
  else
    match String.fromUTF8? file.content with
    | none => .error (.while ("read " ++ file.path) (.file .notUtf8))
    | some text =>
      ix.replaceFile
        { path := file.stored
          origin := file.origin
          digest := .ofContent file.content
          size := file.size
          content := text }
        (Java.extractText text)

/-- The digest that a file had when it was indexed. -/
def digest? (ix : Index) (path : String) : Option Digest := (ix.file? path).map (·.digest)

/-- Whether the index has a file with the content that was found. -/
def hasContent (ix : Index) (file : ScannedFile) : Bool :=
  ix.digest? file.stored == some (.ofContent file.content)

/-! ## All files -/

/-- Takes one file into the index, given the index before the run. -/
def reindexFile (before : Index) (state : Index × IndexStats) (file : ScannedFile) :
    Index × IndexStats :=
  let (ix, stats) := state
  if before.hasContent file then (ix, { stats with skipped := stats.skipped + 1 })
  else
    match ix.indexFile file with
    | .ok (ix, counts) =>
      (ix, { stats with
        indexed := stats.indexed + 1
        declarations := stats.declarations + counts.declarations
        members := stats.members + counts.members
        references := stats.references + counts.references })
    | .error _ => (ix, { stats with errors := stats.errors + 1 })

/-- Drops the files with these paths. -/
def deleteFiles (ix : Index) (paths : List String) : Index :=
  paths.foldl (fun ix path => (ix.deleteFile path).1) ix

/-- All source files of a tree: those of the project, then those of each library. A library that
cannot be read contributes nothing. -/
def sourceFiles (tree : SourceTree) (disk : Disk) : Except Failure (List ScannedFile) := do
  let own ← Scan.scan disk tree.noIgnore tree.root .project
  let others := tree.libraries.map fun root =>
    match Scan.scan disk tree.noIgnore root .library with
    | .ok files => files
    | .error _ => []
  return own ++ others.flatten

/-- Brings the index up to date with all source files that were found. -/
def reindexFrom (ix : Index) (scanned : List ScannedFile) : Index × IndexStats :=
  let start : IndexStats := { scanned := scanned.length }
  let (indexed, stats) := scanned.foldl (reindexFile ix) (ix, start)
  let gone := (ix.files.map (·.path)).filter fun p => !scanned.any (·.stored == p)
  ((indexed.deleteFiles gone).noteIndexed, { stats with deleted := gone.length })

/-- Brings the index up to date with a source tree. -/
def reindex (ix : Index) (tree : SourceTree) (disk : Disk) : Except Failure (Index × IndexStats) := do
  return ix.reindexFrom (← sourceFiles tree disk)

/-! ## Some files -/

/-- Takes one changed path into the index. -/
def syncPath (tree : SourceTree) (disk : Disk) (state : Index × SyncStats) (path : String) :
    Except Failure (Index × SyncStats) := do
  let (ix, stats) := state
  match Path.locate tree.root tree.libraries path with
  | none => return (ix, stats)
  | some (stored, _) =>
    if !disk.has path then
      let (ix, wasThere) := ix.deleteFile stored
      return (ix, if wasThere then { stats with deleted := stats.deleted + 1 } else stats)
    else
      match ← Scan.scanPath disk tree.root tree.libraries path with
      | none => return (ix, stats)
      | some file =>
        if ix.hasContent file then return (ix, { stats with skipped := stats.skipped + 1 })
        else
          match ix.indexFile file with
          | .ok (ix, counts) =>
            return (ix, { stats with
              indexed := stats.indexed + 1
              declarations := stats.declarations + counts.declarations
              references := stats.references + counts.references })
          | .error _ => return (ix, { stats with errors := stats.errors + 1 })

/-- Takes changed paths into the index, one after the other. If one of them cannot be read the
rest is not looked at; what was done before stays. -/
def syncFrom (tree : SourceTree) (disk : Disk) :
    List String → Index × SyncStats → Index × Except Failure SyncStats
  | [], (ix, stats) =>
    if stats.indexed + stats.deleted > 0 then (ix.noteIndexed, .ok stats) else (ix, .ok stats)
  | path :: rest, (ix, stats) =>
    match syncPath tree disk (ix, stats) path with
    | .ok state => syncFrom tree disk rest state
    | .error e => (ix, .error e)

/-- Brings the index up to date with changed paths. -/
def sync (ix : Index) (tree : SourceTree) (disk : Disk) (paths : List String) :
    Index × Except Failure SyncStats :=
  syncFrom tree disk paths (ix, {})

/-! ## One file -/

/-- Indexes a text in place of what is on disk. -/
def indexText (ix : Index) (path text : String) : Except Failure (Index × FileCounts) :=
  ix.replaceFile
    { path
      origin := ((ix.file? path).map (·.origin)).getD .project
      digest := .ofContent text.toUTF8
      size := text.utf8ByteSize
      content := text }
    (Java.extractText text)

/-- Finds the diagnostics of the text that is indexed for a path, and keeps them. -/
def analyzePath (ix : Index) (path : String) : Except Failure (Index × List Marker) :=
  match ix.file? path with
  | none => .error (.notIndexed path)
  | some file => do
    let markers := Java.analyzeText file.content
    return (← ix.replaceMarkers path markers, markers)

end Index

end JavaAtlas
