import JavaAtlas.Indexer

namespace JavaAtlas

open JavaAtlas.Path Scan

/-! # What is found at a changed path

A changed path is dealt with as what is found there asks for.

* `Index.sight`: what is found at a path;
* `Index.syncPath_eq`: what is done for each sighting;
* `Index.syncPath_cases`: all that one changed path can make of an index.
-/

namespace Index

/-- What is found at a changed path. -/
inductive Sighting where
  /-- Nothing that is to be indexed. -/
  | other
  | gone (stored : String)
  | file (stored : String) (origin : Origin) (content : ByteArray)
  /-- A source file that must not be read. -/
  | locked (fault : FileFault)

/-- What is found at a path. -/
def sight (tree : SourceTree) (disk : Disk) (path : String) : Sighting :=
  match locate tree.root tree.libraries path with
  | none => .other
  | some (stored, origin) =>
    match disk.find path with
    | .error _ => .gone stored
    | .ok (_, entry) =>
      if entry.isFile && isSource path then
        match entry.read with
        | .ok content => .file stored origin content
        | .error fault => .locked fault
      else .other

namespace Sighting

/-- Whether it ends the run. -/
def isLocked : Sighting → Bool
  | .locked _ => true
  | .other | .gone _ | .file _ _ _ => false

/-- The stored path that is dealt with. -/
def stored? : Sighting → Option String
  | .gone stored | .file stored _ _ => some stored
  | .other | .locked _ => none

end Sighting

variable {tree : SourceTree} {disk : Disk} {ix ix' : Index} {path stored : String}
  {origin : Origin} {content : ByteArray} {stats stats' : SyncStats}

/-- A source file that can be read. -/
theorem sight_of_find (hlocate : locate tree.root tree.libraries path = some (stored, origin))
    {names : List String} (hfind : disk.find path = .ok (names, .file content))
    (hsource : isSource path = true) : sight tree disk path = .file stored origin content := by
  unfold sight
  rw [hlocate, hfind]
  dsimp only
  rw [hsource]
  rfl

/-- A path that leads to nothing. -/
theorem sight_of_not_has (hlocate : locate tree.root tree.libraries path = some (stored, origin))
    (hhas : disk.has path = false) : sight tree disk path = .gone stored := by
  unfold sight
  rw [hlocate]
  cases hfind : disk.find path with
  | error fault => rfl
  | ok found =>
    rw [Disk.has, hfind] at hhas
    cases hhas

/-- A file that is seen is located. -/
theorem locate_of_file (h : sight tree disk path = .file stored origin content) :
    locate tree.root tree.libraries path = some (stored, origin) := by
  unfold sight at h
  split at h
  · cases h
  next place origin' hplace =>
    split at h
    · cases h
    · split at h
      · split at h
        · cases h
          exact hplace
        · cases h
      · cases h

/-- A path at which nothing is left is located. -/
theorem exists_locate_of_gone (h : sight tree disk path = .gone stored) :
    ∃ origin, locate tree.root tree.libraries path = some (stored, origin) := by
  unfold sight at h
  split at h
  · cases h
  next place origin hplace =>
    split at h
    · cases h
      exact ⟨origin, hplace⟩
    · split at h
      · split at h <;> cases h
      · cases h

/-- What is dealt with is stored under the path that leads to it. -/
theorem locate_of_stored? (h : (sight tree disk path).stored? = some stored) :
    ∃ origin, locate tree.root tree.libraries path = some (stored, origin) := by
  cases hsight : sight tree disk path with
  | other | locked _ =>
    rw [hsight] at h
    cases h
  | gone place =>
    rw [hsight] at h
    cases h
    exact exists_locate_of_gone hsight
  | file place origin content =>
    rw [hsight] at h
    cases h
    exact ⟨origin, locate_of_file hsight⟩

/-- A path is dealt with as what is found there asks for. -/
theorem syncPath_eq : syncPath tree disk (ix, stats) path =
    match sight tree disk path with
    | .other => .ok (ix, stats)
    | .gone stored =>
      .ok ((ix.deleteFile stored).1, if (ix.deleteFile stored).2
        then { stats with deleted := stats.deleted + 1 } else stats)
    | .file stored origin content =>
      if ix.hasContent { stored, path, content, origin } then
        .ok (ix, { stats with skipped := stats.skipped + 1 })
      else
        match ix.indexFile { stored, path, content, origin } with
        | .ok (ix, counts) =>
          .ok (ix, { stats with
            indexed := stats.indexed + 1
            declarations := stats.declarations + counts.declarations
            references := stats.references + counts.references })
        | .error _ => .ok (ix, { stats with errors := stats.errors + 1 })
    | .locked fault => .error (.while ("hash " ++ path) (.file fault)) := by
  unfold syncPath scanPath Disk.has sight
  cases hlocate : locate tree.root tree.libraries path with
  | none => rfl
  | some place =>
    cases hfind : disk.find path with
    | error fault => rfl
    | ok found =>
      obtain ⟨names, entry⟩ := found
      -- Folders and files of other kinds are passed over.
      cases hsource : entry.isFile && isSource path with
      | false =>
        simp only [hsource]
        rfl
      | true =>
        simp only [hsource, Scan.describe]
        cases entry.read with
        | error fault => rfl
        | ok content => rfl

/-- A path that was dealt with has changed nothing, or its file was dropped or indexed. -/
theorem syncPath_cases (h : syncPath tree disk (ix, stats) path = .ok (ix', stats')) :
    ix' = ix ∨ (∃ stored, ix' = (ix.deleteFile stored).1) ∨
      ∃ file counts, ix.indexFile file = .ok (ix', counts) ∧
        locate tree.root tree.libraries path = some (file.stored, file.origin) := by
  rw [syncPath_eq] at h
  cases hsight : sight tree disk path with
  | other =>
    rw [hsight] at h
    cases h
    exact .inl rfl
  | gone stored =>
    rw [hsight] at h
    cases h
    exact .inr (.inl ⟨stored, rfl⟩)
  | file stored origin content =>
    rw [hsight] at h
    dsimp only at h
    split at h
    · -- its content is kept
      cases h
      exact .inl rfl
    · split at h
      next counts hindex =>
        -- The file is stored where it was located.
        cases h
        exact .inr (.inr ⟨_, counts, hindex, locate_of_file hsight⟩)
      next =>
        cases h
        exact .inl rfl
  | locked fault =>
    rw [hsight] at h
    cases h

end Index

end JavaAtlas
