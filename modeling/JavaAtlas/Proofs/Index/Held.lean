import JavaAtlas.Proofs.Index.Markers
import JavaAtlas.Proofs.Index.Reindex
import JavaAtlas.Proofs.Index.Representation

namespace JavaAtlas

/-! # What an index holds of each path

The rows of one path, its diagnostics among them, and what single changes make of them.

* `Index.Holds`: an index seen as a map from paths to what it has of them;
* `Index.Holds.deleteFile`, `Index.Holds.indexFile`: what a change does to the map;
* `Index.Holds.sameAt`: indexes that hold the same of a path have the same rows of it.
-/

namespace Index

/-- What an index has of one path: what is kept of the file, and its diagnostics. -/
structure Held where
  entry : Option FileEntry
  markers : List Marker

/-- Nothing is there. -/
def Held.nothing : Held := { entry := none, markers := [] }

/-- The diagnostics of the file at a path. -/
def markersAt (ix : Index) (path : String) : List Marker :=
  ((ix.file? path).map fun f => ix.markersOf f.id).getD []

/-- The index holds exactly this of each path. -/
structure Holds (ix : Index) (held : String → Held) : Prop where
  keeps : ix.Keeps fun path => (held path).entry
  markers : ∀ path, ix.markersAt path = (held path).markers

/-- The index without the files at other paths. -/
def only (ix : Index) (path : String) : Index :=
  ix.deleteFiles ((ix.files.map (·.path)).filter (· != path))

/-- The rows of one path are the same up to identities, and so are its diagnostics. -/
structure SameAt (path : String) (a b : Index) : Prop where
  rows : SameRows (a.only path) (b.only path)
  markers : a.markersAt path = b.markersAt path

variable {ix ix' a b c : Index} {known : String → Option FileEntry} {held held' : String → Held}
  {path : String}

/-! ## Indexes that hold something -/

/-- An index of which it is known what it keeps is sound. -/
theorem Keeps.sound (h : ix.Keeps known) : ix.Sound := by
  obtain ⟨entries, n, hstored, -⟩ := h
  exact hstored.sound

/-- The diagnostics at a path are those of its file. -/
theorem markersAt_of_file? {f : FileRow} (hf : ix.file? path = some f) :
    ix.markersAt path = ix.markersOf f.id := by
  rw [markersAt, hf]
  rfl

/-- Without a file there are no diagnostics. -/
theorem markersAt_of_file?_none (hf : ix.file? path = none) : ix.markersAt path = [] := by
  rw [markersAt, hf]
  rfl

/-- An index with its identities in order holds something. -/
theorem Sound.exists_holds (h : ix.Sound) : ∃ held, ix.Holds held := by
  obtain ⟨known, hkeeps⟩ := h.exists_keeps
  exact ⟨fun path => ⟨known path, ix.markersAt path⟩, hkeeps, fun _ => rfl⟩

/-- A file is indexed if an entry is kept of it. -/
theorem Holds.isSome_file? (h : ix.Holds held) (path : String) :
    (ix.file? path).isSome = (held path).entry.isSome := by
  obtain ⟨id, hid⟩ := h.keeps.file?_eq path
  rw [hid, Option.isSome_map]

/-- The time of indexing is no part of what is held. -/
theorem Holds.noteIndexed (h : ix.Holds held) : ix.noteIndexed.Holds held where
  keeps := h.keeps.noteIndexed
  markers := h.markers

/-- The diagnostics of a file go, and those of the others stay, when the rows of the others stay
and the diagnostics with an identity of none of them are dropped. -/
theorem markersAt_of_others (h : ix.Sound) (h' : ix'.Sound) {id : Nat}
    (hothers : ∀ f : FileRow, f.path ≠ path → (f ∈ ix'.files ↔ f ∈ ix.files))
    (hid : ∀ f ∈ ix.files, f.path ≠ path → f.id ≠ id)
    (hown : ∀ f ∈ ix'.files, f.path = path → f.id = id)
    (hmarkers : ix'.markers = ix.markers.filter (·.fileId != id)) (other : String) :
    ix'.markersAt other = if other = path then [] else ix.markersAt other := by
  -- At every other path the same file is found.
  have hfile : other ≠ path → ix'.file? other = ix.file? other := by
    intro hother
    apply Option.ext
    intro f
    rw [h'.file?_eq_some_iff, h.file?_eq_some_iff]
    constructor
    · rintro ⟨hf, rfl⟩
      exact ⟨(hothers f hother).mp hf, rfl⟩
    · rintro ⟨hf, rfl⟩
      exact ⟨(hothers f hother).mpr hf, rfl⟩
  cases hrow : ix'.file? other with
  | none =>
    rw [markersAt_of_file?_none hrow]
    split
    next => rfl
    next hother => rw [markersAt_of_file?_none ((hfile hother).symm.trans hrow)]
  | some f =>
    obtain ⟨hf, hpath⟩ := h'.file?_eq_some_iff.mp hrow
    rw [markersAt_of_file? hrow, markersOf_dropped hmarkers]
    -- At the path itself stands the identity whose diagnostics are gone, elsewhere another one.
    by_cases hother : other = path
    · rw [if_pos (hown f hf (hpath.trans hother)), if_pos hother]
    · have hne : f.path ≠ path := fun heq => hother (hpath.symm.trans heq)
      rw [if_neg (hid f ((hothers f hne).mp hf) hne), if_neg hother,
        markersAt_of_file? ((hfile hother).symm.trans hrow)]

/-! ## Changes -/

/-- What is held after a change of one path. -/
theorem Holds.of_update (h : ix.Holds held) {entry : Option FileEntry}
    (hkeeps : ix'.Keeps (Function.update (fun p => (held p).entry) path entry))
    (hmarkers : ∀ other, ix'.markersAt other = if other = path then [] else ix.markersAt other) :
    ix'.Holds (Function.update held path { entry, markers := [] }) := by
  constructor
  · convert hkeeps using 1
    funext other
    by_cases hother : other = path
    · simp [hother]
    · simp [hother]
  · intro other
    rw [hmarkers]
    by_cases hother : other = path
    · simp [hother]
    · simp [hother, h.markers]

/-- Nothing is held of a file that was dropped. -/
theorem Holds.deleteFile (h : ix.Holds held) (path : String) :
    (ix.deleteFile path).1.Holds (Function.update held path .nothing) := by
  have hkeeps := (h.keeps.deleteFile path).1
  refine h.of_update hkeeps ?_
  have hsound := h.keeps.sound
  have hsound' := hkeeps.sound
  cases hrow : ix.file? path with
  | none =>
    have hsame : (ix.deleteFile path).1 = ix := by rw [Index.deleteFile, hrow]
    rw [hsame]
    intro other
    split
    next hother => rw [hother, markersAt_of_file?_none hrow]
    next => rfl
  | some row =>
    have hdropped : (ix.deleteFile path).1 =
        { ix.withoutSymbols row.id with files := ix.files.filter (·.path != path) } := by
      rw [Index.deleteFile, hrow]
    obtain ⟨hrowmem, hrowpath⟩ := hsound.file?_eq_some_iff.mp hrow
    rw [hdropped] at hsound' ⊢
    -- No file is left at the path, and no other has the identity that went.
    refine markersAt_of_others hsound hsound' ?_ ?_ ?_ rfl
    · intro f hf
      simp [hf]
    · intro f hf hne hid
      have hsame : f = row := hsound.eq_of_id_eq hf hrowmem hid
      exact hne (hsame ▸ hrowpath)
    · intro f hf hpath
      simp [hpath] at hf

/-- What indexing a text makes of the diagnostics. -/
theorem markersAt_of_replaceFile (h : ix.Sound) (h' : ix'.Sound) {file : FileInput}
    {symbols : FileSymbols} {counts : FileCounts}
    (hok : ix.replaceFile file symbols = .ok (ix', counts)) (other : String) :
    ix'.markersAt other = if other = file.path then [] else ix.markersAt other := by
  have hmem : ∀ f, f ∈ ix'.files ↔ f = FileRow.ofInput (ix.fileIdFor file.path) file symbols ∨
      f ∈ ix.files ∧ f.path ≠ file.path := fun f => mem_files_of_replaceFile h.paths hok
  refine markersAt_of_others h h' ?_ ?_ ?_ (tables_of_replaceFile hok).2 other
  · intro f hne
    rw [hmem]
    constructor
    · rintro (rfl | ⟨hf, -⟩)
      · exact absurd rfl hne
      · exact hf
    · intro hf
      exact .inr ⟨hf, hne⟩
  · intro f hf hne
    exact fileIdFor_ne h.paths h.fileIds hf hne
  · intro f hf hpath
    rcases (hmem f).mp hf with rfl | ⟨-, hne⟩
    · rfl
    · exact absurd hpath hne

/-- A file that can be indexed is held as its text says, without diagnostics. -/
theorem Holds.indexFile (h : ix.Holds held) {f : ScannedFile} (hsize : f.size ≤ maxFileSize)
    {text : String} (htext : f.content = text.toUTF8) :
    ∃ ix' counts, ix.indexFile f = .ok (ix', counts) ∧ ix'.Holds
      (Function.update held f.stored ⟨some (.ofText f.stored f.origin text), []⟩) := by
  obtain ⟨ix', counts, hindex, hkeeps⟩ := h.keeps.indexFile hsize htext
  refine ⟨ix', counts, hindex, h.of_update hkeeps ?_⟩
  rw [indexFile_of_text hsize htext] at hindex
  intro other
  exact markersAt_of_replaceFile h.keeps.sound hkeeps.sound hindex other

/-! ## One path -/

/-- Nothing but what was kept of a path is kept of it alone. -/
theorem Keeps.only (h : ix.Keeps known) (path : String) :
    (ix.only path).Keeps fun other => if other = path then known path else none := by
  have hdeleted := h.deleteFiles ((ix.files.map (·.path)).filter (· != path))
  unfold Index.only
  convert hdeleted using 1
  funext other
  have hgone : other ∈ (ix.files.map (·.path)).filter (· != path) ↔
      (known other).isSome = true ∧ other ≠ path := by
    rw [List.mem_filter, h.mem_paths_iff, bne_iff_ne]
  simp only [hgone]
  by_cases hother : other = path
  · simp [hother]
  · cases hknown : known other with
    | none => simp [hother]
    | some e => simp [hother]

/-- Indexes that hold the same of a path have the same rows of it. -/
theorem Holds.sameAt (ha : a.Holds held) (hb : b.Holds held') (h : held path = held' path) :
    SameAt path a b := by
  constructor
  · have hrows := hb.keeps.only path
    rw [← h] at hrows
    exact (ha.keeps.only path).sameRows hrows
  · rw [ha.markers, hb.markers, h]

/-- Two indexes agree at a path either way. -/
theorem SameAt.symm (h : SameAt path a b) : SameAt path b a :=
  ⟨h.rows.symm, h.markers.symm⟩

/-- What agrees with an index at a path does so with every other that holds the same there. -/
theorem SameAt.of_holds (h : SameAt path a c) (ha : a.Holds held) (hb : b.Holds held')
    (hsame : held path = held' path) : SameAt path b c := by
  constructor
  · -- what is kept decides the rows, so rows are compared by what is kept
    have hc := h.rows.symm.keeps (ha.keeps.only path)
    have hrows := hb.keeps.only path
    rw [← hsame] at hrows
    exact hrows.sameRows hc
  · rw [← h.markers, ha.markers, hb.markers, hsame]

/-- Of indexes that hold the same of a path, one has the same rows of it as a third one if the other
has. -/
theorem Holds.sameAt_iff (ha : a.Holds held) (hb : b.Holds held') (h : held path = held' path) :
    SameAt path a c ↔ SameAt path b c := by
  constructor
  · intro hac
    exact hac.of_holds ha hb h
  · intro hbc
    exact hbc.of_holds hb ha h.symm

end Index

end JavaAtlas
