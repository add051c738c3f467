import JavaAtlas.Proofs.Index.Entries
import JavaAtlas.Index.View
import JavaAtlas.Indexer
import JavaAtlas.Proofs.Index.Sorted
import JavaAtlas.Proofs.Outcome
import Mathlib.Data.List.Nodup

namespace JavaAtlas

/-! # Diagnostics and the texts they are about

Text and diagnostics of a file are written one after the other, so a reader may come in between. An
index never shows the diagnostics of another text all the same.

* `Index.Described`: no diagnostics without a file, and those of a file are none or all that an
  analysis of its text finds, in that order;
* `Index.Write`: what one transaction of the worker does;
* `Index.Described.write`: each transaction keeps an index described, as does opening it;
* `IndexView.markers_of_described`: so it is what a reader sees.
-/

namespace Index

/-- The diagnostics of the file with an identity, in the order in which they were added. -/
def markersOf (ix : Index) (id : Nat) : List Marker :=
  (ix.markers.filter (·.fileId == id)).map (·.marker)

/-- The diagnostics of every file are about its text. -/
structure Described (ix : Index) : Prop where
  ids : (ix.files.map (·.id)).Nodup
  paths : (ix.files.map (·.path)).Nodup
  owned : ∀ m ∈ ix.markers, ∃ f ∈ ix.files, f.id = m.fileId
  text : ∀ f ∈ ix.files, ix.markersOf f.id = [] ∨ ix.markersOf f.id = Java.analyzeText f.content

/-- What one transaction changes. -/
inductive Write (ix : Index) : Index → Prop where
  /-- A text is indexed. -/
  | text {file : FileInput} {ix' : Index} {counts : FileCounts} :
      ix.replaceFile file (Java.extractText file.content) = .ok (ix', counts) → Write ix ix'
  | delete (path : String) : Write ix (ix.deleteFile path).1
  /-- The diagnostics of the text at a path are kept. -/
  | analyze {path : String} {ix' : Index} {markers : List Marker} :
      ix.analyzePath path = .ok (ix', markers) → Write ix ix'
  | note : Write ix ix.noteIndexed

section Lookup

variable {ix : Index}

/-- The file at a path is the one that has it. -/
theorem Described.file?_eq_some_iff (h : ix.Described) {path : String} {f : FileRow} :
    ix.file? path = some f ↔ f ∈ ix.files ∧ f.path = path :=
  find?_key_eq_some_iff h.paths

/-- Files with one identity are one. -/
theorem Described.eq_of_id_eq (h : ix.Described) {f g : FileRow} (hf : f ∈ ix.files)
    (hg : g ∈ ix.files) (hid : f.id = g.id) : f = g :=
  List.inj_on_of_nodup_map h.ids hf hg hid

/-- Files at one path are one file. -/
theorem Described.eq_of_path_eq (h : ix.Described) {f g : FileRow} (hf : f ∈ ix.files)
    (hg : g ∈ ix.files) (hpath : f.path = g.path) : f = g :=
  List.inj_on_of_nodup_map h.paths hf hg hpath

/-- The identity given to a file is that of no file at another path. -/
theorem Described.fileIdFor_ne (h : ix.Described) {path : String} {f : FileRow}
    (hf : f ∈ ix.files) (hne : f.path ≠ path) : f.id ≠ ix.fileIdFor path :=
  Index.fileIdFor_ne h.paths h.ids hf hne

/-- The diagnostics of one file are replaced, and those of the others stay. -/
theorem markersOf_replaced {ix' : Index} {fileId : Nat} {added : List MarkerRow}
    (hadded : ∀ m ∈ added, m.fileId = fileId)
    (hmarkers : ix'.markers = ix.markers.filter (·.fileId != fileId) ++ added) (id : Nat) :
    ix'.markersOf id = if id = fileId then added.map (·.marker) else ix.markersOf id := by
  unfold markersOf
  rw [hmarkers, filter_replaced MarkerRow.fileId ix.markers hadded]
  split <;> rfl

/-- The diagnostics of one file are dropped, and those of the others stay. -/
theorem markersOf_dropped {ix' : Index} {fileId : Nat}
    (hmarkers : ix'.markers = ix.markers.filter (·.fileId != fileId)) (id : Nat) :
    ix'.markersOf id = if id = fileId then [] else ix.markersOf id :=
  markersOf_replaced (by simp) (hmarkers.trans (List.append_nil _).symm) id

/-- What indexing a text makes of files and diagnostics. -/
theorem tables_of_replaceFile {file : FileInput} {symbols : FileSymbols} {ix' : Index}
    {counts : FileCounts} (hok : ix.replaceFile file symbols = .ok (ix', counts)) :
    ix'.files = putFile (FileRow.ofInput (ix.fileIdFor file.path) file symbols) ix.files ∧
      ix'.markers = ix.markers.filter (·.fileId != ix.fileIdFor file.path) := by
  unfold replaceFile at hok
  split at hok
  · cases hok
  · cases hok
    exact ⟨rfl, rfl⟩

/-- The row of an indexed text is the one that is found at its path. -/
theorem file?_of_replaceFile {file : FileInput} {symbols : FileSymbols} {ix' : Index}
    {counts : FileCounts} (hok : ix.replaceFile file symbols = .ok (ix', counts)) :
    ix'.file? file.path = some (FileRow.ofInput (ix.fileIdFor file.path) file symbols) := by
  rw [file?, (tables_of_replaceFile hok).1]
  exact find?_putFile (FileRow.ofInput (ix.fileIdFor file.path) file symbols) ix.files

/-- An edited text that was indexed is the one that the index has for its path. -/
theorem content_of_indexText {path text : String} {result : Index × FileCounts}
    (hok : ix.indexText path text = .ok result) :
    (result.1.file? path).map (·.content) = some text :=
  congrArg (Option.map (·.content)) (file?_of_replaceFile hok)

/-- The row of an indexed text takes the place of the one at its path. -/
theorem mem_files_of_replaceFile (hpaths : (ix.files.map (·.path)).Nodup) {file : FileInput}
    {symbols : FileSymbols} {ix' : Index} {counts : FileCounts}
    (hok : ix.replaceFile file symbols = .ok (ix', counts)) {f : FileRow} :
    f ∈ ix'.files ↔ f = FileRow.ofInput (ix.fileIdFor file.path) file symbols ∨
      f ∈ ix.files ∧ f.path ≠ file.path := by
  rw [(tables_of_replaceFile hok).1]
  exact mem_putFile hpaths _

/-- What an analysis makes of the diagnostics, and that it is of the text that is stored. -/
theorem tables_of_analyzePath {path : String} {ix' : Index} {markers : List Marker}
    (hok : ix.analyzePath path = .ok (ix', markers)) :
    ∃ row added, ix.file? path = some row ∧ ix'.files = ix.files ∧
      ix'.markers = ix.markers.filter (·.fileId != row.id) ++ added ∧
      (∀ m ∈ added, m.fileId = row.id) ∧ added.map (·.marker) = Java.analyzeText row.content := by
  unfold analyzePath at hok
  split at hok
  · cases hok
  next row hrow =>
    obtain ⟨ix'', hreplaced, hsame⟩ := bind_eq_ok_iff.mp hok
    cases hsame
    rw [replaceMarkers, hrow] at hreplaced
    cases hreplaced
    refine ⟨row, _, hrow, rfl, rfl, ?_, ?_⟩
    · intro m hm
      obtain ⟨p, -, rfl⟩ := List.mem_map.mp hm
      rfl
    · exact (map_numbered (f := MarkerRow.marker) (g := id) (fun _ _ => rfl) _).trans
        (List.map_id _)

end Lookup

namespace Described

variable {ix ix' : Index}

/-- In an empty index there is nothing to describe. -/
theorem empty : Described {} := by
  constructor <;> simp

/-- Only files and diagnostics matter, and of a file its identity, its path and its text. -/
theorem congr (h : ix.Described) (change : FileRow → FileRow)
    (hid : ∀ f, (change f).id = f.id) (hpath : ∀ f, (change f).path = f.path)
    (hcontent : ∀ f, (change f).content = f.content)
    (hfiles : ix'.files = ix.files.map change) (hmarkers : ix'.markers = ix.markers) :
    ix'.Described := by
  have hmarkersOf : ∀ id, ix'.markersOf id = ix.markersOf id := by
    intro id
    rw [markersOf, hmarkers, markersOf]
  constructor
  case ids =>
    rw [hfiles, List.map_map]
    rw [show (fun f : FileRow => f.id) ∘ change = (·.id) from funext hid]
    exact h.ids
  case paths =>
    rw [hfiles, List.map_map]
    rw [show (fun f : FileRow => f.path) ∘ change = (·.path) from funext hpath]
    exact h.paths
  case owned =>
    intro m hm
    obtain ⟨f, hf, hfid⟩ := h.owned m (hmarkers ▸ hm)
    exact ⟨change f, hfiles ▸ List.mem_map_of_mem hf, (hid f).trans hfid⟩
  case text =>
    -- Neither the text nor the diagnostics of a file have changed.
    intro f hf
    rw [hfiles] at hf
    obtain ⟨g, hg, rfl⟩ := List.mem_map.mp hf
    rw [hid, hcontent, hmarkersOf]
    exact h.text g hg

/-- A text is indexed, and the diagnostics of the text before it are dropped. -/
theorem replaceFile (h : ix.Described) {file : FileInput} {symbols : FileSymbols}
    {counts : FileCounts} (hok : ix.replaceFile file symbols = .ok (ix', counts)) :
    ix'.Described := by
  obtain ⟨hfiles, hmarkers⟩ := tables_of_replaceFile hok
  have hother : ∀ f ∈ ix.files, f.path ≠ file.path → f.id ≠ ix.fileIdFor file.path :=
    fun f hf hne => h.fileIdFor_ne hf hne
  have hmem : ∀ f, f ∈ ix'.files ↔ f = FileRow.ofInput (ix.fileIdFor file.path) file symbols ∨
      f ∈ ix.files ∧ f.path ≠ file.path := fun f => mem_files_of_replaceFile h.paths hok
  generalize hid : ix.fileIdFor file.path = id at hfiles hmarkers hother hmem
  constructor
  case ids => exact hfiles ▸ nodup_ids_putFile h.paths h.ids hother
  case paths => exact hfiles ▸ nodup_paths_putFile h.paths _
  case owned =>
    intro m hm
    obtain ⟨hm, hne⟩ := List.mem_filter.mp (hmarkers ▸ hm)
    obtain ⟨f, hf, hfid⟩ := h.owned m hm
    refine ⟨f, (hmem f).mpr (.inr ⟨hf, ?_⟩), hfid⟩
    -- the file that was at this path had the identity whose diagnostics are dropped
    intro hpath
    have hfile : ix.file? file.path = some f := h.file?_eq_some_iff.mpr ⟨hf, hpath⟩
    rw [fileIdFor, hfile] at hid
    exact bne_iff_ne.mp hne (hfid.symm.trans hid)
  case text =>
    intro f hf
    rw [markersOf_dropped hmarkers]
    rcases (hmem f).mp hf with rfl | ⟨hf, hne⟩
    · exact .inl (if_pos rfl)
    · rw [if_neg (hother f hf hne)]
      exact h.text f hf

/-- After a file is dropped the diagnostics left are of the files left. -/
theorem deleteFile (h : ix.Described) (path : String) : (ix.deleteFile path).1.Described := by
  unfold Index.deleteFile
  split
  · exact h
  next row hrow =>
    obtain ⟨hrowmem, hrowpath⟩ := h.file?_eq_some_iff.mp hrow
    have hmem : ∀ f, f ∈ ix.files.filter (·.path != path) ↔ f ∈ ix.files ∧ f.path ≠ path := by
      intro f
      simp
    constructor
    case ids => exact h.ids.sublist (List.filter_sublist.map _)
    case paths => exact h.paths.sublist (List.filter_sublist.map _)
    case owned =>
      intro m hm
      obtain ⟨hm, hne⟩ := List.mem_filter.mp hm
      obtain ⟨f, hf, hfid⟩ := h.owned m hm
      refine ⟨f, (hmem f).mpr ⟨hf, ?_⟩, hfid⟩
      intro hpath
      have hsame : f = row := h.eq_of_path_eq hf hrowmem (hpath.trans hrowpath.symm)
      rw [← hsame, hfid] at hne
      simp at hne
    case text =>
      -- A file that is left has another identity, so its diagnostics are left as well.
      intro f hf
      obtain ⟨hf, hne⟩ := (hmem f).mp hf
      have hid : f.id ≠ row.id := fun hid => hne (h.eq_of_id_eq hf hrowmem hid ▸ hrowpath)
      rw [markersOf_dropped rfl, if_neg hid]
      exact h.text f hf

/-- What an analysis finds is kept for the file whose text it is of. -/
theorem analyzePath (h : ix.Described) {path : String} {markers : List Marker}
    (hok : ix.analyzePath path = .ok (ix', markers)) : ix'.Described := by
  obtain ⟨row, added, hrow, hfiles, hmarkers, hadded, hfound⟩ := tables_of_analyzePath hok
  obtain ⟨hrowmem, -⟩ := h.file?_eq_some_iff.mp hrow
  constructor
  case ids => exact hfiles ▸ h.ids
  case paths => exact hfiles ▸ h.paths
  case owned =>
    intro m hm
    rw [hfiles]
    rcases List.mem_append.mp (hmarkers ▸ hm) with hm | hm
    · exact h.owned m (List.mem_of_mem_filter hm)
    · exact ⟨row, hrowmem, (hadded m hm).symm⟩
  case text =>
    -- The file has what was found in its text, and every other file what it had.
    intro f hf
    rw [hfiles] at hf
    rw [markersOf_replaced hadded hmarkers]
    split
    next hid => exact .inr (h.eq_of_id_eq hf hrowmem hid ▸ hfound)
    next => exact h.text f hf

/-- Every way to write keeps diagnostics with their texts. -/
theorem write (h : ix.Described) (hwrite : Write ix ix') : ix'.Described := by
  cases hwrite with
  | text hok => exact h.replaceFile hok
  | delete path => exact h.deleteFile path
  | analyze hok => exact h.analyzePath hok
  | note =>
    exact h.congr id (fun _ => rfl) (fun _ => rfl) (fun _ => rfl) (List.map_id _).symm rfl

/-- Opening an index leaves files and diagnostics as they are, apart from digests. -/
theorem opened (h : ix.Described) (hok : ix.opened = .ok ix') : ix'.Described := by
  have hsame : ∀ {ix'' : Index}, ix''.files = ix.files → ix''.markers = ix.markers →
      ix''.Described := by
    intro ix'' hfiles hmarkers
    exact h.congr id (fun _ => rfl) (fun _ => rfl) (fun _ => rfl)
      (hfiles.trans (List.map_id _).symm) hmarkers
  unfold Index.opened at hok
  split at hok
  · cases hok
    exact hsame rfl rfl
  · -- An older index loses its digests, on which diagnostics do not depend.
    split at hok
    · cases hok
    · split at hok
      · cases hok
        exact h.congr (fun f => { f with digest := .cleared })
          (fun _ => rfl) (fun _ => rfl) (fun _ => rfl) rfl rfl
      · cases hok
        exact h

end Described

end Index

namespace IndexView

variable {v : IndexView}

/-- Diagnostics are in the order of their lines and offsets. -/
theorem keyOrder_markerOrder : KeyOrder markerOrder where
  trans := by
    intro a b c hab hbc
    simp only [markerOrder, Bool.or_eq_true, Bool.and_eq_true, decide_eq_true_eq, beq_iff_eq] at *
    omega
  total := by
    intro a b
    simp only [markerOrder, Bool.or_eq_true, Bool.and_eq_true, decide_eq_true_eq, beq_iff_eq]
    omega

/-- What an analysis finds is in the order in which it is read. -/
theorem mergeSort_analyzeText (text : String) :
    (Java.analyzeText text).mergeSort markerOrder = Java.analyzeText text := by
  have hsorted : (Java.analyzeText text).Pairwise fun a b => markerOrder a b = true :=
    List.pairwise_mergeSort keyOrder_markerOrder.trans keyOrder_markerOrder.total _
  exact List.mergeSort_of_pairwise hsorted

/-- A reader sees no diagnostics of a file, or those of the text that it sees. -/
theorem markers_of_described (h : v.index.Described) {path text : String}
    (htext : v.unitText path = .ok text) :
    v.markers path = [] ∨ v.markers path = Java.analyzeText text := by
  unfold unitText at htext
  split at htext
  next f hf =>
    cases htext
    have hmarkers : v.markers path = (v.index.markersOf f.id).mergeSort markerOrder := by
      rw [markers, hf]
      rfl
    rw [hmarkers]
    rcases h.text f (h.file?_eq_some_iff.mp hf).1 with hnone | hall
    · left
      rw [hnone, List.mergeSort_nil]
    · -- The analysis finds them in the order in which they are read.
      right
      rw [hall, mergeSort_analyzeText]
  next => cases htext

/-- Without a text there are no diagnostics. -/
theorem markers_of_unitText_error {path : String} {e : Failure}
    (htext : v.unitText path = .error e) : v.markers path = [] := by
  unfold unitText at htext
  split at htext
  · cases htext
  next hf => rw [markers, hf]

end IndexView

end JavaAtlas
