import JavaAtlas.Proofs.Index.Reindex
import JavaAtlas.Proofs.Index.Sighting
import JavaAtlas.Proofs.Scan

namespace JavaAtlas

open JavaAtlas.Path Scan

/-! # Histories of an index

An index changes by runs over all files, by changed paths, by texts that are indexed in place of
files, and by analyses. `Action` is one such change, on the disk as it then is, and `run` a history
of them.

* `Index.consistent_sourceFiles`, `Index.origin_of_mem_sourceFiles`: what the files of a tree have
  in common;
* `Index.KeepsOnly.apply`: what holds of all entries and of those of new texts holds of all entries
  after an action;
* `Index.KeepsOnly.run`: and after a history.
-/

/-- A source tree whose roots are absolute. -/
structure SourceTree.Anchored (tree : SourceTree) : Prop where
  root : isAbsolute tree.root = true
  libraries : ∀ library ∈ tree.libraries, isAbsolute library = true

namespace Index

/-! ## The files of a tree -/

section SourceFiles

variable {tree : SourceTree} {disk : Disk} {scanned : List ScannedFile}

/-- The files of a tree can be listed exactly if its root can be scanned; libraries that cannot be
are left out. -/
theorem exists_sourceFiles_eq_ok_iff : (∃ scanned, sourceFiles tree disk = .ok scanned) ↔
    ∃ own, scan disk tree.noIgnore tree.root .project = .ok own := by
  unfold sourceFiles
  constructor
  · rintro ⟨scanned, h⟩
    obtain ⟨own, hown, -⟩ := bind_eq_ok_iff.mp h
    exact ⟨own, hown⟩
  · rintro ⟨own, hown⟩
    exact ⟨_, bind_eq_ok_iff.mpr ⟨own, hown, rfl⟩⟩

/-- The files of a tree are those of its root and those of every library that can be scanned. -/
theorem mem_sourceFiles_iff (h : sourceFiles tree disk = .ok scanned) {f : ScannedFile} :
    f ∈ scanned ↔
      (∃ own, scan disk tree.noIgnore tree.root .project = .ok own ∧ f ∈ own) ∨
        ∃ library ∈ tree.libraries, ∃ files,
          scan disk tree.noIgnore library .library = .ok files ∧ f ∈ files := by
  unfold sourceFiles at h
  obtain ⟨own, hown, hrest⟩ := bind_eq_ok_iff.mp h
  cases hrest
  rw [List.mem_append, hown]
  apply or_congr
  · constructor
    · intro hf
      exact ⟨own, rfl, hf⟩
    · rintro ⟨own', hown', hf⟩
      cases hown'
      exact hf
  · rw [List.mem_flatten]
    constructor
    · rintro ⟨files, hfiles, hf⟩
      obtain ⟨library, hlibrary, rfl⟩ := List.mem_map.mp hfiles
      -- a library that cannot be scanned counts as empty
      cases hscan : scan disk tree.noIgnore library .library with
      | error e =>
        rw [hscan] at hf
        cases hf
      | ok files =>
        rw [hscan] at hf
        exact ⟨library, hlibrary, files, hscan, hf⟩
    · rintro ⟨library, hlibrary, files, hscan, hf⟩
      refine ⟨files, List.mem_map.mpr ⟨library, hlibrary, ?_⟩, hf⟩
      rw [hscan]

/-- Every file of a tree comes from a scan of one of its roots. -/
theorem exists_scan_of_mem_sourceFiles (htree : tree.Anchored)
    (h : sourceFiles tree disk = .ok scanned) {f : ScannedFile} (hf : f ∈ scanned) :
    ∃ root origin files, isAbsolute root = true ∧ (origin = .project → root = tree.root) ∧
      scan disk tree.noIgnore root origin = .ok files ∧ f ∈ files := by
  rcases (mem_sourceFiles_iff h).mp hf with ⟨own, hown, hf⟩ | ⟨library, hlibrary, files, hfiles, hf⟩
  · exact ⟨tree.root, .project, own, htree.root, fun _ => rfl, hown, hf⟩
  · exact ⟨library, .library, files, htree.libraries library hlibrary, nofun, hfiles, hf⟩

/-- The stored path of a file of a tree tells its origin. -/
theorem origin_of_mem_sourceFiles (hd : disk.WellFormed) (htree : tree.Anchored)
    (h : sourceFiles tree disk = .ok scanned) {f : ScannedFile} (hf : f ∈ scanned) :
    f.origin = originOf f.stored := by
  obtain ⟨root, origin, files, habs, -, hfiles, hf⟩ := exists_scan_of_mem_sourceFiles htree h hf
  obtain ⟨horigin, hstored⟩ := origin_of_mem_scan hd habs hfiles hf
  rw [horigin, hstored]

/-- Every file of a tree is on disk, with the content that was read. -/
theorem find_of_mem_sourceFiles (hd : disk.WellFormed) (htree : tree.Anchored)
    (h : sourceFiles tree disk = .ok scanned) {f : ScannedFile} (hf : f ∈ scanned) :
    ∃ names, disk.find f.path = .ok (names, .file f.content) := by
  obtain ⟨root, origin, files, habs, -, hfiles, hf⟩ := exists_scan_of_mem_sourceFiles htree h hf
  exact find_of_mem_scan hd habs hfiles hf

/-- A file that is found twice is found the same. -/
theorem consistent_sourceFiles (hd : disk.WellFormed) (htree : tree.Anchored)
    (h : sourceFiles tree disk = .ok scanned) : Consistent scanned := by
  intro f hf g hg hstored
  constructor
  · obtain ⟨root, origin, files, habs, hroot, hfiles, hf⟩ :=
      exists_scan_of_mem_sourceFiles htree h hf
    obtain ⟨root', origin', files', habs', hroot', hfiles', hg⟩ :=
      exists_scan_of_mem_sourceFiles htree h hg
    refine content_eq_of_stored_eq hd habs habs' ?_ hfiles hfiles' hf hg hstored
    -- two files of the project are found from one root
    intro ho ho'
    rw [hroot ho, hroot' ho']
  · rw [origin_of_mem_sourceFiles hd htree h hf, origin_of_mem_sourceFiles hd htree h hg, hstored]

/-- The stored path of a changed path tells the origin. -/
theorem originOf_of_locate (htree : tree.Anchored) {path stored : String} {origin : Origin}
    (hpath : isAbsolute path = true)
    (h : locate tree.root tree.libraries path = some (stored, origin)) :
    origin = originOf stored := by
  obtain ⟨cs, hcs, hinner⟩ := components_inner_of_isAbsolute hpath
  unfold locate at h
  split at h
  · -- files of libraries are stored under their whole path
    cases h
    have habsolute := isAbsolute_normalizeComponents_root hinner
    simp [originOf, Path.normalize, hcs, habsolute]
  · split at h
    next stored' hrelative =>
      -- files of the project are stored under what follows the root
      cases h
      unfold relative at hrelative
      split at hrelative
      next below hbelow =>
        cases hrelative
        obtain ⟨front, hfront, -⟩ := components_inner_of_isAbsolute htree.root
        rw [below?_eq_some_iff, hcs, hfront, List.cons_append, List.cons_inj_right] at hbelow
        have hbelowInner : ∀ c ∈ below, c.Inner := fun c hc =>
          hinner c (hbelow ▸ List.mem_append_right front hc)
        simp [originOf, isAbsolute_normalizeComponents hbelowInner]
      next => cases hrelative
    next => cases h

end SourceFiles

/-! ## Actions -/

/-- A change of an index, on the disk as it then is. -/
inductive Action where
  | reindex (tree : SourceTree) (disk : Disk)
  | sync (tree : SourceTree) (disk : Disk) (paths : List String)
  | indexText (path text : String)
  | analyze (path : String)

/-- The index after an action. One that fails leaves what it has done before it failed. -/
def Action.apply (a : Action) (ix : Index) : Index :=
  match a with
  | .reindex tree disk =>
    match ix.reindex tree disk with
    | .ok (after, _) => after
    | .error _ => ix
  | .sync tree disk paths => (ix.sync tree disk paths).1
  | .indexText path text =>
    match ix.indexText path text with
    | .ok (after, _) => after
    | .error _ => ix
  | .analyze path =>
    match ix.analyzePath path with
    | .ok (after, _) => after
    | .error _ => ix

/-- The index after actions, one after the other. -/
def run (ix : Index) (actions : List Action) : Index := actions.foldl (fun ix a => a.apply ix) ix

/-- Trees have absolute roots, disks are file systems, and changed paths are absolute. -/
def Action.Grounded : Action → Prop
  | .reindex tree disk => tree.Anchored ∧ disk.WellFormed
  | .sync tree _ paths => tree.Anchored ∧ ∀ path ∈ paths, isAbsolute path = true
  | .indexText _ _ | .analyze _ => True

/-- Texts are indexed under paths of the project. -/
def Action.InProject : Action → Prop
  | .indexText path _ => isAbsolute path = false
  | .reindex _ _ | .sync _ _ _ | .analyze _ => True

/-- All entries that the index keeps have a property. -/
def KeepsOnly (ix : Index) (P : FileEntry → Prop) : Prop :=
  ∃ known, ix.Keeps known ∧ ∀ path e, known path = some e → P e

section Actions

variable {ix ix' : Index} {P : FileEntry → Prop}

/-- A property of entries that those of all files found on disk have. -/
def OfScans (P : FileEntry → Prop) : Prop :=
  ∀ path text, P (.ofText path (originOf path) text)

/-- A property of entries that an entry has whose text is replaced under a path, with the origin
that is known for the path, or that of the project. -/
def OfTexts (P : FileEntry → Prop) (path : String) : Prop :=
  ∀ origin text, (origin = .project ∨ ∃ e, P e ∧ e.path = path ∧ e.file.origin = origin) →
    P (.ofText path origin text)

/-- What holds of all entries holds when one is put in that has it, or one is taken out. -/
theorem KeepsOnly.update {known : String → Option FileEntry} {path : String} {e : Option FileEntry}
    (h : ix.Keeps (Function.update known path e)) (hknown : ∀ path e, known path = some e → P e)
    (he : ∀ e', e = some e' → P e') : ix.KeepsOnly P := by
  refine ⟨_, h, ?_⟩
  intro other e' he'
  by_cases hother : other = path
  · subst hother
    rw [Function.update_self] at he'
    exact he e' he'
  · rw [Function.update_of_ne hother] at he'
    exact hknown other e' he'

/-- What holds of all entries holds when a file is dropped. -/
theorem KeepsOnly.deleteFile (h : ix.KeepsOnly P) (path : String) :
    (ix.deleteFile path).1.KeepsOnly P := by
  obtain ⟨known, hkeeps, hknown⟩ := h
  exact .update (hkeeps.deleteFile path).1 hknown nofun

/-- The note that files were indexed changes no entry. -/
theorem KeepsOnly.noteIndexed (h : ix.KeepsOnly P) : ix.noteIndexed.KeepsOnly P := by
  obtain ⟨known, hkeeps, hknown⟩ := h
  exact ⟨known, hkeeps.noteIndexed, hknown⟩

/-- What holds of all entries and of those of files on disk holds when a file is indexed. -/
theorem KeepsOnly.indexFile (h : ix.KeepsOnly P) (hP : OfScans P) {f : ScannedFile}
    (hf : f.origin = originOf f.stored) {counts : FileCounts}
    (hindex : ix.indexFile f = .ok (ix', counts)) : ix'.KeepsOnly P := by
  by_cases hindexable : f.Indexable
  · obtain ⟨known, hkeeps, hknown⟩ := h
    obtain ⟨hsize, text, htext⟩ := ScannedFile.indexable_iff.mp hindexable
    obtain ⟨after, counts', hafter, hkeeps'⟩ := hkeeps.indexFile hsize htext
    rw [hafter] at hindex
    cases hindex
    refine .update hkeeps' hknown ?_
    rintro e' ⟨⟩
    rw [hf]
    exact hP f.stored text
  · -- a file that is too large is passed over, one that is no text ends with an error
    rcases indexFile_of_not_indexable hindexable with hsame | ⟨e, herror⟩
    · rw [hsame] at hindex
      cases hindex
      exact h
    · rw [herror] at hindex
      cases hindex

/-- What holds of all entries and of those of files on disk holds when files are indexed one after
the other. -/
theorem KeepsOnly.foldl_reindexFile {before : Index} {scanned : List ScannedFile}
    (h : ix.KeepsOnly P) (hP : OfScans P) (hscanned : ∀ f ∈ scanned, f.origin = originOf f.stored)
    (stats : IndexStats) :
    (scanned.foldl (Index.reindexFile before) (ix, stats)).1.KeepsOnly P := by
  induction scanned generalizing ix stats with
  | nil => exact h
  | cons f rest ih =>
    rw [List.foldl_cons]
    have hstep : (Index.reindexFile before (ix, stats) f).1.KeepsOnly P := by
      unfold Index.reindexFile
      dsimp only
      split
      · exact h
      · -- a file that cannot be indexed leaves all as it was
        split
        next hindex => exact h.indexFile hP (hscanned f List.mem_cons_self) hindex
        next => exact h
    exact ih hstep (fun g hg => hscanned g (List.mem_cons_of_mem f hg)) _

/-- What holds of all entries holds when files are dropped. -/
theorem KeepsOnly.deleteFiles (h : ix.KeepsOnly P) (paths : List String) :
    (ix.deleteFiles paths).KeepsOnly P := by
  unfold Index.deleteFiles
  induction paths generalizing ix with
  | nil => exact h
  | cons path paths ih => exact ih (h.deleteFile path)

/-- What holds of all entries and of those of files on disk holds after a run over all files. -/
theorem KeepsOnly.reindex (h : ix.KeepsOnly P) (hP : OfScans P) {tree : SourceTree} {disk : Disk}
    (htree : tree.Anchored) (hdisk : disk.WellFormed) {stats : IndexStats}
    (hreindex : ix.reindex tree disk = .ok (ix', stats)) : ix'.KeepsOnly P := by
  obtain ⟨scanned, hscanned, hfrom⟩ := bind_eq_ok_iff.mp hreindex
  cases hfrom
  exact ((h.foldl_reindexFile hP (fun f hf =>
    origin_of_mem_sourceFiles hdisk htree hscanned hf) _).deleteFiles _).noteIndexed

/-- What holds of all entries and of those of files on disk holds when a changed path is taken in.
-/
theorem KeepsOnly.syncPath (h : ix.KeepsOnly P) (hP : OfScans P) {tree : SourceTree} {disk : Disk}
    (htree : tree.Anchored) {path : String} (hpath : isAbsolute path = true)
    {stats stats' : SyncStats}
    (hsync : syncPath tree disk (ix, stats) path = .ok (ix', stats')) : ix'.KeepsOnly P := by
  rcases syncPath_cases hsync with rfl | ⟨stored, rfl⟩ | ⟨file, counts, hindex, hlocate⟩
  · exact h
  · exact h.deleteFile stored
  · exact h.indexFile hP (originOf_of_locate htree hpath hlocate) hindex

/-- What holds of all entries and of those of files on disk holds after a run over changed paths. -/
theorem KeepsOnly.syncFrom (h : ix.KeepsOnly P) (hP : OfScans P) {tree : SourceTree} {disk : Disk}
    (htree : tree.Anchored) {paths : List String} (hpaths : ∀ path ∈ paths, isAbsolute path = true)
    (stats : SyncStats) : (syncFrom tree disk paths (ix, stats)).1.KeepsOnly P := by
  induction paths generalizing ix stats with
  | nil =>
    unfold Index.syncFrom
    split
    · exact h.noteIndexed
    · exact h
  | cons path rest ih =>
    unfold Index.syncFrom
    split
    next state hstep =>
      exact ih (h.syncPath hP htree (hpaths path List.mem_cons_self) hstep)
        (fun other hother => hpaths other (List.mem_cons_of_mem path hother)) _
    -- a path that fails ends the run
    next => exact h

/-- What holds of all entries and of those of new texts holds when a text is indexed. -/
theorem KeepsOnly.indexText (h : ix.KeepsOnly P) {path : String} (hP : OfTexts P path)
    {text : String} {counts : FileCounts} (hindex : ix.indexText path text = .ok (ix', counts)) :
    ix'.KeepsOnly P := by
  obtain ⟨known, hkeeps, hknown⟩ := h
  let origin := ((ix.file? path).map (·.origin)).getD .project
  obtain ⟨after, hafter, hkeeps'⟩ := hkeeps.replaceFile_ofText path origin text
  rw [show ix.indexText path text = _ from hafter] at hindex
  cases hindex
  refine .update hkeeps' hknown ?_
  rintro e' ⟨⟩
  apply hP
  -- the origin comes from the entry that is replaced, if there is one
  obtain ⟨id, hid⟩ := hkeeps.file?_eq path
  cases he : known path with
  | none => simp [origin, hid, he]
  | some e => exact Or.inr ⟨e, hknown path e he, hkeeps.path_eq he, by simp [origin, hid, he]⟩

/-- An analysis changes no entry. -/
theorem KeepsOnly.analyzePath (h : ix.KeepsOnly P) {path : String} {markers : List Marker}
    (hanalyze : ix.analyzePath path = .ok (ix', markers)) : ix'.KeepsOnly P := by
  obtain ⟨known, hkeeps, hknown⟩ := h
  unfold Index.analyzePath at hanalyze
  split at hanalyze
  · cases hanalyze
  · obtain ⟨after, hafter, hrest⟩ := bind_eq_ok_iff.mp hanalyze
    cases hrest
    exact ⟨known, hkeeps.replaceMarkers hafter, hknown⟩

/-- One action. -/
theorem KeepsOnly.apply (h : ix.KeepsOnly P) (hP : OfScans P) {a : Action} (ha : a.Grounded)
    (htexts : ∀ path text, a = .indexText path text → OfTexts P path) :
    (a.apply ix).KeepsOnly P := by
  unfold Action.apply
  cases a with
  | reindex tree disk =>
    dsimp only
    split
    next hreindex => exact h.reindex hP ha.1 ha.2 hreindex
    next => exact h
  | sync tree disk paths => exact h.syncFrom hP ha.1 ha.2 {}
  | indexText path text =>
    dsimp only
    split
    next hindex => exact h.indexText (htexts path text rfl) hindex
    next => exact h
  | analyze path =>
    dsimp only
    split
    next hanalyze => exact h.analyzePath hanalyze
    next => exact h

/-- A history of actions. -/
theorem KeepsOnly.run (h : ix.KeepsOnly P) (hP : OfScans P) {actions : List Action}
    (hactions : ∀ a ∈ actions, a.Grounded)
    (htexts : ∀ path text, .indexText path text ∈ actions → OfTexts P path) :
    (ix.run actions).KeepsOnly P := by
  induction actions generalizing ix with
  | nil => exact h
  | cons a rest ih =>
    refine ih (h.apply hP (hactions a List.mem_cons_self) ?_)
      (fun b hb => hactions b (List.mem_cons_of_mem a hb))
      (fun path text hmem => htexts path text (List.mem_cons_of_mem a hmem))
    rintro path text rfl
    exact htexts path text List.mem_cons_self

end Actions

end Index

end JavaAtlas
