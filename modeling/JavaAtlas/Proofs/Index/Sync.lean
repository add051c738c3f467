import JavaAtlas.Proofs.Changes
import JavaAtlas.Proofs.Index.Convergence

namespace JavaAtlas

open JavaAtlas.Path Disk Scan

/-! # Changed paths and a run over all files

Files of a project change, and their paths are taken into the index one by one. The index that this
leaves is the one that a run over all files leaves.

* `Index.mem_sourceFiles_of_differAt`: files that have not changed are found before and after;
* `Index.Keeps.syncPath`: a changed path leaves what is to be kept of its file;
* `Index.Keeps.syncFrom`: so do several, in any order and more than once;
* `Index.sync_agrees_with_reindex`: then all files are kept as a run over them keeps them.
-/

/-- A source tree whose roots are direct paths, as resolving them leaves them. -/
structure SourceTree.Direct (tree : SourceTree) : Prop where
  root : ∃ base, ProperNames base ∧ tree.root = pathOf base
  libraries : ∀ library ∈ tree.libraries, ∃ base, ProperNames base ∧ library = pathOf base

/-- A direct tree is anchored. -/
theorem SourceTree.Direct.anchored {tree : SourceTree} (h : tree.Direct) : tree.Anchored := by
  constructor
  · obtain ⟨base, -, hroot⟩ := h.root
    rw [hroot]
    exact isAbsolute_pathOf base
  · intro library hlibrary
    obtain ⟨base, -, hroot⟩ := h.libraries library hlibrary
    rw [hroot]
    exact isAbsolute_pathOf base

/-- An absolute path in normal form, below the root of the project and in no library. -/
structure SourceTree.OwnPath (tree : SourceTree) (path : String) : Prop where
  absolute : isAbsolute path = true
  normal : Path.normalize path = path
  inside : startsWith path tree.root = true
  outside : ∀ library ∈ tree.libraries, startsWith path library = false

/-- The path under which a file of the project is stored. -/
def SourceTree.storedIn (tree : SourceTree) (path : String) : String :=
  normalizeComponents ((below? tree.root path).getD [])

namespace Index

/-! ## Stored paths -/

section Stored

variable {tree : SourceTree} {disk : Disk} {path : String}

/-- A path of proper names is normal. -/
theorem normalize_pathOf {names : List String} (h : ProperNames names) :
    Path.normalize (pathOf names) = pathOf names := by
  rw [Path.normalize, components_pathOf h,
    normalizeComponents_root (inner_of_mem_map_normal h.reverse), pathOf_eq]

/-- The components of a path of the project below its root. -/
theorem exists_below_of_ownPath (htree : tree.Anchored) (hpath : tree.OwnPath path) :
    ∃ cs, below? tree.root path = some cs ∧ (∀ c ∈ cs, c.Inner) ∧
      tree.storedIn path = normalizeComponents cs := by
  obtain ⟨cs, hcs⟩ := Option.isSome_iff_exists.mp hpath.inside
  obtain ⟨all, hall, hinner⟩ := components_inner_of_isAbsolute hpath.absolute
  obtain ⟨front, hfront, -⟩ := components_inner_of_isAbsolute htree.root
  have happend := below?_eq_some_iff.mp hcs
  rw [hall, hfront, List.cons_append, List.cons_inj_right] at happend
  refine ⟨cs, hcs, fun c hc => hinner c (happend ▸ List.mem_append_right front hc), ?_⟩
  unfold SourceTree.storedIn
  rw [hcs]
  rfl

/-- A path of the project itself is stored below its root, as one of the project. -/
theorem locate_of_ownPath (hpath : tree.OwnPath path) :
    locate tree.root tree.libraries path = some (tree.storedIn path, .project) := by
  obtain ⟨cs, hcs⟩ := Option.isSome_iff_exists.mp hpath.inside
  have hlibraries : tree.libraries.any (startsWith path) = false := by
    rw [List.any_eq_false]
    intro library hlibrary
    rw [hpath.outside library hlibrary]
    exact Bool.false_ne_true
  unfold locate SourceTree.storedIn
  rw [hlibraries, relative, hcs]
  rfl

/-- What is stored of a path of the project is of the project. -/
theorem originOf_storedIn (htree : tree.Anchored) (hpath : tree.OwnPath path) :
    originOf (tree.storedIn path) = .project :=
  (originOf_of_locate htree hpath.absolute (locate_of_ownPath hpath)).symm

/-- A file of the project is stored where a path is stored if it stands under that path. -/
theorem stored_eq_iff_of_mem_own (hd : disk.WellFormed) (htree : tree.Direct)
    {own : List ScannedFile} (hown : scan disk tree.noIgnore tree.root .project = .ok own)
    {f : ScannedFile} (hf : f ∈ own) (hpath : tree.OwnPath path) :
    f.stored = tree.storedIn path ↔ f.path = path := by
  obtain ⟨below, hbelow, hinner, hstored⟩ := exists_below_of_ownPath htree.anchored hpath
  obtain ⟨base, hbase, hroot⟩ := htree.root
  rw [below?_eq_some_iff, hroot] at hbelow
  rw [hroot] at hown
  obtain ⟨cs, content, hcs, -, rfl⟩ := (mem_scan_iff hown).mp hf
  obtain ⟨-, -, rest, -, hrest, rfl, -⟩ :=
    exists_of_mem_filesBelow hd (isAbsolute_pathOf base) hcs
  have hcomponents := components_pathBelow (isAbsolute_pathOf base) hrest
  have hnormal : Path.normalize (pathBelow (pathOf base) (rest.map Component.normal)) =
      pathBelow (pathOf base) (rest.map Component.normal) := by
    rw [pathBelow_pathOf hbase hrest, normalize_pathOf (hrest.reverse.append hbase)]
  rw [hstored, path_fileBelow, stored_fileBelow]
  constructor
  · -- Normal paths with the same components below the root are one path.
    intro heq
    have hcs := normalizeComponents_injective (inner_of_mem_map_normal hrest) hinner heq
    rw [← hcs, ← hcomponents] at hbelow
    rw [← hnormal, ← hpath.normal, Path.normalize, Path.normalize, hbelow]
  · rintro rfl
    rw [hcomponents, List.append_cancel_left_eq] at hbelow
    rw [← hbelow]
    rfl

/-- A file of a library is neither stored nor found where a path of the project is. -/
theorem ne_of_mem_library (hd : disk.WellFormed) (htree : tree.Direct) {library : String}
    (hlibrary : library ∈ tree.libraries) {files : List ScannedFile}
    (hfiles : scan disk tree.noIgnore library .library = .ok files) {f : ScannedFile}
    (hf : f ∈ files) (hpath : tree.OwnPath path) :
    f.stored ≠ tree.storedIn path ∧ f.path ≠ path := by
  constructor
  · -- the stored path of the one is absolute, that of the other is not
    intro heq
    have horigin := (origin_of_mem_scan hd (htree.anchored.libraries library hlibrary) hfiles hf).2
    rw [heq, originOf_storedIn htree.anchored hpath] at horigin
    cases horigin
  · rintro rfl
    have houtside := hpath.outside library hlibrary
    obtain ⟨base, hbase, rfl⟩ := htree.libraries library hlibrary
    obtain ⟨cs, content, hcs, -, rfl⟩ := (mem_scan_iff hfiles).mp hf
    rw [path_fileBelow, startsWith_pathBelow hd hbase hcs] at houtside
    cases houtside

/-- A file is stored at the path of another exactly if it is the same file. -/
theorem stored_eq_storedIn_iff (hd : disk.WellFormed) (htree : tree.Direct)
    {scanned : List ScannedFile} (hscanned : sourceFiles tree disk = .ok scanned)
    {f : ScannedFile} (hf : f ∈ scanned) (hpath : tree.OwnPath path) :
    f.stored = tree.storedIn path ↔ f.path = path := by
  rcases (mem_sourceFiles_iff hscanned).mp hf with ⟨own, hown, hf⟩ |
    ⟨library, hlibrary, files, hfiles, hf⟩
  · exact stored_eq_iff_of_mem_own hd htree hown hf hpath
  · obtain ⟨hstored, hne⟩ := ne_of_mem_library hd htree hlibrary hfiles hf hpath
    exact iff_of_false hstored hne

end Stored

/-! ## Files that have not changed -/

/-- A file that has not changed is found before and after. -/
theorem mem_sourceFiles_of_differAt {tree : SourceTree} {d d' : Disk} {paths : List String}
    (h : DifferAt d d' paths) (htree : tree.Direct) (hpaths : ∀ path ∈ paths, tree.OwnPath path)
    {scanned scanned' : List ScannedFile} (hscanned : sourceFiles tree d = .ok scanned)
    (hscanned' : sourceFiles tree d' = .ok scanned') {f : ScannedFile} (hf : f ∈ scanned)
    (hpath : f.path ∉ paths) : f ∈ scanned' := by
  rw [mem_sourceFiles_iff hscanned']
  rcases (mem_sourceFiles_iff hscanned).mp hf with ⟨own, hown, hf⟩ |
    ⟨library, hlibrary, files, hfiles, hf⟩
  · -- The project is scanned alike but for the paths that differ.
    left
    obtain ⟨own', hown'⟩ := exists_sourceFiles_eq_ok_iff.mp ⟨scanned', hscanned'⟩
    obtain ⟨base, hbase, hroot⟩ := htree.root
    refine ⟨own', hown', ?_⟩
    rw [hroot] at hown hown'
    exact h.mem_scan hbase hown hown' hf hpath
  · -- No path that differs is in a library, so libraries are scanned alike.
    right
    obtain ⟨base, hbase, rfl⟩ := htree.libraries library hlibrary
    obtain ⟨files', hfiles', hsame⟩ := h.exists_scan hbase
      (fun path hpath => (hpaths path hpath).outside _ hlibrary) hfiles
    exact ⟨_, hlibrary, files', hfiles', hsame f hf⟩

/-- What a run that starts with nothing keeps is settled. -/
theorem settled_of_reindexed_none {scanned : List ScannedFile}
    (horigins : ∀ f ∈ scanned, f.origin = originOf f.stored) {path : String} {e : FileEntry}
    (he : reindexed (fun _ => none) scanned path = some e) : e.path = path ∧ e.Settled := by
  obtain ⟨f, hfind, he⟩ := Option.bind_eq_some_iff.mp he
  have hf := List.mem_of_find?_eq_some hfind
  have hstored : f.stored = path := by simpa using List.find?_some hfind
  by_cases hindexable : f.Indexable
  · obtain ⟨hsize, text, htext⟩ := ScannedFile.indexable_iff.mp hindexable
    rw [revised_of_text hsize htext (by simp), horigins f hf, Option.some_inj] at he
    subst he
    exact ⟨hstored, ofScans_settled f.stored text⟩
  · rw [revised_of_not_indexable hindexable] at he
    cases he

/-! ## One changed path -/

section Sync

variable {tree : SourceTree} {disk : Disk} {scanned : List ScannedFile} {path : String}
  {ix : Index} {now : String → Option FileEntry}

/-- A file that a scan finds is found by its path. -/
theorem scanPath_of_mem_sourceFiles (hd : disk.WellFormed) (htree : tree.Direct)
    (hscanned : sourceFiles tree disk = .ok scanned) {f : ScannedFile} (hf : f ∈ scanned)
    (hpath : tree.OwnPath f.path) (hsource : isSource f.path = true) :
    scanPath disk tree.root tree.libraries f.path = .ok (some f) := by
  have hstored := (stored_eq_storedIn_iff hd htree hscanned hf hpath).mpr rfl
  have horigin := origin_of_mem_sourceFiles hd htree.anchored hscanned hf
  rw [hstored, originOf_storedIn htree.anchored hpath] at horigin
  obtain ⟨names, hnames⟩ := find_of_mem_sourceFiles hd htree.anchored hscanned hf
  -- Looked at alone, the file gets the stored path and the origin that the scan gave it.
  have hdescribe :
      Scan.describe (tree.storedIn f.path) f.path .project (.file f.content) = .ok f := by
    rw [describe_eq_ok_iff]
    refine ⟨f.content, rfl, ?_⟩
    rw [← hstored, ← horigin]
  unfold scanPath
  rw [hnames, locate_of_ownPath hpath]
  dsimp only
  rw [hsource, hdescribe]
  rfl

/-- A changed path leaves what is to be kept of its file, and everything else as it is. -/
theorem Keeps.syncPath (h : ix.Keeps now)
    (hsettled : ∀ path e, now path = some e → e.Settled) (hd : disk.WellFormed)
    (htree : tree.Direct) (hscanned : sourceFiles tree disk = .ok scanned)
    (hpath : tree.OwnPath path) (hsource : isSource path = true)
    (hpresent : disk.has path = false ∨ ∃ f ∈ scanned, f.path = path ∧ f.Indexable)
    (stats : SyncStats) :
    ∃ ix' stats', Index.syncPath tree disk (ix, stats) path = .ok (ix', stats') ∧
      ix'.Keeps (Function.update now (tree.storedIn path)
        (reindexed (fun _ => none) scanned (tree.storedIn path))) := by
  unfold Index.syncPath
  rw [locate_of_ownPath hpath]
  dsimp only
  rcases hpresent with habsent | ⟨f, hf, rfl, hindexable⟩
  · -- a path that leads nowhere is that of no file found, and its row is deleted
    have hgone : reindexed (fun _ => none) scanned (tree.storedIn path) = none := by
      apply reindexed_of_not_mem
      intro f hf hstored
      obtain ⟨names, hnames⟩ := find_of_mem_sourceFiles hd htree.anchored hscanned hf
      rw [(stored_eq_storedIn_iff hd htree hscanned hf hpath).mp hstored] at hnames
      rw [Disk.has, hnames] at habsent
      cases habsent
    rw [habsent, hgone]
    exact ⟨_, _, rfl, (h.deleteFile _).1⟩
  · obtain ⟨names, hnames⟩ := find_of_mem_sourceFiles hd htree.anchored hscanned hf
    have hhas : disk.has f.path = true := by
      rw [Disk.has, hnames]
      rfl
    obtain ⟨hsize, text, htext⟩ := ScannedFile.indexable_iff.mp hindexable
    have hstored := (stored_eq_storedIn_iff hd htree hscanned hf hpath).mpr rfl
    have hentry : reindexed (fun _ => none) scanned f.stored =
        some (.ofText f.stored f.origin text) := by
      rw [reindexed_of_mem (consistent_sourceFiles hd htree.anchored hscanned) hf]
      exact revised_of_text hsize htext (by simp)
    rw [hhas, scanPath_of_mem_sourceFiles hd htree hscanned hf hpath hsource, ← hstored, hentry]
    simp only [Bool.not_true, Bool.false_eq_true, if_false, bind, Except.bind]
    split
    next hcurrent =>
      -- the entry has the digest of the text, so it is that of the text
      obtain ⟨e, he, hdigest⟩ := h.hasContent_iff.mp hcurrent
      obtain ⟨horigin, hown⟩ := hsettled f.stored e he
      have hsame : e = .ofText f.stored f.origin text := by
        rw [hown.eq_ofText (htext ▸ hdigest), horigin, h.path_eq he,
          origin_of_mem_sourceFiles hd htree.anchored hscanned hf]
      rw [← hsame, ← he, Function.update_eq_self]
      exact ⟨ix, _, rfl, h⟩
    next =>
      obtain ⟨ix', counts, hindex, hkeeps⟩ := h.indexFile hsize htext
      rw [hindex]
      exact ⟨ix', _, rfl, hkeeps⟩

/-- Changed paths, in any order and more than once. What is kept stays settled on the way. -/
theorem Keeps.syncFrom {paths : List String} (h : ix.Keeps now)
    (hsettled : ∀ path e, now path = some e → e.Settled) (hd : disk.WellFormed)
    (htree : tree.Direct) (hscanned : sourceFiles tree disk = .ok scanned)
    (hpaths : ∀ path ∈ paths, tree.OwnPath path) (hsources : ∀ path ∈ paths, isSource path = true)
    (hpresent : ∀ path ∈ paths,
      disk.has path = false ∨ ∃ f ∈ scanned, f.path = path ∧ f.Indexable) (stats : SyncStats) :
    ∃ ix' stats', Index.syncFrom tree disk paths (ix, stats) = (ix', .ok stats') ∧
      ix'.Keeps fun stored =>
        if stored ∈ paths.map tree.storedIn then reindexed (fun _ => none) scanned stored
        else now stored := by
  induction paths generalizing ix now stats with
  | nil =>
    unfold Index.syncFrom
    split
    · exact ⟨_, _, rfl, by simpa using h.noteIndexed⟩
    · exact ⟨_, _, rfl, by simpa using h⟩
  | cons path rest ih =>
    obtain ⟨mid, stats', hstep, hmid⟩ := h.syncPath hsettled hd htree hscanned
      (hpaths path List.mem_cons_self) (hsources path List.mem_cons_self)
      (hpresent path List.mem_cons_self) stats
    -- What one path writes is settled as well, so the next one may rely on it.
    have hmidSettled : ∀ other e, Function.update now (tree.storedIn path)
        (reindexed (fun _ => none) scanned (tree.storedIn path)) other = some e → e.Settled := by
      intro other e he
      by_cases hother : other = tree.storedIn path
      · subst hother
        rw [Function.update_self] at he
        exact (settled_of_reindexed_none
          (fun f hf => origin_of_mem_sourceFiles hd htree.anchored hscanned hf) he).2
      · rw [Function.update_of_ne hother] at he
        exact hsettled other e he
    obtain ⟨ix', stats'', hrest, hkeeps⟩ := ih hmid hmidSettled
      (fun p hp => hpaths p (List.mem_cons_of_mem path hp))
      (fun p hp => hsources p (List.mem_cons_of_mem path hp))
      (fun p hp => hpresent p (List.mem_cons_of_mem path hp)) stats'
    refine ⟨ix', stats'', ?_, ?_⟩
    · rw [Index.syncFrom, hstep]
      exact hrest
    · convert hkeeps using 1
      funext stored
      simp only [List.map_cons, List.mem_cons]
      -- a path that comes again writes again what is to be kept
      by_cases hmem : stored ∈ rest.map tree.storedIn
      · simp [hmem]
      · by_cases hstored : stored = tree.storedIn path
        · subst hstored
          simp
        · simp [hmem, hstored]

end Sync

/-! ## All files -/

section Agreement

variable {tree : SourceTree} {d d' : Disk} {paths : List String}
  {scanned scanned' : List ScannedFile}

/-- What is kept of files that have not changed is the same before and after. -/
theorem reindexed_eq_of_differAt (h : DifferAt d d' paths) (htree : tree.Direct)
    (hpaths : ∀ path ∈ paths, tree.OwnPath path) (hscanned : sourceFiles tree d = .ok scanned)
    (hscanned' : sourceFiles tree d' = .ok scanned') {stored : String}
    (hstored : stored ∉ paths.map tree.storedIn) :
    reindexed (fun _ => none) scanned stored = reindexed (fun _ => none) scanned' stored := by
  have hsame := consistent_sourceFiles h.before htree.anchored hscanned
  have hsame' := consistent_sourceFiles h.after htree.anchored hscanned'
  -- a changed path is stored among the stored paths of the changes
  have hunchanged : ∀ {e : Disk} {found : List ScannedFile}, e.WellFormed →
      sourceFiles tree e = .ok found → ∀ f ∈ found, f.stored = stored → f.path ∉ paths := by
    intro e found he hfound f hf hfstored hpath
    rw [← hfstored, (stored_eq_storedIn_iff he htree hfound hf (hpaths _ hpath)).mpr rfl] at hstored
    exact hstored (List.mem_map_of_mem hpath)
  by_cases hfound : ∃ f ∈ scanned, f.stored = stored
  · obtain ⟨f, hf, rfl⟩ := hfound
    have hf' := mem_sourceFiles_of_differAt h htree hpaths hscanned hscanned' hf
      (hunchanged h.before hscanned f hf rfl)
    rw [reindexed_of_mem hsame hf, reindexed_of_mem hsame' hf']
  · have hnot : ∀ f ∈ scanned, f.stored ≠ stored := fun f hf heq => hfound ⟨f, hf, heq⟩
    rw [reindexed_of_not_mem hnot, reindexed_of_not_mem]
    intro f hf hfstored
    have hf' := mem_sourceFiles_of_differAt h.symm htree hpaths hscanned' hscanned hf
      (hunchanged h.after hscanned' f hf hfstored)
    exact hnot f hf' hfstored

/-- If changed files can be indexed, a run over all files leaves the same after a run before the
changes as with nothing kept. -/
theorem reindexed_reindexed_of_differAt (h : DifferAt d d' paths) (htree : tree.Direct)
    (hpaths : ∀ path ∈ paths, tree.OwnPath path) (hscanned : sourceFiles tree d = .ok scanned)
    (hscanned' : sourceFiles tree d' = .ok scanned')
    (hindexable : ∀ f ∈ scanned', f.path ∈ paths → f.Indexable) :
    reindexed (reindexed (fun _ => none) scanned) scanned' =
      reindexed (fun _ => none) scanned' := by
  have hsame := consistent_sourceFiles h.before htree.anchored hscanned
  have hsame' := consistent_sourceFiles h.after htree.anchored hscanned'
  funext stored
  by_cases hfound : ∃ f ∈ scanned', f.stored = stored
  · obtain ⟨f, hf, rfl⟩ := hfound
    rw [reindexed_of_mem hsame' hf, reindexed_of_mem hsame' hf]
    -- A file that can be indexed is read in full, whatever was known of it.
    by_cases hf' : f.Indexable
    · obtain ⟨hsize, text, htext⟩ := ScannedFile.indexable_iff.mp hf'
      have hnone : revised none f = some (.ofText f.stored f.origin text) :=
        revised_of_text hsize htext (by simp)
      rw [hnone]
      refine revised_of_settled ?_
        (origin_of_mem_sourceFiles h.after htree.anchored hscanned' hf) hsize htext
      intro e he
      exact settled_of_reindexed_none
        (fun g hg => origin_of_mem_sourceFiles h.before htree.anchored hscanned hg) he
    · -- a file that cannot be indexed has not changed, and was not kept before
      have hbefore := mem_sourceFiles_of_differAt h.symm htree hpaths hscanned' hscanned hf
        fun hpath => hf' (hindexable f hf hpath)
      rw [revised_of_not_indexable hf', revised_of_not_indexable hf',
        reindexed_of_mem hsame hbefore, revised_of_not_indexable hf']
  · have hnot : ∀ f ∈ scanned', f.stored ≠ stored := fun f hf heq => hfound ⟨f, hf, heq⟩
    rw [reindexed_of_not_mem hnot, reindexed_of_not_mem hnot]

/-- A file that is found is there, so that it can be indexed if its path is either gone or that of a
file that can be. -/
theorem indexable_of_present (hd : d.WellFormed) (htree : tree.Anchored)
    (hscanned : sourceFiles tree d = .ok scanned) {f : ScannedFile} (hf : f ∈ scanned)
    (hpresent : d.has f.path = false ∨ ∃ g ∈ scanned, g.path = f.path ∧ g.Indexable) :
    f.Indexable := by
  obtain ⟨names, hnames⟩ := find_of_mem_sourceFiles hd htree hscanned hf
  rcases hpresent with habsent | ⟨g, hg, hpath, hindexable⟩
  · rw [Disk.has, hnames] at habsent
    cases habsent
  · obtain ⟨names', hnames'⟩ := find_of_mem_sourceFiles hd htree hscanned hg
    rw [hpath, hnames, Except.ok.injEq, Prod.mk.injEq, DiskEntry.file.injEq] at hnames'
    have hsize := hindexable.size
    have htext := hindexable.text
    rw [ScannedFile.size, ← hnames'.2] at hsize
    rw [← hnames'.2] at htext
    exact ⟨hsize, htext⟩

/-- After source files of a project have changed, taking their paths into an index of the project
as it was leaves the rows, up to identities, that a run over all files leaves. -/
theorem sync_agrees_with_reindex (h : DifferAt d d' paths) (htree : tree.Direct)
    (hpaths : ∀ path ∈ paths, tree.OwnPath path) {ix fresh : Index} {stats : IndexStats}
    (hfresh : reindex {} tree d = .ok (fresh, stats)) (hix : SameRows ix fresh)
    {own : List ScannedFile} (hown : scan d' tree.noIgnore tree.root .project = .ok own)
    (hpresent : ∀ path ∈ paths,
      d'.has path = false ∨ ∃ f ∈ own, f.path = path ∧ f.Indexable) :
    ∃ synced counts after stats',
      ix.sync tree d' paths = (synced, .ok counts) ∧
      ix.reindex tree d' = .ok (after, stats') ∧
      SameRows synced after := by
  obtain ⟨scanned, hscanned, hrun⟩ := bind_eq_ok_iff.mp hfresh
  obtain ⟨scanned', hscanned'⟩ := exists_sourceFiles_eq_ok_iff.mpr ⟨own, hown⟩
  have hsame := consistent_sourceFiles h.before htree.anchored hscanned
  have hsame' := consistent_sourceFiles h.after htree.anchored hscanned'
  have hkeeps : ix.Keeps (reindexed (fun _ => none) scanned) := by
    refine hix.keeps ?_
    have := keeps_empty.reindexFrom hsame
    rwa [Except.ok.inj hrun] at this
  have hpresent' : ∀ path ∈ paths,
      d'.has path = false ∨ ∃ f ∈ scanned', f.path = path ∧ f.Indexable := by
    intro path hpath
    rcases hpresent path hpath with habsent | ⟨f, hf, hfile⟩
    · exact Or.inl habsent
    · exact Or.inr ⟨f, (mem_sourceFiles_iff hscanned').mpr (Or.inl ⟨own, hown, hf⟩), hfile⟩
  have hindexable : ∀ f ∈ scanned', f.path ∈ paths → f.Indexable := fun f hf hpath =>
    indexable_of_present h.after htree.anchored hscanned' hf (hpresent' f.path hpath)
  obtain ⟨synced, counts, hsync, hsynced⟩ := hkeeps.syncFrom
    (fun path e he => (settled_of_reindexed_none
      (fun f hf => origin_of_mem_sourceFiles h.before htree.anchored hscanned hf) he).2)
    h.after htree hscanned' hpaths h.sources hpresent' {}
  have hall : (fun stored =>
      if stored ∈ paths.map tree.storedIn then reindexed (fun _ => none) scanned' stored
      else reindexed (fun _ => none) scanned stored) = reindexed (fun _ => none) scanned' := by
    funext stored
    split
    next => rfl
    next hstored => exact reindexed_eq_of_differAt h htree hpaths hscanned hscanned' hstored
  rw [hall] at hsynced
  have hafter := hkeeps.reindexFrom hsame'
  rw [reindexed_reindexed_of_differAt h htree hpaths hscanned hscanned' hindexable] at hafter
  exact ⟨synced, counts, _, _, hsync, reindex_eq hscanned', hsynced.sameRows hafter⟩

end Agreement

/-! ## An example -/

/-- A project with one library, without rules. -/
def changingTree : SourceTree := { root := "/w", libraries := ["/lib"], noIgnore := true }

/-- The disk before the changes. -/
def diskBefore : Disk :=
  { entries :=
      [("/w", .directory), ("/w/A.java", .file "class A {}".toUTF8),
        ("/w/C.java", .file "class C {}".toUTF8), ("/lib", .directory),
        ("/lib/B.java", .file "class B {}".toUTF8)] }

/-- The disk after a file was rewritten, one removed, and one added in a directory of its own. -/
def diskAfter : Disk :=
  { entries :=
      [("/w", .directory), ("/w/A.java", .file "class A { int n; }".toUTF8),
        ("/w/d", .directory), ("/w/d/D.java", .file "class D {}".toUTF8), ("/lib", .directory),
        ("/lib/B.java", .file "class B {}".toUTF8)] }

/-- The paths that have changed, one of them told twice. -/
def changedPaths : List String := ["/w/d/D.java", "/w/A.java", "/w/C.java", "/w/A.java"]

/-- The two disks differ at the changed paths only. -/
theorem differAt_diskBefore_diskAfter : DifferAt diskBefore diskAfter changedPaths := by
  refine ⟨by decide +kernel, by decide +kernel, by decide +kernel, ?_⟩
  intro path entry hpath hfile
  by_cases hnew : path = "/w/d"
  · -- the new directory is no file on either disk
    have hbefore : diskBefore.entries.lookup "/w/d" = none := by decide +kernel
    have hafter : diskAfter.entries.lookup "/w/d" = some .directory := by decide +kernel
    rw [hnew, hbefore, hafter]
    constructor
    · rintro ⟨⟩
      cases hfile
    · rintro ⟨⟩
  · simp only [changedPaths, List.mem_cons, not_or] at hpath
    have hA : (path == "/w/A.java") = false := by simpa using hpath.2.1
    have hC : (path == "/w/C.java") = false := by simpa using hpath.2.2.1
    have hD : (path == "/w/d/D.java") = false := by simpa using hpath.1
    have hd : (path == "/w/d") = false := by simpa using hnew
    simp only [diskBefore, diskAfter, List.lookup_cons, hA, hC, hD, hd]

/-- The tree of the example is direct. -/
theorem direct_changingTree : changingTree.Direct := by
  refine ⟨⟨["w"], by decide +kernel, by decide +kernel⟩, ?_⟩
  intro library hlibrary
  rw [show library = "/lib" from List.mem_singleton.mp hlibrary]
  exact ⟨["lib"], by decide +kernel, by decide +kernel⟩

/-- The changed paths are of the project itself. -/
theorem ownPath_of_mem_changedPaths :
    ∀ path ∈ changedPaths, changingTree.OwnPath path := by
  have hall : ∀ path ∈ changedPaths, isAbsolute path = true ∧ Path.normalize path = path ∧
      startsWith path changingTree.root = true ∧
        ∀ library ∈ changingTree.libraries, startsWith path library = false := by
    decide +kernel
  intro path hpath
  obtain ⟨habsolute, hnormal, hinside, houtside⟩ := hall path hpath
  exact ⟨habsolute, hnormal, hinside, houtside⟩

/-- The files of the example before the change. -/
theorem filesBelow_diskBefore : filesBelow diskBefore true "/w" =
    [([.normal "A.java"], .file "class A {}".toUTF8),
      ([.normal "C.java"], .file "class C {}".toUTF8)] := by
  decide +kernel

/-- The files of the example after the change. -/
theorem filesBelow_diskAfter : filesBelow diskAfter true "/w" =
    [([.normal "A.java"], .file "class A { int n; }".toUTF8),
      ([.normal "d", .normal "D.java"], .file "class D {}".toUTF8)] := by
  decide +kernel

/-- A file is rewritten, one removed and one added, and the rewritten one is told twice. -/
theorem sync_agrees_with_reindex_three_changes :
    ∃ fresh stats, reindex {} changingTree diskBefore = .ok (fresh, stats) ∧
    ∃ synced counts after stats',
      fresh.sync changingTree diskAfter changedPaths = (synced, .ok counts) ∧
      fresh.reindex changingTree diskAfter = .ok (after, stats') ∧
      SameRows synced after := by
  have hdiffer := differAt_diskBefore_diskAfter
  obtain ⟨own, hown⟩ : ∃ own, scan diskBefore true "/w" .project = .ok own := by
    rw [exists_scan_eq_ok_iff, filesBelow_diskBefore]
    intro cs entry hbelow _
    simp only [List.mem_cons, Prod.mk.injEq, List.not_mem_nil, or_false] at hbelow
    rcases hbelow with ⟨-, rfl⟩ | ⟨-, rfl⟩ <;> exact ⟨_, rfl⟩
  obtain ⟨own', hown'⟩ : ∃ own, scan diskAfter true "/w" .project = .ok own := by
    rw [exists_scan_eq_ok_iff, filesBelow_diskAfter]
    intro cs entry hbelow _
    simp only [List.mem_cons, Prod.mk.injEq, List.not_mem_nil, or_false] at hbelow
    rcases hbelow with ⟨-, rfl⟩ | ⟨-, rfl⟩ <;> exact ⟨_, rfl⟩
  have hmem : ∀ cs content, (cs, .file content) ∈ filesBelow diskAfter true "/w" →
      isSource (pathBelow "/w" cs) = true → fileBelow "/w" .project cs content ∈ own' :=
    fun cs content hbelow hsource => (mem_scan_iff hown').mpr ⟨cs, content, hbelow, hsource, rfl⟩
  obtain ⟨scanned, hscanned⟩ : ∃ scanned, sourceFiles changingTree diskBefore = .ok scanned :=
    exists_sourceFiles_eq_ok_iff.mpr ⟨own, hown⟩
  have hkeeps := keeps_empty.reindexFrom
    (consistent_sourceFiles hdiffer.before direct_changingTree.anchored hscanned)
  refine ⟨_, _, reindex_eq hscanned, ?_⟩
  refine sync_agrees_with_reindex hdiffer direct_changingTree ownPath_of_mem_changedPaths
    (reindex_eq hscanned) (hkeeps.sameRows hkeeps) hown' ?_
  intro path hpath
  simp only [changedPaths, List.mem_cons, List.not_mem_nil, or_false] at hpath
  have hA := hmem [.normal "A.java"] "class A { int n; }".toUTF8 (by simp [filesBelow_diskAfter])
    (by decide +kernel)
  have hD := hmem [.normal "d", .normal "D.java"] "class D {}".toUTF8
    (by simp [filesBelow_diskAfter]) (by decide +kernel)
  rcases hpath with rfl | rfl | rfl | rfl
  · exact Or.inr ⟨_, hD, by decide +kernel,
      ScannedFile.indexable_iff.mpr ⟨by decide, "class D {}", rfl⟩⟩
  · exact Or.inr ⟨_, hA, by decide +kernel,
      ScannedFile.indexable_iff.mpr ⟨by decide, "class A { int n; }", rfl⟩⟩
  · exact Or.inl (by decide +kernel)
  · exact Or.inr ⟨_, hA, by decide +kernel,
      ScannedFile.indexable_iff.mpr ⟨by decide, "class A { int n; }", rfl⟩⟩

end Index

end JavaAtlas
