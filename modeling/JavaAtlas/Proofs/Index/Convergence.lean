import JavaAtlas.Proofs.Index.History
import JavaAtlas.Proofs.Index.Representation

namespace JavaAtlas

open JavaAtlas.Path Scan

/-! # What a run over all files makes of any history

An entry is settled if it is that of its own text, or marked to be indexed again. Every history
leaves settled entries only, so that a file is left out of a run only if what is kept of it is what
the run would write.

* `Index.reindexed_eq_of_settled`: after a run over files that can all be indexed, what is kept
  does not depend on what was kept before;
* `Index.reindex_converges`: so the index is that of a run that starts with nothing, and the next
  run changes nothing.

What a history leaves may also have been kept by the first version and be opened again:

* `Index.Start.opened_run`: opening it succeeds, and another history starts there.
-/

namespace FileEntry

/-- The entry is that of its own text, or to be indexed again in any case. -/
def OfOwnText (e : FileEntry) : Prop :=
  e.file.digest = .cleared ∨ ∃ text, e = .ofText e.path e.file.origin text

/-- The entry is that of its own text, and its path tells its origin. -/
def Settled (e : FileEntry) : Prop := e.file.origin = originOf e.path ∧ e.OfOwnText

/-- The entry of a text has the path that it was stored at. -/
@[simp] theorem path_ofText (path : String) (origin : Origin) (text : String) :
    (ofText path origin text).path = path := rfl

/-- The entry of a text has the origin that it was stored with. -/
@[simp] theorem origin_ofText (path : String) (origin : Origin) (text : String) :
    (ofText path origin text).file.origin = origin := rfl

/-- The entry of a text was extracted from it. -/
theorem ofOwnText_ofText (path : String) (origin : Origin) (text : String) :
    (ofText path origin text).OfOwnText :=
  Or.inr ⟨text, rfl⟩

/-- The digest of an entry tells its text. -/
theorem OfOwnText.eq_ofText {e : FileEntry} (h : e.OfOwnText) {text : String}
    (hdigest : e.file.digest = .ofContent text.toUTF8) :
    e = .ofText e.path e.file.origin text := by
  rcases h with hcleared | ⟨text', he⟩
  · rw [hcleared] at hdigest
    cases hdigest
  · have hdigest' : e.file.digest = .ofContent text'.toUTF8 := by
      rw [he]
      rfl
    rw [hdigest', Digest.ofContent.injEq] at hdigest
    rwa [String.toByteArray_inj.mp hdigest] at he

end FileEntry

namespace Index

/-- What a scan stores is settled. -/
theorem ofScans_settled : OfScans FileEntry.Settled :=
  fun path text => ⟨rfl, FileEntry.ofOwnText_ofText path _ text⟩

/-- What is stored of a text under a relative path is settled. -/
theorem ofTexts_settled {path : String} (hpath : isAbsolute path = false) :
    OfTexts FileEntry.Settled path := by
  intro origin text horigin
  refine ⟨?_, FileEntry.ofOwnText_ofText path origin text⟩
  rcases horigin with rfl | ⟨e, he, hpath', horigin⟩
  · simp [originOf, hpath]
  · rw [FileEntry.origin_ofText, FileEntry.path_ofText, ← horigin, he.1, hpath']

/-- What a scan stores was extracted from its own text. -/
theorem ofScans_ofOwnText : OfScans FileEntry.OfOwnText :=
  fun path text => FileEntry.ofOwnText_ofText path _ text

/-- What is stored of a text was extracted from it. -/
theorem ofTexts_ofOwnText (path : String) : OfTexts FileEntry.OfOwnText path :=
  fun origin text _ => FileEntry.ofOwnText_ofText path origin text

/-! ## Where histories start -/

/-- A history starts with nothing, or with an index of the first version, in which paths tell
origins, that was brought to the present form. -/
inductive Start : Index → Prop
  | empty : Start {}
  | upgraded {ix : Index} (sound : ix.Sound)
      (origins : ∀ f ∈ ix.files, f.origin = originOf f.path) : Start ix.upgrade

/-- At the start everything is settled. -/
theorem Start.keepsOnly_settled {ix : Index} (h : Start ix) : ix.KeepsOnly FileEntry.Settled := by
  cases h with
  | empty => exact ⟨_, keeps_empty, nofun⟩
  | @upgraded old sound origins =>
    obtain ⟨known, hkeeps⟩ := sound.exists_keeps
    refine ⟨_, hkeeps.upgrade, ?_⟩
    intro path e he
    obtain ⟨e', he', rfl⟩ := Option.map_eq_some_iff.mp he
    -- the digest is cleared, so that only the origin is left to show
    refine ⟨?_, Or.inl rfl⟩
    obtain ⟨id, hid⟩ := hkeeps.file?_eq path
    rw [he', Option.map_some] at hid
    have horigin := origins _ (List.mem_of_find?_eq_some hid)
    exact horigin

/-- At the start everything was extracted from its own text. -/
theorem Start.keepsOnly_ofOwnText {ix : Index} (h : Start ix) :
    ix.KeepsOnly FileEntry.OfOwnText := by
  obtain ⟨known, hkeeps, hsettled⟩ := h.keepsOnly_settled
  exact ⟨known, hkeeps, fun path e he => (hsettled path e he).2⟩

/-- Every file row is that of the entry that is kept of its path. -/
theorem Keeps.exists_entry_of_mem_files {ix : Index} {known : String → Option FileEntry}
    (h : ix.Keeps known) {row : FileRow} (hrow : row ∈ ix.files) :
    ∃ e, known row.path = some e ∧ row = { e.file with id := row.id } := by
  obtain ⟨entries, n, hstored, hknown⟩ := h
  obtain ⟨e, he, rfl⟩ := List.mem_map.mp (hstored.files.mem_iff.mp hrow)
  refine ⟨e, ?_, rfl⟩
  rw [← hknown]
  exact (entryAt_eq_some_iff hstored.paths).mpr ⟨he, rfl⟩

/-- Leaving out the ways to receivers leaves an index whose rows belong together. -/
theorem Sound.asFirstVersion {ix : Index} (h : ix.Sound) : ix.asFirstVersion.Sound where
  paths := h.paths
  fileIds := h.fileIds
  declarationIds := h.declarationIds
  memberIds := h.memberIds
  referenceIds := by
    show ((ix.references.map _).map _).Nodup
    rw [List.map_map]
    exact h.referenceIds
  declarationFiles := h.declarationFiles
  memberOwners := h.memberOwners
  referenceFiles := by
    intro r hr
    obtain ⟨r', hr', rfl⟩ := List.mem_map.mp hr
    exact h.referenceFiles r' hr'

/-- An index of the first version is brought to the present form as it is opened. -/
theorem opened_asFirstVersion (ix : Index) :
    ix.asFirstVersion.opened = .ok ix.asFirstVersion.upgrade := by
  have hversion : ix.asFirstVersion.fact? "schema_version" = some 1 := by
    simp [asFirstVersion, fact?, setFact]
  rw [opened, hversion]
  rfl

/-- Whatever a history leaves, as the first version would have kept it, can be opened, and what is
opened starts another history: what is asked of an index of the first version holds of every index
that was not written by hand. -/
theorem Start.opened_run {start : Index} (hstart : Start start) {actions : List Action}
    (hgrounded : ∀ a ∈ actions, a.Grounded) (hproject : ∀ a ∈ actions, a.InProject) :
    ∃ start', (start.run actions).asFirstVersion.opened = .ok start' ∧ Start start' := by
  obtain ⟨known, hkeeps, hsettled⟩ := hstart.keepsOnly_settled.run ofScans_settled hgrounded
    fun path text hmem => ofTexts_settled (hproject _ hmem)
  obtain ⟨entries, n, hstored, -⟩ := id hkeeps
  refine ⟨_, opened_asFirstVersion _, .upgraded hstored.sound.asFirstVersion ?_⟩
  intro row hrow
  obtain ⟨e, he, heq⟩ := hkeeps.exists_entry_of_mem_files hrow
  rw [heq]
  exact (hsettled row.path e he).1

/-! ## Convergence -/

section Convergence

variable {ix : Index} {known : String → Option FileEntry} {scanned : List ScannedFile}

/-- A file that can be indexed is kept as its text says, whatever was kept. -/
theorem revised_of_settled {old : Option FileEntry} {f : ScannedFile}
    (hold : ∀ e, old = some e → e.path = f.stored ∧ e.Settled)
    (horigin : f.origin = originOf f.stored) (hsize : f.size ≤ maxFileSize) {text : String}
    (htext : f.content = text.toUTF8) :
    revised old f = some (.ofText f.stored f.origin text) := by
  by_cases hcurrent : ∃ e, old = some e ∧ e.file.digest = .ofContent f.content
  · -- the digest tells the text and the path the origin: the entry is the one to be written
    obtain ⟨e, he, hdigest⟩ := hcurrent
    obtain ⟨hpath, horigin', hown⟩ := hold e he
    rw [revised_of_current he hdigest, he, hown.eq_ofText (htext ▸ hdigest), hpath, horigin',
      hpath, horigin]
  · exact revised_of_text hsize htext fun e he hdigest => hcurrent ⟨e, he, hdigest⟩

/-- What is kept after a run over files that can all be indexed does not depend on what was kept
before. -/
theorem reindexed_eq_of_settled (hpaths : ∀ path e, known path = some e → e.path = path)
    (hsettled : ∀ path e, known path = some e → e.Settled)
    (horigins : ∀ f ∈ scanned, f.origin = originOf f.stored)
    (hindexable : ∀ f ∈ scanned, f.Indexable) :
    reindexed known scanned = reindexed (fun _ => none) scanned := by
  funext path
  unfold reindexed
  -- Every file found can be indexed, so what was known of it no longer shows.
  cases hfind : scanned.find? (·.stored == path) with
  | none => rfl
  | some f =>
    have hmem := List.mem_of_find?_eq_some hfind
    have hstored : f.stored = path := by simpa using List.find?_some hfind
    obtain ⟨hsize, text, htext⟩ := ScannedFile.indexable_iff.mp (hindexable f hmem)
    have hknown : revised (known path) f = some (.ofText f.stored f.origin text) := by
      refine revised_of_settled ?_ (horigins f hmem) hsize htext
      intro e he
      exact ⟨(hpaths path e he).trans hstored.symm, hsettled path e he⟩
    rw [Option.bind_some, Option.bind_some, hknown, revised_of_text hsize htext (by simp)]

/-- After a run over files that can all be indexed, every file is kept with its content. -/
theorem Keeps.hasContent_of_indexable (h : ix.Keeps (reindexed (fun _ => none) scanned))
    (hsame : Consistent scanned) (hindexable : ∀ f ∈ scanned, f.Indexable) {f : ScannedFile}
    (hf : f ∈ scanned) : ix.hasContent f = true := by
  obtain ⟨hsize, text, htext⟩ := ScannedFile.indexable_iff.mp (hindexable f hf)
  refine h.hasContent_iff.mpr ⟨.ofText f.stored f.origin text, ?_, ?_⟩
  · rw [reindexed_of_mem hsame hf]
    exact revised_of_text hsize htext (by simp)
  · rw [htext]
    rfl

/-- Only files that were found are kept after a run. -/
theorem Keeps.exists_of_mem_paths (h : ix.Keeps (reindexed known scanned)) {path : String}
    (hpath : path ∈ ix.files.map (·.path)) : ∃ f ∈ scanned, f.stored = path := by
  rw [h.mem_paths_iff, Option.isSome_iff_exists] at hpath
  obtain ⟨e, he⟩ := hpath
  obtain ⟨f, hfind, -⟩ := Option.bind_eq_some_iff.mp he
  exact ⟨f, List.mem_of_find?_eq_some hfind, by simpa using List.find?_some hfind⟩

/-- If the files can be listed, they are indexed anew. -/
theorem reindex_eq {tree : SourceTree} {disk : Disk} (h : sourceFiles tree disk = .ok scanned) :
    ix.reindex tree disk = .ok (ix.reindexFrom scanned) := by
  unfold reindex
  rw [h]
  rfl

/-- Whatever happened to an index, a run over files that can all be indexed leaves the rows, up to
identities, that a run with nothing kept leaves; and the next run finds every file unchanged and
leaves every row as it is. -/
theorem reindex_converges {start : Index} (hstart : Start start) {actions : List Action}
    (hgrounded : ∀ a ∈ actions, a.Grounded) (hproject : ∀ a ∈ actions, a.InProject)
    {tree : SourceTree} {disk : Disk} (htree : tree.Anchored) (hdisk : disk.WellFormed)
    (hscanned : sourceFiles tree disk = .ok scanned) (hindexable : ∀ f ∈ scanned, f.Indexable) :
    ∃ after fresh again stats stats',
      (start.run actions).reindex tree disk = .ok (after, stats) ∧
      reindex {} tree disk = .ok (fresh, stats') ∧
      SameRows after fresh ∧
      after.reindex tree disk =
        .ok (again, { scanned := scanned.length, skipped := scanned.length }) ∧
      again.files = after.files ∧ again.declarations = after.declarations ∧
      again.members = after.members ∧ again.references = after.references := by
  obtain ⟨known, hkeeps, hsettled⟩ := hstart.keepsOnly_settled.run ofScans_settled hgrounded
    fun path text hmem => ofTexts_settled (hproject _ hmem)
  have hsame := consistent_sourceFiles hdisk htree hscanned
  have hafter := hkeeps.reindexFrom hsame
  -- from here on nothing depends on the history
  rw [reindexed_eq_of_settled (fun path e he => hkeeps.path_eq he) hsettled
    (fun f hf => origin_of_mem_sourceFiles hdisk htree hscanned hf) hindexable] at hafter
  rcases hrun : (start.run actions).reindexFrom scanned with ⟨after, stats⟩
  rw [hrun] at hafter
  have hagain := reindexFrom_of_current
    (fun f hf => hafter.hasContent_of_indexable hsame hindexable hf)
    (fun path hpath => hafter.exists_of_mem_paths hpath)
  refine ⟨after, _, after.noteIndexed, stats, _, ?_, reindex_eq hscanned,
    hafter.sameRows (keeps_empty.reindexFrom hsame), ?_, rfl, rfl, rfl, rfl⟩
  · rw [reindex_eq hscanned, hrun]
  · rw [reindex_eq hscanned, hagain]

/-- A project with one library. -/
def exampleTree : SourceTree := { root := "/w", libraries := ["/lib"] }

/-- A disk with a file in the project and one in the library. -/
def exampleDisk : Disk :=
  { entries :=
      [("/w", .directory), ("/w/A.java", .file "class A {}".toUTF8), ("/lib", .directory),
        ("/lib/B.java", .file "class B {}".toUTF8)] }

/-- The files that are found there. -/
def exampleFiles : List ScannedFile :=
  [{ stored := "A.java", path := "/w/A.java", content := "class A {}".toUTF8, origin := .project },
    { stored := "/lib/B.java", path := "/lib/B.java", content := "class B {}".toUTF8,
      origin := .library }]

/-- An index of the first version with one file. -/
def exampleOld : Index :=
  { files :=
      [{ id := 7, path := "A.java", name := "A.java", origin := .project, digest := .cleared
         size := 10, package := "", wildcardImports := [], content := "class A {}" }] }

/-- A text is edited, the disk found empty, a file synchronized, and the library text is not yet
known: the run over all files still leaves what it would leave with nothing kept. -/
theorem reindex_converges_after_edits :
    sourceFiles exampleTree exampleDisk = .ok exampleFiles ∧
    ∃ after fresh again stats stats',
      (exampleOld.upgrade.run [.indexText "A.java" "class C {}", .reindex exampleTree {},
        .sync exampleTree exampleDisk ["/w/A.java"], .analyze "A.java"]).reindex
          exampleTree exampleDisk = .ok (after, stats) ∧
      reindex {} exampleTree exampleDisk = .ok (fresh, stats') ∧
      SameRows after fresh ∧
      after.reindex exampleTree exampleDisk = .ok (again, { scanned := 2, skipped := 2 }) ∧
      again.files = after.files ∧ again.declarations = after.declarations ∧
      again.members = after.members ∧ again.references = after.references := by
  have htree : exampleTree.Anchored := ⟨by decide +kernel, by decide +kernel⟩
  have hscanned : sourceFiles exampleTree exampleDisk = .ok exampleFiles :=
    eq_ok_of_toOption_eq_some (by decide +kernel)
  refine ⟨hscanned, reindex_converges (.upgraded ?_ ?_) ?_ ?_ htree (by decide +kernel) hscanned ?_⟩
  · constructor <;> decide
  · decide +kernel
  · -- An edit and an analysis ask for nothing, but a run over the tree asks for normal roots.
    intro a ha
    simp only [List.mem_cons, List.not_mem_nil, or_false] at ha
    rcases ha with rfl | rfl | rfl | rfl
    · trivial
    · exact ⟨htree, by decide +kernel⟩
    · exact ⟨htree, by decide +kernel⟩
    · trivial
  · intro a ha
    simp only [List.mem_cons, List.not_mem_nil, or_false] at ha
    rcases ha with rfl | rfl | rfl | rfl
    · exact (by decide +kernel : isAbsolute "A.java" = false)
    · trivial
    · trivial
    · trivial
  · intro f hf
    simp only [exampleFiles, List.mem_cons, List.not_mem_nil, or_false] at hf
    rcases hf with rfl | rfl
    · exact ScannedFile.indexable_iff.mpr ⟨by decide, "class A {}", rfl⟩
    · exact ScannedFile.indexable_iff.mpr ⟨by decide, "class B {}", rfl⟩

end Convergence

end Index

end JavaAtlas
