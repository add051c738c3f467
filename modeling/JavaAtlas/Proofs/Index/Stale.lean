import JavaAtlas.Proofs.Index.Convergence

namespace JavaAtlas.Index

open JavaAtlas.Path Scan

/-! # Rows that a run leaves

A run over all files takes in the files that can be indexed and drops the rows of those that are
gone. It passes over a file that can no longer be indexed, and so leaves its row.

* `content_of_revised`: a file that can be indexed is kept with its text;
* `reindex_leaves_nothing_stale_iff`: a row survives a run with an old text only if its file can no
  longer be indexed;
* `stale_row_survives_reindex`: such a row.
-/

variable {ix : Index} {known : String → Option FileEntry} {scanned : List ScannedFile}

/-- For every entry that is kept there is a row with its text. -/
theorem Keeps.exists_row_of_entry (h : ix.Keeps known) {path : String} {e : FileEntry}
    (he : known path = some e) :
    ∃ row ∈ ix.files, row.path = path ∧ row.content = e.file.content := by
  obtain ⟨id, hid⟩ := h.file?_eq path
  rw [he, Option.map_some] at hid
  exact ⟨_, List.mem_of_find?_eq_some hid, h.path_eq he, rfl⟩

/-- What a run keeps of a file that can be indexed has the text of the file. -/
theorem content_of_revised {old : Option FileEntry} {f : ScannedFile} {e : FileEntry}
    (hold : ∀ e, old = some e → e.OfOwnText) (hsize : f.size ≤ maxFileSize) {text : String}
    (htext : f.content = text.toUTF8) (he : revised old f = some e) : e.file.content = text := by
  by_cases hcurrent : ∃ e, old = some e ∧ e.file.digest = .ofContent f.content
  · obtain ⟨e', he', hdigest⟩ := hcurrent
    -- the digest is that of the text on disk, so the entry has this text
    rw [revised_of_current he' hdigest, he', Option.some_inj] at he
    subst he
    rw [(hold e' he').eq_ofText (htext ▸ hdigest)]
    rfl
  · rw [revised_of_text hsize htext fun e he hdigest => hcurrent ⟨e, he, hdigest⟩,
      Option.some_inj] at he
    subst he
    rfl

/-- A file can be read as a text exactly if its bytes are those of this text. -/
theorem readText_eq_ok_iff {disk : Disk} {path : String} {names : List String}
    {content : ByteArray} (hfind : disk.find path = .ok (names, .file content)) {text : String} :
    disk.readText path = .ok text ↔ content = text.toUTF8 := by
  have hread : disk.read path = .ok content := by
    unfold Disk.read
    rw [hfind]
    rfl
  unfold Disk.readText
  rw [hread, ← fromUTF8?_eq_some_iff]
  cases htext : String.fromUTF8? content with
  | none => simp [bind, Except.bind, htext]
  | some text' => simp [bind, Except.bind, htext]

/-- After a run, every row holds the text that its file has on disk exactly if, of the files that
cannot be indexed, none was kept before with another text. -/
theorem reindex_leaves_nothing_stale_iff {start : Index} (hstart : Start start)
    {actions : List Action} (hgrounded : ∀ a ∈ actions, a.Grounded) {tree : SourceTree}
    {disk : Disk} (htree : tree.Anchored) (hdisk : disk.WellFormed)
    (hscanned : sourceFiles tree disk = .ok scanned) {after : Index} {stats : IndexStats}
    (hreindex : (start.run actions).reindex tree disk = .ok (after, stats)) :
    (∀ row ∈ after.files, ∃ f ∈ scanned, f.stored = row.path ∧
      disk.readText f.path = .ok row.content) ↔
    ∀ f ∈ scanned, ¬ f.Indexable → ∀ row ∈ (start.run actions).files, row.path = f.stored →
      f.content = row.content.toUTF8 := by
  obtain ⟨known, hkeeps, hown⟩ := hstart.keepsOnly_ofOwnText.run ofScans_ofOwnText hgrounded
    fun path _ _ => ofTexts_ofOwnText path
  have hsame := consistent_sourceFiles hdisk htree hscanned
  have hafter := hkeeps.reindexFrom hsame
  rw [reindex_eq hscanned, Except.ok.injEq] at hreindex
  rw [hreindex] at hafter
  constructor
  · intro hfresh f hf hindexable row hrow hpath
    obtain ⟨e, he, heq⟩ := hkeeps.exists_entry_of_mem_files hrow
    have hcontent : e.file.content = row.content := by rw [heq]
    -- the run leaves the row of a file that it cannot index
    have hleft : reindexed known scanned f.stored = some e := by
      rw [reindexed_of_mem hsame hf, revised_of_not_indexable hindexable, ← hpath, he]
    obtain ⟨row', hrow', hpath', hcontent'⟩ := hafter.exists_row_of_entry hleft
    obtain ⟨g, hg, hstored, hread⟩ := hfresh row' hrow'
    obtain ⟨names, hnames⟩ := find_of_mem_sourceFiles hdisk htree hscanned hg
    rw [← hcontent, ← hcontent', ← (readText_eq_ok_iff hnames).mp hread]
    exact (hsame g hg f hf (hstored.trans hpath')).1.symm
  · intro hold row hrow
    obtain ⟨e, he, heq⟩ := hafter.exists_entry_of_mem_files hrow
    have hcontent : e.file.content = row.content := by rw [heq]
    obtain ⟨f, hfind, he⟩ := Option.bind_eq_some_iff.mp he
    have hf := List.mem_of_find?_eq_some hfind
    have hstored : f.stored = row.path := by simpa using List.find?_some hfind
    obtain ⟨names, hnames⟩ := find_of_mem_sourceFiles hdisk htree hscanned hf
    refine ⟨f, hf, hstored, (readText_eq_ok_iff hnames).mpr ?_⟩
    by_cases hindexable : f.Indexable
    · -- its row was written in this run, or had the digest of its text
      obtain ⟨hsize, text, htext⟩ := ScannedFile.indexable_iff.mp hindexable
      rw [← hcontent, content_of_revised (hown row.path) hsize htext he]
      exact htext
    · rw [revised_of_not_indexable hindexable] at he
      obtain ⟨row', hrow', hpath, hcontent'⟩ := hkeeps.exists_row_of_entry he
      rw [← hcontent, ← hcontent']
      exact hold f hf hindexable row' hrow' (hpath.trans hstored.symm)

/-- A project without libraries. -/
def plainTree : SourceTree := { root := "/w" }

/-- A disk with a source file that is text. -/
def textDisk : Disk :=
  { entries := [("/w", .directory), ("/w/A.java", .file "class A {}".toUTF8)] }

/-- The disk after the file was overwritten with a byte that is no text. -/
def spoiledDisk : Disk :=
  { entries := [("/w", .directory), ("/w/A.java", .file ⟨#[0xff]⟩)] }

/-- The file that is found first. -/
def textFile : ScannedFile :=
  { stored := "A.java", path := "/w/A.java", content := "class A {}".toUTF8, origin := .project }

/-- The file that is found after that. -/
def spoiledFile : ScannedFile :=
  { stored := "A.java", path := "/w/A.java", content := ⟨#[0xff]⟩, origin := .project }

/-- The root of the project is absolute. -/
theorem anchored_plainTree : plainTree.Anchored := ⟨by decide +kernel, by simp [plainTree]⟩

/-- The disk is a file system. -/
theorem wellFormed_textDisk : textDisk.WellFormed := by decide +kernel

/-- The spoiled disk is a file system. -/
theorem wellFormed_spoiledDisk : spoiledDisk.WellFormed := by decide +kernel

/-- The file is found. -/
theorem sourceFiles_textDisk : sourceFiles plainTree textDisk = .ok [textFile] :=
  eq_ok_of_toOption_eq_some (by decide +kernel)

/-- The file is still found when it is no text. -/
theorem sourceFiles_spoiledDisk : sourceFiles plainTree spoiledDisk = .ok [spoiledFile] :=
  eq_ok_of_toOption_eq_some (by decide +kernel)

/-- The first run takes the file in. -/
theorem run_textDisk : run {} [.reindex plainTree textDisk] = (reindexFrom {} [textFile]).1 := by
  unfold run Action.apply
  rw [List.foldl_cons, List.foldl_nil]
  dsimp only
  rw [reindex_eq sourceFiles_textDisk]

/-- The condition can be asked of a file that was text and no longer is. -/
theorem reindex_leaves_nothing_stale_iff_spoiled :
    ∃ after stats,
      (run {} [.reindex plainTree textDisk]).reindex plainTree spoiledDisk = .ok (after, stats) ∧
      ((∀ row ∈ after.files, ∃ f ∈ [spoiledFile], f.stored = row.path ∧
        spoiledDisk.readText f.path = .ok row.content) ↔
      ∀ f ∈ [spoiledFile], ¬ f.Indexable →
        ∀ row ∈ (run {} [.reindex plainTree textDisk]).files, row.path = f.stored →
          f.content = row.content.toUTF8) := by
  refine ⟨_, _, reindex_eq sourceFiles_spoiledDisk, ?_⟩
  refine reindex_leaves_nothing_stale_iff .empty ?_ anchored_plainTree wellFormed_spoiledDisk
    sourceFiles_spoiledDisk (reindex_eq sourceFiles_spoiledDisk)
  intro a ha
  rw [List.mem_singleton] at ha
  subst ha
  exact ⟨anchored_plainTree, wellFormed_textDisk⟩

/-- A run over all files leaves the row of a file that is no longer text, with the text it had. -/
theorem stale_row_survives_reindex :
    ∃ after stats,
      (run {} [.reindex plainTree textDisk]).reindex plainTree spoiledDisk = .ok (after, stats) ∧
      (∃ row ∈ after.files, row.path = "A.java" ∧ row.content = "class A {}") ∧
      ∀ text, spoiledDisk.readText "/w/A.java" ≠ .ok text := by
  -- a byte that no text begins with
  have hspoiled : ¬ (⟨#[0xff]⟩ : ByteArray).IsValidUTF8 := by
    rw [← ByteArray.validateUTF8_eq_true_iff]
    decide +kernel
  refine ⟨_, _, reindex_eq sourceFiles_spoiledDisk, ?_, ?_⟩
  · have htext := consistent_sourceFiles wellFormed_textDisk anchored_plainTree sourceFiles_textDisk
    have hsame := consistent_sourceFiles wellFormed_spoiledDisk anchored_plainTree
      sourceFiles_spoiledDisk
    rw [run_textDisk]
    refine ((keeps_empty.reindexFrom htext).reindexFrom hsame).exists_row_of_entry
      (e := .ofText "A.java" .project "class A {}") ?_
    rw [show "A.java" = spoiledFile.stored from rfl, reindexed_of_mem hsame List.mem_cons_self,
      revised_of_not_indexable fun h => hspoiled h.text,
      show spoiledFile.stored = textFile.stored from rfl, reindexed_of_mem htext List.mem_cons_self]
    exact revised_of_text (by decide) rfl (by simp)
  · intro text hread
    obtain ⟨names, hnames⟩ := find_of_mem_sourceFiles wellFormed_spoiledDisk anchored_plainTree
      sourceFiles_spoiledDisk List.mem_cons_self
    have hbytes := (readText_eq_ok_iff hnames).mp hread
    exact hspoiled (show spoiledFile.content.IsValidUTF8 from hbytes ▸ text.isValidUTF8)

end JavaAtlas.Index
