import JavaAtlas.Indexer
import JavaAtlas.Proofs.Index.Entries
import JavaAtlas.Proofs.Java.Owners

namespace JavaAtlas

/-! # What a run over all files leaves

A run over the files that were found takes an index to another one. What that one keeps is said by
`reindexed`, path by path: what was kept of a file that is gone is dropped, and what is kept of a
file that is there is that of its content, unless it cannot be indexed.

* `Index.Keeps.indexFile`: a file that can be indexed is kept as its text says, any other is left;
* `Index.Keeps.reindexFrom`: the run leaves what `reindexed` says;
* `Index.reindexFrom_of_current`: a run that finds nothing new changes nothing.
-/

/-- A file that can be indexed: it is text, and not too large. -/
structure ScannedFile.Indexable (f : ScannedFile) : Prop where
  size : f.size ≤ maxFileSize
  text : f.content.IsValidUTF8

/-- The entry of a file with a text. -/
def FileEntry.ofText (path : String) (origin : Origin) (text : String) : FileEntry :=
  .ofInput
    { path
      origin
      digest := .ofContent text.toUTF8
      size := text.utf8ByteSize
      content := text }
    (Java.extractText text)

/-- Bytes can be read as a text exactly if they are its encoding. -/
theorem fromUTF8?_eq_some_iff {content : ByteArray} {text : String} :
    String.fromUTF8? content = some text ↔ content = text.toUTF8 := by
  unfold String.fromUTF8?
  split
  next h =>
    rw [Option.some_inj]
    constructor
    · rintro rfl
      rfl
    · rintro rfl
      exact String.toByteArray_inj.mp rfl
  next h =>
    simp only [reduceCtorEq, false_iff]
    rintro rfl
    exact h text.isValidUTF8

/-- A file that can be indexed has a text. -/
theorem ScannedFile.Indexable.exists_text {f : ScannedFile} (h : f.Indexable) :
    ∃ text : String, f.content = text.toUTF8 :=
  ⟨⟨f.content, h.text⟩, rfl⟩

/-- A file can be indexed if it is small enough and a text. -/
theorem ScannedFile.indexable_iff {f : ScannedFile} :
    f.Indexable ↔ f.size ≤ maxFileSize ∧ ∃ text : String, f.content = text.toUTF8 := by
  constructor
  · intro h
    exact ⟨h.size, h.exists_text⟩
  · rintro ⟨hsize, text, htext⟩
    exact ⟨hsize, htext ▸ text.isValidUTF8⟩

namespace Index

/-! ## One file -/

section OneFile

variable {ix : Index} {known : String → Option FileEntry}

/-- What is kept at a path has this path. -/
theorem Keeps.path_eq (h : ix.Keeps known) {path : String} {e : FileEntry}
    (he : known path = some e) : e.path = path := by
  obtain ⟨entries, n, hstored, hknown⟩ := h
  rw [← hknown] at he
  exact ((entryAt_eq_some_iff hstored.paths).mp he).2

/-- A path is in the index exactly if something is kept at it. -/
theorem Keeps.mem_paths_iff (h : ix.Keeps known) {path : String} :
    path ∈ ix.files.map (·.path) ↔ (known path).isSome = true := by
  obtain ⟨entries, n, hstored, hknown⟩ := h
  rw [(hstored.files.map (·.path)).mem_iff, List.map_map, ← hknown, entryAt, List.find?_isSome]
  simp

/-- The index has the content of a file exactly if what is kept at its path has the digest. -/
theorem Keeps.hasContent_iff (h : ix.Keeps known) {f : ScannedFile} :
    ix.hasContent f = true ↔
      ∃ e, known f.stored = some e ∧ e.file.digest = .ofContent f.content := by
  obtain ⟨id, hid⟩ := h.file?_eq f.stored
  unfold hasContent digest?
  rw [hid, beq_iff_eq]
  cases known f.stored with
  | none => simp
  | some e => simp

/-- Texts are always indexed. -/
theorem Keeps.replaceFile_ofText (h : ix.Keeps known) (path : String) (origin : Origin)
    (text : String) :
    ∃ ix', ix.replaceFile
        { path
          origin
          digest := .ofContent text.toUTF8
          size := text.utf8ByteSize
          content := text }
        (Java.extractText text) = .ok (ix', countsOf (Java.extractText text)) ∧
      ix'.Keeps (Function.update known path (some (.ofText path origin text))) :=
  h.replaceFile _ (Java.extract_members_owned text _)

/-- A file that can be indexed is replaced by what its text says. -/
theorem indexFile_of_text {f : ScannedFile} (hsize : f.size ≤ maxFileSize) {text : String}
    (htext : f.content = text.toUTF8) :
    ix.indexFile f = ix.replaceFile
      { path := f.stored
        origin := f.origin
        digest := .ofContent text.toUTF8
        size := text.utf8ByteSize
        content := text }
      (Java.extractText text) := by
  have hbytes : f.size = text.utf8ByteSize := by
    rw [ScannedFile.size, htext]
    rfl
  unfold Index.indexFile
  rw [if_neg (by omega), fromUTF8?_eq_some_iff.mpr htext, htext, hbytes]

/-- A file that can be indexed is kept as its text says. -/
theorem Keeps.indexFile (h : ix.Keeps known) {f : ScannedFile} (hsize : f.size ≤ maxFileSize)
    {text : String} (htext : f.content = text.toUTF8) :
    ∃ ix' counts, ix.indexFile f = .ok (ix', counts) ∧
      ix'.Keeps (Function.update known f.stored (some (.ofText f.stored f.origin text))) := by
  obtain ⟨ix', hix', hkeeps⟩ := h.replaceFile_ofText f.stored f.origin text
  rw [indexFile_of_text hsize htext]
  exact ⟨ix', countsOf (Java.extractText text), hix', hkeeps⟩

/-- A file that cannot be indexed changes nothing. -/
theorem indexFile_of_not_indexable {f : ScannedFile} (hf : ¬ f.Indexable) :
    ix.indexFile f = .ok (ix, {}) ∨ ∃ e, ix.indexFile f = .error e := by
  unfold Index.indexFile
  split
  · exact Or.inl rfl
  next hsize =>
    cases htext : String.fromUTF8? f.content with
    | none => exact Or.inr ⟨_, rfl⟩
    | some text =>
      exact absurd (ScannedFile.indexable_iff.mpr
        ⟨by omega, text, fromUTF8?_eq_some_iff.mp htext⟩) hf

end OneFile

/-! ## All files -/

/-- Files that would be stored under one path are the same. -/
def Consistent (scanned : List ScannedFile) : Prop :=
  ∀ f ∈ scanned, ∀ g ∈ scanned, f.stored = g.stored → f.content = g.content ∧ f.origin = g.origin

/-- What is kept of a file that was found, given what was kept before. -/
def revised (old : Option FileEntry) (f : ScannedFile) : Option FileEntry :=
  if old.map (·.file.digest) = some (.ofContent f.content) ∨ f.size > maxFileSize then old
  else
    match String.fromUTF8? f.content with
    | none => old
    | some text => some (.ofText f.stored f.origin text)

/-- What is kept after a run over all files that were found. -/
def reindexed (known : String → Option FileEntry) (scanned : List ScannedFile) (path : String) :
    Option FileEntry :=
  (scanned.find? (·.stored == path)).bind (revised (known path))

section AllFiles

variable {ix : Index} {known now : String → Option FileEntry} {scanned : List ScannedFile}

/-- A file with the digest that is kept changes nothing. -/
theorem revised_of_current {old : Option FileEntry} {f : ScannedFile} {e : FileEntry}
    (he : old = some e) (hdigest : e.file.digest = .ofContent f.content) : revised old f = old := by
  unfold revised
  rw [if_pos (Or.inl (by simp [he, hdigest]))]

/-- A file that cannot be indexed changes nothing. -/
theorem revised_of_not_indexable {old : Option FileEntry} {f : ScannedFile}
    (hf : ¬ f.Indexable) : revised old f = old := by
  unfold revised
  split
  · rfl
  next hsize =>
    cases htext : String.fromUTF8? f.content with
    | none => rfl
    | some text =>
      exact absurd (ScannedFile.indexable_iff.mpr
        ⟨by omega, text, fromUTF8?_eq_some_iff.mp htext⟩) hf

/-- A text with another digest takes the place of what was kept. -/
theorem revised_of_text {old : Option FileEntry} {f : ScannedFile} {text : String}
    (hsize : f.size ≤ maxFileSize) (htext : f.content = text.toUTF8)
    (hold : ∀ e, old = some e → e.file.digest ≠ .ofContent f.content) :
    revised old f = some (.ofText f.stored f.origin text) := by
  unfold revised
  rw [if_neg, fromUTF8?_eq_some_iff.mpr htext]
  rw [not_or]
  refine ⟨?_, by omega⟩
  cases old with
  | none => simp
  | some e => simpa using hold e rfl

/-- What is kept of a file is told by its stored path, its content and its origin. -/
theorem revised_congr {old : Option FileEntry} {f g : ScannedFile} (hstored : f.stored = g.stored)
    (hcontent : f.content = g.content) (horigin : f.origin = g.origin) :
    revised old f = revised old g := by
  have hsize : f.size = g.size := by rw [ScannedFile.size, ScannedFile.size, hcontent]
  unfold revised
  rw [hstored, hcontent, horigin, hsize]

/-- What is kept of a file that was found does not depend on where it was found first. -/
theorem reindexed_of_mem (hsame : Consistent scanned) {f : ScannedFile} (hf : f ∈ scanned) :
    reindexed known scanned f.stored = revised (known f.stored) f := by
  obtain ⟨g, hfind⟩ : ∃ g, scanned.find? (·.stored == f.stored) = some g := by
    rw [← Option.isSome_iff_exists, List.find?_isSome]
    exact ⟨f, hf, by simp⟩
  have hg := List.mem_of_find?_eq_some hfind
  have hstored : g.stored = f.stored := by simpa using List.find?_some hfind
  obtain ⟨hcontent, horigin⟩ := hsame g hg f hf hstored
  unfold reindexed
  rw [hfind, Option.bind_some, revised_congr hstored hcontent horigin]

/-- A path that is not scanned is not kept. -/
theorem reindexed_of_not_mem {path : String} (h : ∀ f ∈ scanned, f.stored ≠ path) :
    reindexed known scanned path = none := by
  have hfind : scanned.find? (·.stored == path) = none := by
    rw [List.find?_eq_none]
    intro f hf
    simpa using h f hf
  unfold reindexed
  rw [hfind, Option.bind_none]

/-- One file of a run: the file is kept as it is to be, all others are left. -/
theorem Keeps.reindexFile {before : Index} (hbefore : before.Keeps known) (h : ix.Keeps now)
    (stats : IndexStats) (f : ScannedFile)
    (hnow : now f.stored = known f.stored ∨ now f.stored = revised (known f.stored) f) :
    (reindexFile before (ix, stats) f).1.Keeps
      (Function.update now f.stored (revised (known f.stored) f)) := by
  have hleft : revised (known f.stored) f = known f.stored →
      Function.update now f.stored (revised (known f.stored) f) = now := by
    intro hsame
    rw [hsame, or_self] at hnow
    rw [hsame, ← hnow, Function.update_eq_self]
  unfold Index.reindexFile
  dsimp only
  split
  next hcurrent =>
    -- the digest was looked up before the run, not in the index as it now is
    obtain ⟨e, he, hdigest⟩ := hbefore.hasContent_iff.mp hcurrent
    rw [hleft (revised_of_current he hdigest)]
    exact h
  next hcurrent =>
    by_cases hf : f.Indexable
    · obtain ⟨hsize, text, htext⟩ := ScannedFile.indexable_iff.mp hf
      obtain ⟨ix', counts, hindex, hkeeps⟩ := h.indexFile hsize htext
      rw [hindex, revised_of_text hsize htext]
      · exact hkeeps
      · intro e he hdigest
        exact hcurrent (hbefore.hasContent_iff.mpr ⟨e, he, hdigest⟩)
    · rw [hleft (revised_of_not_indexable hf)]
      rcases indexFile_of_not_indexable hf with hindex | ⟨e, hindex⟩
      · rw [hindex]
        exact h
      · rw [hindex]
        exact h

/-- All files of a run. The induction is on the files that are still to come: under the path of
each of them stands either what was kept before the run or already what is to be kept. -/
theorem Keeps.foldl_reindexFile {before : Index} (hbefore : before.Keeps known)
    (hsame : Consistent scanned) (h : ix.Keeps now) (stats : IndexStats)
    (hnow : ∀ f ∈ scanned,
      now f.stored = known f.stored ∨ now f.stored = revised (known f.stored) f) :
    (scanned.foldl (Index.reindexFile before) (ix, stats)).1.Keeps fun path =>
      match scanned.find? (·.stored == path) with
      | some f => revised (known path) f
      | none => now path := by
  -- On the files. At the paths of those behind stands what was known, or what an equal file made
  -- of it.
  induction scanned generalizing ix now stats with
  | nil => exact h
  | cons f rest ih =>
    have hstep := hbefore.reindexFile h stats f (hnow f List.mem_cons_self)
    have hfrest : ∀ g ∈ rest, g.stored = f.stored →
        revised (known f.stored) g = revised (known f.stored) f := by
      intro g hg hstored
      obtain ⟨hcontent, horigin⟩ :=
        hsame g (List.mem_cons_of_mem f hg) f List.mem_cons_self hstored
      exact revised_congr hstored hcontent horigin
    have hrest := ih (fun g hg g' hg' => hsame g (List.mem_cons_of_mem f hg) g'
      (List.mem_cons_of_mem f hg')) hstep (Index.reindexFile before (ix, stats) f).2 (by
        intro g hg
        by_cases hstored : g.stored = f.stored
        · rw [hstored, Function.update_self, hfrest g hg hstored]
          exact Or.inr rfl
        · rw [Function.update_of_ne hstored]
          exact hnow g (List.mem_cons_of_mem f hg))
    rw [List.foldl_cons]
    convert hrest using 1
    funext path
    -- a path that is found again is kept the same again, so the first file found tells what is kept
    by_cases hpath : f.stored = path
    · subst hpath
      rw [List.find?_cons_of_pos (by simp)]
      cases hfind : rest.find? (·.stored == f.stored) with
      | none => simp
      | some g =>
        have hstored : g.stored = f.stored := by simpa using List.find?_some hfind
        exact (hfrest g (List.mem_of_find?_eq_some hfind) hstored).symm
    · rw [List.find?_cons_of_neg (by simpa using hpath)]
      cases rest.find? (·.stored == path) with
      | none => simp [Ne.symm hpath]
      | some g => rfl

/-- After files are dropped, nothing is kept at their paths. -/
theorem Keeps.deleteFiles (h : ix.Keeps known) (paths : List String) :
    (ix.deleteFiles paths).Keeps fun path => if path ∈ paths then none else known path := by
  induction paths generalizing ix known with
  | nil => simpa [Index.deleteFiles] using h
  | cons gone paths ih =>
    have hrest := ih (h.deleteFile gone).1
    unfold Index.deleteFiles at hrest ⊢
    rw [List.foldl_cons]
    convert hrest using 1
    funext path
    by_cases hgone : path = gone
    · simp [hgone]
    · simp [hgone]

/-- A run over all files leaves what `reindexed` says. -/
theorem Keeps.reindexFrom (h : ix.Keeps known) (hsame : Consistent scanned) :
    (ix.reindexFrom scanned).1.Keeps (reindexed known scanned) := by
  have hindexed := h.foldl_reindexFile hsame h { scanned := scanned.length }
    fun f _ => Or.inl rfl
  have hdeleted := (hindexed.deleteFiles
    ((ix.files.map (·.path)).filter fun p => !scanned.any (·.stored == p))).noteIndexed
  unfold Index.reindexFrom
  convert hdeleted using 1
  funext path
  unfold reindexed
  simp only [List.mem_filter, h.mem_paths_iff, Bool.not_eq_true', List.any_eq_false, beq_iff_eq]
  cases hfind : scanned.find? (·.stored == path) with
  | some f =>
    -- a path that was found is not among those that are gone
    have hmem := List.mem_of_find?_eq_some hfind
    have hstored : f.stored = path := by simpa using List.find?_some hfind
    rw [if_neg]
    · rfl
    · rintro ⟨-, hnone⟩
      exact hnone f hmem hstored
  | none =>
    rw [List.find?_eq_none] at hfind
    simp only [beq_iff_eq] at hfind
    cases hknown : known path with
    | none => simp
    | some e =>
      rw [if_pos ⟨rfl, hfind⟩]
      rfl

/-- Files that are current are only counted. -/
theorem foldl_reindexFile_of_current {before : Index} (stats : IndexStats)
    (hcurrent : ∀ f ∈ scanned, before.hasContent f = true) :
    scanned.foldl (Index.reindexFile before) (ix, stats) =
      (ix, { stats with skipped := stats.skipped + scanned.length }) := by
  induction scanned generalizing stats with
  | nil => rfl
  | cons f rest ih =>
    have hf : Index.reindexFile before (ix, stats) f =
        (ix, { stats with skipped := stats.skipped + 1 }) := by
      unfold Index.reindexFile
      dsimp only
      rw [if_pos (hcurrent f List.mem_cons_self)]
    rw [List.foldl_cons, hf, ih _ fun g hg => hcurrent g (List.mem_cons_of_mem f hg)]
    simp only [List.length_cons, Nat.add_assoc, Nat.add_comm 1]

/-- A run that finds every file as it is kept, and no other kept, changes nothing. -/
theorem reindexFrom_of_current (hcurrent : ∀ f ∈ scanned, ix.hasContent f = true)
    (hfound : ∀ path ∈ ix.files.map (·.path), ∃ f ∈ scanned, f.stored = path) :
    ix.reindexFrom scanned =
      (ix.noteIndexed, { scanned := scanned.length, skipped := scanned.length }) := by
  have hgone : ((ix.files.map (·.path)).filter fun p => !scanned.any (·.stored == p)) = [] := by
    rw [List.filter_eq_nil_iff]
    intro path hpath
    obtain ⟨f, hf, hstored⟩ := hfound path hpath
    simpa using ⟨f, hf, hstored⟩
  unfold Index.reindexFrom
  dsimp only
  rw [hgone, foldl_reindexFile_of_current _ hcurrent]
  simp [Index.deleteFiles]

end AllFiles

end Index

end JavaAtlas
