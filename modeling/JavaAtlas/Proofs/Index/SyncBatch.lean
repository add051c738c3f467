import JavaAtlas.Proofs.Disk
import JavaAtlas.Proofs.Index.Held
import JavaAtlas.Proofs.Index.History
import JavaAtlas.Proofs.Index.Sighting
import JavaAtlas.Proofs.StoredPaths

namespace JavaAtlas

open JavaAtlas.Path

/-! # Changed paths, one among others

Changed paths are taken into an index one after the other, up to the first that must not be read.

* `Index.Held.after`: what becomes of a file, given what is found at its path;
* `Index.Holds.syncPath`, `Index.Holds.syncFrom`: what one path and a list of them do to an index;
* `Index.heldAfter_of_alike`: paths that are stored alike do together what each of them does;
* `Index.sync_like_alone_iff`: when a path of a list ends as it would alone.
-/

/-- How many files were indexed or dropped. -/
def SyncStats.changed (stats : SyncStats) : Nat := stats.indexed + stats.deleted

namespace Index

/-- What is held of a file that was found, given what was held before. -/
def Held.withFile (old : Held) (stored : String) (origin : Origin) (content : ByteArray) : Held :=
  if old.entry.map (·.file.digest) = some (.ofContent content) ∨ content.size > maxFileSize then old
  else
    match String.fromUTF8? content with
    | none => old
    | some text => { entry := some (.ofText stored origin text), markers := [] }

/-- What is held of a path after it was dealt with. -/
def Held.after (old : Held) : Sighting → Held
  | .other | .locked _ => old
  | .gone _ => .nothing
  | .file stored origin content => old.withFile stored origin content

/-- What is held after one path was dealt with. -/
def heldWith (held : String → Held) (s : Sighting) : String → Held :=
  fun path => if s.stored? = some path then (held path).after s else held path

/-- What is held after several paths were dealt with. -/
def heldAfter (tree : SourceTree) (disk : Disk) (held : String → Held) (paths : List String) :
    String → Held :=
  paths.foldl (fun held path => heldWith held (sight tree disk path)) held

/-- The paths before the first that must not be read. -/
def reached (tree : SourceTree) (disk : Disk) (paths : List String) : List String :=
  paths.takeWhile fun path => !(sight tree disk path).isLocked

/-- No path is listed both as that of a file and as that of a directory. -/
def WrittenAlike (paths : List String) : Prop :=
  ∀ path ∈ paths, ∀ other ∈ paths, components path = components other →
    Disk.namesDirectory path = Disk.namesDirectory other

variable {tree : SourceTree} {disk : Disk} {ix : Index} {held : String → Held}
  {path stored : String} {origin : Origin} {content : ByteArray} {paths : List String}
  {s : Sighting} {stats : SyncStats}

/-! ## What is held of one path -/

/-- A text with another digest takes the place of what was held, without diagnostics. -/
theorem Held.withFile_of_text {old : Held} {text : String} (hsize : content.size ≤ maxFileSize)
    (htext : content = text.toUTF8)
    (hold : old.entry.map (·.file.digest) ≠ some (.ofContent content)) :
    old.withFile stored origin content =
      { entry := some (.ofText stored origin text), markers := [] } := by
  unfold withFile
  rw [if_neg, fromUTF8?_eq_some_iff.mpr htext]
  rw [not_or]
  exact ⟨hold, by omega⟩

/-- A file with the digest that is held changes nothing. -/
theorem Held.withFile_of_current {old : Held}
    (hcurrent : old.entry.map (·.file.digest) = some (.ofContent content)) :
    old.withFile stored origin content = old := by
  unfold withFile
  rw [if_pos (.inl hcurrent)]

/-- A file that cannot be indexed changes nothing. -/
theorem Held.withFile_of_not_text {old : Held}
    (hnot : ¬ (content.size ≤ maxFileSize ∧ ∃ text : String, content = text.toUTF8)) :
    old.withFile stored origin content = old := by
  unfold withFile
  split
  · rfl
  next hsize =>
    cases htext : String.fromUTF8? content with
    | none => rfl
    | some text =>
      exact absurd ⟨by omega, text, fromUTF8?_eq_some_iff.mp htext⟩ hnot

/-- A path that is dealt with again stays as it is. -/
theorem Held.after_after (old : Held) (s : Sighting) : (old.after s).after s = old.after s := by
  cases s with
  | other | locked _ | gone _ => rfl
  | file stored origin content =>
    show (old.withFile stored origin content).withFile stored origin content =
      old.withFile stored origin content
    by_cases hcurrent : old.entry.map (·.file.digest) = some (.ofContent content)
    · rw [withFile_of_current hcurrent, withFile_of_current hcurrent]
    · by_cases htext : content.size ≤ maxFileSize ∧ ∃ text : String, content = text.toUTF8
      · obtain ⟨hsize, text, htext⟩ := htext
        rw [withFile_of_text hsize htext hcurrent]
        -- the new entry has the digest of the bytes
        apply withFile_of_current
        rw [htext]
        rfl
      · rw [withFile_of_not_text htext, withFile_of_not_text htext]

/-- What has no stored path changes nothing. -/
theorem Held.after_of_stored?_none (old : Held) (h : s.stored? = none) : old.after s = old := by
  cases s with
  | other | locked _ => rfl
  | gone _ | file _ _ _ => cases h

/-- The same of all that is held. -/
theorem heldWith_of_stored?_none (h : s.stored? = none) : heldWith held s = held := by
  funext other
  rw [heldWith, h, if_neg nofun]

/-- What is seen changes what is held at its stored path only. -/
theorem heldWith_eq_update (h : s.stored? = some stored) :
    heldWith held s = Function.update held stored ((held stored).after s) := by
  funext other
  rw [heldWith, h]
  by_cases hother : other = stored
  · subst hother
    simp
  · have hne : some stored ≠ some other := fun heq => hother (Option.some_inj.mp heq).symm
    rw [if_neg hne, Function.update_of_ne hother]

/-- What is held stays if what is seen does not change it there. -/
theorem heldWith_eq_self (h : s.stored? = some stored)
    (hsame : (held stored).after s = held stored) : heldWith held s = held := by
  rw [heldWith_eq_update h, hsame, Function.update_eq_self]

/-- Paths that are stored alike do together what one of them does. The induction is on the paths
still to come; a path that comes again changes nothing. -/
theorem heldAfter_of_alike
    (halike : ∀ path ∈ paths, (sight tree disk path).stored? = some stored →
      sight tree disk path = s) :
    heldAfter tree disk held paths stored =
      if ∃ path ∈ paths, (sight tree disk path).stored? = some stored
      then (held stored).after s else held stored := by
  induction paths generalizing held with
  | nil => simp [heldAfter]
  | cons path rest ih =>
    have hrest : heldAfter tree disk (heldWith held (sight tree disk path)) rest stored =
        if ∃ path ∈ rest, (sight tree disk path).stored? = some stored
        then (heldWith held (sight tree disk path) stored).after s
        else heldWith held (sight tree disk path) stored :=
      ih fun other hother => halike other (List.mem_cons_of_mem path hother)
    have hcons : heldAfter tree disk held (path :: rest) =
        heldAfter tree disk (heldWith held (sight tree disk path)) rest := rfl
    rw [hcons, hrest]
    by_cases hpath : (sight tree disk path).stored? = some stored
    · have hfirst : heldWith held (sight tree disk path) stored = (held stored).after s := by
        rw [heldWith, if_pos hpath, halike path List.mem_cons_self hpath]
      have hsome : ∃ other ∈ path :: rest, (sight tree disk other).stored? = some stored :=
        ⟨path, List.mem_cons_self, hpath⟩
      -- whether the path comes again or not, it is as after the first time
      rw [hfirst, if_pos hsome, Held.after_after, ite_self]
    · have hfirst : heldWith held (sight tree disk path) stored = held stored := by
        rw [heldWith, if_neg hpath]
      rw [hfirst]
      simp [hpath]

/-! ## What is found -/

/-- The same is found under listed paths with the same components. -/
theorem sight_eq_of_components (htree : tree.Anchored) (hwritten : WrittenAlike paths)
    (hpath : path ∈ paths)
    (hlocate : locate tree.root tree.libraries path = some (stored, origin)) {other : String}
    (hother : other ∈ paths) (hcomponents : components other = components path) :
    sight tree disk other = sight tree disk path := by
  have habs : isAbsolute path = true :=
    isAbsolute_of_locate htree.root htree.libraries hlocate
  have habs' : isAbsolute other = true :=
    isAbsolute_of_locate htree.root htree.libraries ((locate_congr hcomponents).trans hlocate)
  have hfind : disk.find other = disk.find path :=
    Disk.find_congr habs' habs hcomponents (hwritten other hother path hpath hcomponents)
  unfold sight
  rw [locate_congr hcomponents, hfind, isSource_congr hcomponents]

/-- Listed paths that are stored alike have the same components. -/
theorem components_eq_of_stored? (htree : tree.Anchored)
    (hlocate : locate tree.root tree.libraries path = some (stored, origin)) {other : String}
    (hstored : (sight tree disk other).stored? = some stored) :
    components other = components path := by
  obtain ⟨origin', hlocate'⟩ := locate_of_stored? hstored
  have habs := isAbsolute_of_locate htree.root htree.libraries hlocate
  have habs' := isAbsolute_of_locate htree.root htree.libraries hlocate'
  exact components_eq_of_stored_alike htree.root habs' habs hlocate' hlocate

/-! ## One changed path -/

/-- What one path does to an index: what is held of it changes as it is to, and if no file was
counted, nothing changes. -/
structure Dealt (held : String → Held) (s : Sighting) (before after : Index × SyncStats) : Prop where
  holds : after.1.Holds (heldWith held s)
  counted : before.2.changed ≤ after.2.changed
  unchanged : after.2.changed = before.2.changed → after.1 = before.1

/-- A path that is passed over. -/
theorem Holds.dealt_of_same (h : ix.Holds held) (hsame : heldWith held s = held)
    {stats' : SyncStats} (hcounted : stats.changed ≤ stats'.changed) :
    Dealt held s (ix, stats) (ix, stats') where
  holds := by
    rw [hsame]
    exact h
  counted := hcounted
  unchanged _ := rfl

/-- A file that is gone is dropped, and counted if it was there. -/
theorem Holds.dealt_gone (h : ix.Holds held) (stored : String) :
    Dealt held (.gone stored) (ix, stats)
      ((ix.deleteFile stored).1, if (ix.deleteFile stored).2
        then { stats with deleted := stats.deleted + 1 } else stats) := by
  constructor
  case holds =>
    rw [heldWith_eq_update rfl]
    exact h.deleteFile stored
  case counted =>
    show stats.changed ≤ SyncStats.changed (if _ then _ else stats)
    unfold SyncStats.changed
    split
    · dsimp only
      omega
    · omega
  case unchanged =>
    intro hsame
    show (ix.deleteFile stored).1 = ix
    cases hrow : ix.file? stored with
    | none => rw [Index.deleteFile, hrow]
    | some row =>
      -- a row that was there is counted
      have hthere : (ix.deleteFile stored).2 = true := by rw [Index.deleteFile, hrow]
      simp only [hthere, SyncStats.changed, if_true] at hsame
      omega

/-- A file that can be indexed, and was not with this content. -/
theorem Holds.dealt_text (h : ix.Holds held) {f : ScannedFile} (hf : f.Indexable)
    (hold : (held f.stored).entry.map (·.file.digest) ≠ some (.ofContent f.content)) :
    ∃ ix' counts, ix.indexFile f = .ok (ix', counts) ∧
      Dealt held (.file f.stored f.origin f.content) (ix, stats) (ix', { stats with
        indexed := stats.indexed + 1
        declarations := stats.declarations + counts.declarations
        references := stats.references + counts.references }) := by
  obtain ⟨hsize, text, htext⟩ := ScannedFile.indexable_iff.mp hf
  obtain ⟨ix', counts, hindex, hholds⟩ := h.indexFile hsize htext
  refine ⟨ix', counts, hindex, ?_⟩
  constructor
  case holds =>
    have hheld : (held f.stored).after (.file f.stored f.origin f.content) =
        { entry := some (.ofText f.stored f.origin text), markers := [] } :=
      Held.withFile_of_text hsize htext hold
    rw [heldWith_eq_update rfl, hheld]
    exact hholds
  case counted =>
    simp only [SyncStats.changed]
    omega
  case unchanged =>
    intro hsame
    simp only [SyncStats.changed] at hsame
    omega

/-- A file that is seen is dealt with as its content asks for. -/
theorem Holds.syncPath_of_file (h : ix.Holds held) (stats : SyncStats)
    (hsight : sight tree disk path = .file stored origin content) :
    ∃ after, Index.syncPath tree disk (ix, stats) path = .ok after ∧
      Dealt held (.file stored origin content) (ix, stats) after := by
  let f : ScannedFile := { stored, path, content, origin }
  have hentry : ix.hasContent f = true ↔
      ∃ e, (held stored).entry = some e ∧ e.file.digest = .ofContent content :=
    h.keeps.hasContent_iff
  rw [syncPath_eq, hsight]
  dsimp only
  split
  next hcurrent =>
    -- The digest is that of the content, so nothing is written.
    obtain ⟨e, he, hdigest⟩ := hentry.mp hcurrent
    have hsame : (held stored).after (.file stored origin content) = held stored := by
      apply Held.withFile_of_current
      rw [he, Option.map_some, hdigest]
    exact ⟨_, rfl, h.dealt_of_same (heldWith_eq_self rfl hsame) (Nat.le_refl _)⟩
  next hcurrent =>
    by_cases hf : f.Indexable
    · have hold : (held stored).entry.map (·.file.digest) ≠ some (.ofContent content) := by
        intro hdigest
        obtain ⟨e, he, hdigest⟩ := Option.map_eq_some_iff.mp hdigest
        exact hcurrent (hentry.mpr ⟨e, he, hdigest⟩)
      obtain ⟨ix', counts, hindex, hdealt⟩ := h.dealt_text hf hold
      rw [hindex]
      exact ⟨_, rfl, hdealt⟩
    · -- one that is too large is counted all the same, one that is no text is an error
      have hsame : (held stored).after (.file stored origin content) = held stored :=
        Held.withFile_of_not_text fun htext => hf (ScannedFile.indexable_iff.mpr htext)
      have hresult : ix.indexFile f = .ok (ix, {}) ∨ ∃ e, ix.indexFile f = .error e :=
        indexFile_of_not_indexable hf
      rcases hresult with hindex | ⟨e, hindex⟩
      · rw [hindex]
        refine ⟨_, rfl, h.dealt_of_same (heldWith_eq_self rfl hsame) ?_⟩
        simp only [SyncStats.changed]
        omega
      · rw [hindex]
        exact ⟨_, rfl, h.dealt_of_same (heldWith_eq_self rfl hsame) (Nat.le_refl _)⟩

/-- A path that can be read, if there is a file, is dealt with. -/
theorem Holds.syncPath (h : ix.Holds held) (stats : SyncStats)
    (hread : (sight tree disk path).isLocked = false) :
    ∃ after, Index.syncPath tree disk (ix, stats) path = .ok after ∧
      Dealt held (sight tree disk path) (ix, stats) after := by
  cases hsight : sight tree disk path with
  | other =>
    rw [syncPath_eq, hsight]
    exact ⟨_, rfl, h.dealt_of_same (heldWith_of_stored?_none rfl) (Nat.le_refl _)⟩
  | gone stored =>
    rw [syncPath_eq, hsight]
    exact ⟨_, rfl, h.dealt_gone stored⟩
  | file stored origin content => exact h.syncPath_of_file stats hsight
  | locked fault =>
    rw [hsight] at hread
    cases hread

/-- A file that cannot be read ends the synchronization. -/
theorem exists_syncPath_eq_error (ix : Index) (stats : SyncStats)
    (hlocked : (sight tree disk path).isLocked = true) :
    ∃ failure, Index.syncPath tree disk (ix, stats) path = .error failure := by
  rw [syncPath_eq]
  cases hsight : sight tree disk path with
  | locked fault => exact ⟨_, rfl⟩
  | other | gone _ | file _ _ _ =>
    rw [hsight] at hlocked
    cases hlocked

/-! ## A list of changed paths -/

/-- What a list of paths does to an index: it deals with those before the first that must not be
read, and it ends well if there is none. The induction is on the paths still to come. -/
theorem Holds.syncFrom (h : ix.Holds held) (tree : SourceTree) (disk : Disk) (paths : List String)
    (stats : SyncStats) :
    (Index.syncFrom tree disk paths (ix, stats)).1.Holds
      (heldAfter tree disk held (reached tree disk paths)) ∧
    ((∃ stats', (Index.syncFrom tree disk paths (ix, stats)).2 = .ok stats') ↔
      ∀ path ∈ paths, (sight tree disk path).isLocked = false) ∧
    (∀ stats', (Index.syncFrom tree disk paths (ix, stats)).2 = .ok stats' →
      stats.changed ≤ stats'.changed ∧
      (stats'.changed = 0 → (Index.syncFrom tree disk paths (ix, stats)).1 = ix)) := by
  induction paths generalizing ix held stats with
  | nil =>
    unfold Index.syncFrom
    split
    next hcount =>
      refine ⟨h.noteIndexed, by simp, ?_⟩
      rintro stats' ⟨⟩
      refine ⟨Nat.le_refl _, ?_⟩
      intro hnone
      unfold SyncStats.changed at hnone
      omega
    next =>
      refine ⟨h, by simp, ?_⟩
      rintro stats' ⟨⟩
      exact ⟨Nat.le_refl _, fun _ => rfl⟩
  | cons path rest ih =>
    cases hlocked : (sight tree disk path).isLocked with
    | true =>
      -- the run ends here with an error, and nothing was reached from here on
      obtain ⟨failure, hstep⟩ := exists_syncPath_eq_error ix stats hlocked
      have hreached : reached tree disk (path :: rest) = [] := by
        unfold reached
        rw [List.takeWhile_cons_of_neg (by simp [hlocked])]
      rw [Index.syncFrom, hstep, hreached]
      refine ⟨h, ?_, nofun⟩
      constructor
      · rintro ⟨stats', ⟨⟩⟩
      · intro hall
        rw [hall path List.mem_cons_self] at hlocked
        cases hlocked
    | false =>
      obtain ⟨after, hstep, hdealt⟩ := h.syncPath stats hlocked
      have hreached : reached tree disk (path :: rest) = path :: reached tree disk rest := by
        unfold reached
        rw [List.takeWhile_cons_of_pos (by simp [hlocked])]
      obtain ⟨hholds, hok, hcount⟩ := ih hdealt.holds after.2
      rw [Index.syncFrom, hstep, hreached]
      refine ⟨hholds, ?_, ?_⟩
      · rw [List.forall_mem_cons, hok]
        exact ⟨fun hrest => ⟨hlocked, hrest⟩, fun hall => hall.2⟩
      · -- counts never fall, so none in the end is none for this path, too
        intro stats' hstats
        obtain ⟨hle, hsame⟩ := hcount stats' hstats
        have hfirst := hdealt.counted
        refine ⟨Nat.le_trans hfirst hle, ?_⟩
        intro hnone
        rw [hsame hnone]
        exact hdealt.unchanged (by omega)

/-! ## One path of the list -/

/-- A path that is stored somewhere is dealt with there, if at all. -/
theorem heldWith_sight (hlocate : locate tree.root tree.libraries path = some (stored, origin)) :
    heldWith held (sight tree disk path) stored = (held stored).after (sight tree disk path) := by
  cases hstored : (sight tree disk path).stored? with
  | none => rw [heldWith_of_stored?_none hstored, Held.after_of_stored?_none _ hstored]
  | some place =>
    obtain ⟨origin', hlocate'⟩ := locate_of_stored? hstored
    rw [hlocate] at hlocate'
    cases hlocate'
    rw [heldWith, if_pos hstored]

/-- What is held of a path that was dealt with alone. -/
theorem Holds.sync_alone (h : ix.Holds held) (disk : Disk)
    (hlocate : locate tree.root tree.libraries path = some (stored, origin)) :
    ∃ alone, (ix.sync tree disk [path]).1.Holds alone ∧
      alone stored = (held stored).after (sight tree disk path) := by
  refine ⟨_, (h.syncFrom tree disk [path] {}).1, ?_⟩
  cases hlocked : (sight tree disk path).isLocked with
  | true =>
    -- A file that cannot be read has no stored path, so it changes nothing.
    have hreached : reached tree disk [path] = [] := by simp [reached, hlocked]
    have hstored : (sight tree disk path).stored? = none := by
      cases hsight : sight tree disk path with
      | other | locked _ => rfl
      | gone _ | file _ _ _ =>
        rw [hsight] at hlocked
        cases hlocked
    rw [hreached, Held.after_of_stored?_none _ hstored]
    rfl
  | false =>
    have hreached : reached tree disk [path] = [path] := by simp [reached, hlocked]
    rw [hreached]
    exact heldWith_sight hlocate

/-- What is held of a path after a list with it: if the path was reached, what it leads to alone,
and otherwise what was held before. -/
theorem heldAfter_reached (disk : Disk) (held : String → Held) (htree : tree.Anchored)
    (hwritten : WrittenAlike paths) (hpath : path ∈ paths)
    (hlocate : locate tree.root tree.libraries path = some (stored, origin)) :
    heldAfter tree disk held (reached tree disk paths) stored =
      if ∃ other ∈ reached tree disk paths, components other = components path
      then (held stored).after (sight tree disk path) else held stored := by
  have hmem : ∀ other ∈ reached tree disk paths, other ∈ paths :=
    fun other hother => (List.takeWhile_sublist _).subset hother
  have hsight : ∀ other ∈ reached tree disk paths, components other = components path →
      sight tree disk other = sight tree disk path :=
    fun other hother => sight_eq_of_components htree hwritten hpath hlocate (hmem other hother)
  have hcomponents : ∀ other, (sight tree disk other).stored? = some stored →
      components other = components path :=
    fun other hstored => components_eq_of_stored? htree hlocate hstored
  rw [heldAfter_of_alike fun other hother hstored =>
    hsight other hother (hcomponents other hstored)]
  by_cases hreached : ∃ other ∈ reached tree disk paths, components other = components path
  · rw [if_pos hreached]
    split
    next => rfl
    next hnone =>
      -- the path was reached, so it is one of which nothing is to be held
      obtain ⟨other, hother, heq⟩ := hreached
      have hunstored : (sight tree disk path).stored? ≠ some stored := by
        intro hstored
        exact hnone ⟨other, hother, hsight other hother heq ▸ hstored⟩
      rw [← heldWith_sight hlocate, heldWith, if_neg hunstored]
  · rw [if_neg hreached, if_neg]
    rintro ⟨other, hother, hstored⟩
    exact hreached ⟨other, hother, hcomponents other hstored⟩

/-- A path of a list ends with the rows that it would have alone exactly if it is reached, or if
alone it would change nothing. -/
theorem sync_like_alone_iff (h : ix.Sound) (htree : tree.Anchored) (disk : Disk)
    (hwritten : WrittenAlike paths) (hpath : path ∈ paths)
    (hlocate : locate tree.root tree.libraries path = some (stored, origin)) :
    SameAt stored (ix.sync tree disk paths).1 (ix.sync tree disk [path]).1 ↔
      (∃ other ∈ reached tree disk paths, components other = components path) ∨
        SameAt stored ix (ix.sync tree disk [path]).1 := by
  obtain ⟨held, hheld⟩ := h.exists_holds
  have hbatch : (ix.sync tree disk paths).1.Holds
      (heldAfter tree disk held (reached tree disk paths)) := (hheld.syncFrom tree disk paths {}).1
  obtain ⟨alone, hholds, halone⟩ := hheld.sync_alone disk hlocate
  have hstored := heldAfter_reached disk held htree hwritten hpath hlocate
  by_cases hreached : ∃ other ∈ reached tree disk paths, components other = components path
  · rw [if_pos hreached, ← halone] at hstored
    have hsame : SameAt stored (ix.sync tree disk paths).1 (ix.sync tree disk [path]).1 :=
      hbatch.sameAt hholds hstored
    simp only [hsame, hreached, true_or]
  · rw [if_neg hreached] at hstored
    rw [hbatch.sameAt_iff hheld hstored]
    simp only [hreached, false_or]

end Index

end JavaAtlas
