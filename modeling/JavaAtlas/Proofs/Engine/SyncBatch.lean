import JavaAtlas.Proofs.Engine.Acts
import JavaAtlas.Proofs.Index.Stale
import JavaAtlas.Proofs.Index.SyncBatch

namespace JavaAtlas

open JavaAtlas.Path Index

/-! # Changed paths and open files

The worker takes a list of changed paths into the index and then analyzes the open source files, if
it came to the end of the list and files were indexed or dropped.

* `Engine.analyzed_analyzeOpen`: after an analysis of all open files, each of them is analyzed;
* `Engine.sync_spares_others_iff`: which paths of a list end as they would alone, and when all open
  files are analyzed in the end;
* `Engine.locked_file_ends_batch`: lists in which a path ends otherwise.
-/

/-- The diagnostics of the file at a path, if it is indexed, are those of its text. -/
def Index.Analyzed (ix : Index) (path : String) : Prop :=
  ∀ f, ix.file? path = some f → ix.markersOf f.id = Java.analyzeText f.content

namespace Engine

/-- All open files that are indexed are analyzed. -/
def OpenAnalyzed (e : Engine) : Prop := ∀ path ∈ e.openUnits, e.index.Analyzed path

variable {tree : SourceTree} {disk : Disk} {e : Engine} {path : String} {paths : List String}

/-! ## Analysis -/

/-- An analysis leaves the file analyzed, and no analyzed file otherwise. -/
theorem analyzed_analyze (hids : (e.index.files.map (·.id)).Nodup) (path : String) :
    (e.analyze path).index.files = e.index.files ∧ (e.analyze path).index.Analyzed path ∧
      ∀ other, e.index.Analyzed other → (e.analyze path).index.Analyzed other := by
  unfold analyze
  cases hresult : e.index.analyzePath path with
  | error failure =>
    refine ⟨rfl, ?_, fun _ h => h⟩
    -- only a file that is not indexed is not analyzed
    intro f hf
    rw [analyzePath, hf] at hresult
    obtain ⟨ix, hix⟩ : ∃ ix, e.index.replaceMarkers path (Java.analyzeText f.content) = .ok ix := by
      rw [replaceMarkers, hf]
      exact ⟨_, rfl⟩
    simp only [hix] at hresult
    cases hresult
  | ok result =>
    obtain ⟨index, markers⟩ := result
    obtain ⟨row, added, hrow, hfiles, hmarkers, hadded, hfound⟩ := tables_of_analyzePath hresult
    have hfile : ∀ other, index.file? other = e.index.file? other := by
      intro other
      rw [file?, hfiles, file?]
    refine ⟨hfiles, ?_, ?_⟩
    · intro f hf
      rw [hfile, hrow, Option.some_inj] at hf
      subst hf
      rw [markersOf_replaced hadded hmarkers, if_pos rfl]
      exact hfound
    · intro other hother f hf
      rw [hfile] at hf
      rw [markersOf_replaced hadded hmarkers]
      split
      next hid =>
        have hsame : f = row := List.inj_on_of_nodup_map hids (List.mem_of_find?_eq_some hf)
          (List.mem_of_find?_eq_some hrow) hid
        rw [hfound, hsame]
      next => exact hother f hf

/-- All files that are analyzed in turn are analyzed in the end. -/
theorem analyzed_foldl_analyze (hids : (e.index.files.map (·.id)).Nodup) (units : List String) :
    ∀ path, path ∈ units ∨ e.index.Analyzed path →
      (units.foldl analyze e).index.Analyzed path := by
  induction units generalizing e with
  | nil =>
    rintro path (hpath | hpath)
    · cases hpath
    · exact hpath
  | cons unit units ih =>
    obtain ⟨hfiles, hunit, hothers⟩ := analyzed_analyze hids unit
    intro path hpath
    rw [List.foldl_cons]
    apply ih (by rw [hfiles]; exact hids)
    rcases hpath with hpath | hpath
    · rcases List.mem_cons.mp hpath with rfl | hpath
      · exact .inr hunit
      · exact .inl hpath
    · exact .inr (hothers path hpath)

theorem analyzed_analyzeOpen (hids : (e.index.files.map (·.id)).Nodup) :
    e.analyzeOpen.OpenAnalyzed := by
  intro path hpath
  rw [analyzeOpen_eq] at hpath
  exact analyzed_foldl_analyze hids e.openUnits path (.inl hpath)

/-! ## Changed paths -/

/-- The files are analyzed if the list came to its end and files were indexed or dropped. -/
theorem sync_cases (tree : SourceTree) (disk : Disk) (e : Engine) (paths : List String) :
    ((∃ stats, (e.index.sync tree disk paths).2 = .ok stats ∧ 0 < stats.changed) ∧
      e.sync tree disk paths =
        analyzeOpen { e with index := (e.index.sync tree disk paths).1 }) ∨
    ((¬∃ stats, (e.index.sync tree disk paths).2 = .ok stats ∧ 0 < stats.changed) ∧
      e.sync tree disk paths = { e with index := (e.index.sync tree disk paths).1 }) := by
  unfold sync
  cases hresult : e.index.sync tree disk paths with
  | mk index outcome =>
    cases outcome with
    | error failure =>
      right
      simp
    | ok stats =>
      have hcount : (stats.indexed > 0 ∨ stats.deleted > 0) ↔ 0 < stats.changed := by
        unfold SyncStats.changed
        omega
      by_cases hchanged : 0 < stats.changed
      · left
        simp [hcount, hchanged]
      · right
        simp [hcount, hchanged]

/-- Of a list of changed paths, in which none is written both as that of a file and as that of a
directory, a path ends with the rows that it would have alone exactly if it stands before the first
that must not be read, or alone would change nothing. The run ends well exactly if there is no such
path; then open files that were analyzed are so in the end. In general, they are exactly if the
run ended well and changed something, or if what it left of them was analyzed all the same. -/
theorem sync_spares_others_iff (htree : tree.Anchored) (disk : Disk) (hwritten : WrittenAlike paths)
    (e : Engine) (hsound : e.index.Sound) :
    (∀ path ∈ paths, ∀ stored origin,
      locate tree.root tree.libraries path = some (stored, origin) →
      (SameAt stored (e.index.sync tree disk paths).1 (e.index.sync tree disk [path]).1 ↔
        (∃ other ∈ reached tree disk paths, components other = components path) ∨
          SameAt stored e.index (e.index.sync tree disk [path]).1)) ∧
    ((∃ stats, (e.index.sync tree disk paths).2 = .ok stats) ↔
      ∀ path ∈ paths, (sight tree disk path).isLocked = false) ∧
    ((∀ path ∈ paths, (sight tree disk path).isLocked = false) → e.OpenAnalyzed →
      (e.handle tree disk (.sync paths)).OpenAnalyzed) ∧
    ((e.handle tree disk (.sync paths)).OpenAnalyzed ↔
      (∃ stats, (e.index.sync tree disk paths).2 = .ok stats ∧ 0 < stats.changed) ∨
        OpenAnalyzed { e with index := (e.index.sync tree disk paths).1 }) := by
  obtain ⟨held, hheld⟩ := hsound.exists_holds
  obtain ⟨hholds, hok, hcount⟩ := hheld.syncFrom tree disk paths {}
  have hids : ((e.index.sync tree disk paths).1.files.map (·.id)).Nodup :=
    hholds.keeps.sound.fileIds
  refine ⟨?_, hok, ?_, ?_⟩
  · intro path hpath stored origin hlocate
    exact sync_like_alone_iff hsound htree disk hwritten hpath hlocate
  · intro hread hopen
    show (e.sync tree disk paths).OpenAnalyzed
    rcases sync_cases tree disk e paths with ⟨-, hsync⟩ | ⟨hnone, hsync⟩
    · rw [hsync]
      exact analyzed_analyzeOpen hids
    · -- the run ended well, so nothing was indexed or dropped
      obtain ⟨stats, hstats⟩ := hok.mpr hread
      have hzero : stats.changed = 0 := by
        by_contra hne
        exact hnone ⟨stats, hstats, Nat.pos_of_ne_zero hne⟩
      have hsame : (e.index.sync tree disk paths).1 = e.index := (hcount stats hstats).2 hzero
      rw [hsync, hsame]
      exact hopen
  · show (e.sync tree disk paths).OpenAnalyzed ↔ _
    rcases sync_cases tree disk e paths with ⟨hsome, hsync⟩ | ⟨hnone, hsync⟩
    · rw [hsync]
      exact ⟨fun _ => .inl hsome, fun _ => analyzed_analyzeOpen hids⟩
    · rw [hsync]
      exact ⟨fun hopen => .inr hopen, fun h => h.resolve_left hnone⟩

/-- A disk with a source file that must not be read, one that is no text, and one that is fine. -/
def lockedDisk : Disk :=
  { entries :=
      [("/w", .directory), ("/w/A.java", .file "class A {}".toUTF8), ("/w/B.java", .locked),
        ("/w/C.java", .file ⟨#[0xff]⟩)] }

/-- A file that must not be read stands before one that is fine, and a worker of an empty index has
the one that is fine open. -/
theorem sync_spares_others_iff_locked :
    (SameAt "A.java" (({} : Index).sync plainTree lockedDisk ["/w/B.java", "/w/A.java"]).1
        (({} : Index).sync plainTree lockedDisk ["/w/A.java"]).1 ↔
      (∃ other ∈ reached plainTree lockedDisk ["/w/B.java", "/w/A.java"],
        components other = components "/w/A.java") ∨
      SameAt "A.java" {} (({} : Index).sync plainTree lockedDisk ["/w/A.java"]).1) ∧
    OpenAnalyzed (handle plainTree lockedDisk { openUnits := ["A.java"] } (.sync ["/w/A.java"])) := by
  have hsound : ({} : Index).Sound := keeps_empty.sound
  have hlocate : locate plainTree.root plainTree.libraries "/w/A.java" =
      some ("A.java", .project) := by decide +kernel
  have hbatch : WrittenAlike ["/w/B.java", "/w/A.java"] := by
    unfold WrittenAlike
    decide +kernel
  have hsingle : WrittenAlike ["/w/A.java"] := by
    unfold WrittenAlike
    decide +kernel
  have hread : ∀ path ∈ ["/w/A.java"], (sight plainTree lockedDisk path).isLocked = false := by
    decide +kernel
  constructor
  · exact (sync_spares_others_iff anchored_plainTree lockedDisk hbatch {} hsound).1 "/w/A.java"
      (by simp) "A.java" .project hlocate
  · refine (sync_spares_others_iff anchored_plainTree lockedDisk hsingle
      { openUnits := ["A.java"] } hsound).2.2.1 hread ?_
    intro path _ f hf
    cases hf

/-- A file that is fine is not indexed behind one that must not be read, nor if the same list has
its path as that of a directory, too; alone it is. -/
theorem locked_file_ends_batch :
    ((({} : Index).sync plainTree lockedDisk ["/w/A.java"]).1.file? "A.java").isSome = true ∧
    ((({} : Index).sync plainTree lockedDisk ["/w/B.java", "/w/A.java"]).1.file? "A.java").isSome =
      false ∧
    ((({} : Index).sync plainTree lockedDisk ["/w/C.java", "/w/A.java", "/w/A.java/"]).1.file?
      "A.java").isSome = false := by
  have hempty : ({} : Index).Holds fun _ => .nothing := ⟨keeps_empty, fun _ => rfl⟩
  have hfile : ∀ paths,
      ((({} : Index).sync plainTree lockedDisk paths).1.file? "A.java").isSome =
        (heldAfter plainTree lockedDisk (fun _ => .nothing)
          (reached plainTree lockedDisk paths) "A.java").entry.isSome :=
    fun paths => (hempty.syncFrom plainTree lockedDisk paths {}).1.isSome_file? "A.java"
  refine ⟨?_, ?_, ?_⟩
  · have hreached : reached plainTree lockedDisk ["/w/A.java"] = ["/w/A.java"] := by
      decide +kernel
    have hlocate : locate plainTree.root plainTree.libraries "/w/A.java" =
        some ("A.java", .project) := by decide +kernel
    have hfind : lockedDisk.find "/w/A.java" =
        .ok (["A.java", "w"], .file "class A {}".toUTF8) :=
      eq_ok_of_toOption_eq_some (by decide +kernel)
    have hsight := sight_of_find hlocate hfind (by decide +kernel)
    have hheld : Held.nothing.after (.file "A.java" .project "class A {}".toUTF8) =
        { entry := some (.ofText "A.java" .project "class A {}"), markers := [] } :=
      Held.withFile_of_text (by decide) rfl (by simp [Held.nothing])
    rw [hfile, hreached]
    simp only [heldAfter, List.foldl_cons, List.foldl_nil, hsight]
    rw [heldWith_eq_update rfl, Function.update_self, hheld]
    rfl
  · have hreached : reached plainTree lockedDisk ["/w/B.java", "/w/A.java"] = [] := by
      decide +kernel
    rw [hfile, hreached]
    rfl
  · have hreached : reached plainTree lockedDisk ["/w/C.java", "/w/A.java", "/w/A.java/"] =
        ["/w/C.java", "/w/A.java"] ++ ["/w/A.java/"] := by decide +kernel
    have hlocate : locate plainTree.root plainTree.libraries "/w/A.java/" =
        some ("A.java", .project) := by decide +kernel
    have hsight : sight plainTree lockedDisk "/w/A.java/" = .gone "A.java" :=
      sight_of_not_has hlocate (by decide +kernel)
    -- whatever the file before it left, the last path drops it
    rw [hfile, hreached]
    simp only [heldAfter, List.foldl_append, List.foldl_cons, List.foldl_nil, hsight]
    rw [heldWith_eq_update rfl, Function.update_self]
    rfl

end Engine

end JavaAtlas
