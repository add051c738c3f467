import JavaAtlas.Proofs.Engine.Acts
import JavaAtlas.Proofs.Index.Markers
import JavaAtlas.Proofs.Index.Sighting

namespace JavaAtlas

/-! # What readers may see of the index

A reader sees the index as it is between two transactions of the worker, also in the middle of a
step that takes many of them.

* `Index.Trail`: states of the index, one transaction after the other;
* `Index.trail_reindexFrom`, `Index.trail_syncFrom`, `Engine.trail_step`: the states that a run over
  all files, a run over changed paths and a step of the worker go through, to where they end;
* `Engine.visible`, `Engine.trail_visible`: all that readers may see along a run;
* `Engine.Stored`, `Engine.Stored.described`: what any number of runs may leave is described.
-/

namespace Index

/-- States of the index from a first one to a last one, each of them the one before or what one
transaction makes of it. -/
inductive Trail : Index → List Index → Index → Prop where
  | one (ix : Index) : Trail ix [ix] ix
  | cons {ix ix' last : Index} {states : List Index} : ix = ix' ∨ Write ix ix' →
      Trail ix' states last → Trail ix (ix :: states) last

namespace Trail

variable {ix ix' last : Index} {states others : List Index}

theorem two (h : ix = ix' ∨ Write ix ix') : Trail ix [ix, ix'] ix' := .cons h (.one ix')

/-- States up to an index, and from there on, are states from the first to the last. -/
theorem append (h : Trail ix states ix') (h' : Trail ix' others last) :
    Trail ix (states ++ others) last := by
  induction h with
  | one ix => exact .cons (.inl rfl) h'
  | cons hwrite _ ih => exact .cons hwrite (ih h')

/-- A fold goes through the states that its step makes one of another. -/
theorem scanl {σ α : Type} (see : σ → Index) {step : σ → α → σ}
    (hstep : ∀ s a, see s = see (step s a) ∨ Write (see s) (see (step s a))) (s : σ)
    (values : List α) :
    Trail (see s) ((values.scanl step s).map see) (see (values.foldl step s)) := by
  induction values generalizing s with
  | nil =>
    rw [List.scanl_nil]
    exact .one _
  | cons a values ih =>
    rw [List.scanl_cons]
    exact .cons (hstep s a) (ih (step s a))

/-- One transaction after the other leaves diagnostics that describe the text beside them. -/
theorem described (h : Trail ix states last) (hix : ix.Described) :
    ∀ seen ∈ states, seen.Described := by
  induction h with
  | one ix =>
    intro seen hseen
    rwa [List.mem_singleton.mp hseen]
  | cons hwrite _ ih =>
    intro seen hseen
    rcases List.mem_cons.mp hseen with rfl | hseen
    · exact hix
    · rcases hwrite with rfl | hwrite
      · exact ih hix seen hseen
      · exact ih (hix.write hwrite) seen hseen

end Trail

/-! ## Runs over files -/

variable {ix ix' : Index} {tree : SourceTree} {disk : Disk}

/-- To index a file is one transaction, or none if its content is known. -/
theorem write_indexFile {file : ScannedFile} {counts : FileCounts}
    (hok : ix.indexFile file = .ok (ix', counts)) : ix = ix' ∨ Write ix ix' := by
  unfold indexFile at hok
  split at hok
  · cases hok
    exact .inl rfl
  · split at hok
    · cases hok
    · exact .inr (.text hok)

/-- To index a text is one transaction. -/
theorem write_indexText {path text : String} {counts : FileCounts}
    (hok : ix.indexText path text = .ok (ix', counts)) : Write ix ix' := by
  unfold indexText at hok
  exact .text hok

/-- One file of a run over all files is at most one transaction. -/
theorem write_reindexFile (before : Index) (state : Index × IndexStats) (file : ScannedFile) :
    state.1 = (reindexFile before state file).1 ∨
      Write state.1 (reindexFile before state file).1 := by
  unfold reindexFile
  dsimp only
  split
  · exact .inl rfl
  · split
    next hok => exact write_indexFile hok
    next => exact .inl rfl

/-- What dropping files goes through. -/
def statesOfDelete (ix : Index) (paths : List String) : List Index :=
  paths.scanl (fun ix path => (ix.deleteFile path).1) ix

/-- Files are dropped one transaction after the other. -/
theorem trail_deleteFiles (ix : Index) (paths : List String) :
    Trail ix (ix.statesOfDelete paths) (ix.deleteFiles paths) := by
  have hstep : ∀ (ix : Index) (path : String),
      ix = (ix.deleteFile path).1 ∨ Write ix (ix.deleteFile path).1 :=
    fun ix path => .inr (.delete path)
  have htrail := Trail.scanl id hstep ix paths
  rwa [List.map_id] at htrail

/-- What a run over all files goes through: file by file, then one file after the other that is
gone, and last the note that it happened. -/
def statesOfReindex (ix : Index) (scanned : List ScannedFile) : List Index :=
  let start : IndexStats := { scanned := scanned.length }
  let indexed := (scanned.foldl (reindexFile ix) (ix, start)).1
  let gone := (ix.files.map (·.path)).filter fun p => !scanned.any (·.stored == p)
  (scanned.scanl (reindexFile ix) (ix, start)).map (·.1) ++ indexed.statesOfDelete gone ++
    [indexed.deleteFiles gone, (indexed.deleteFiles gone).noteIndexed]

/-- The states of a run over all files lead from where it starts to where it ends. -/
theorem trail_reindexFrom (ix : Index) (scanned : List ScannedFile) :
    Trail ix (ix.statesOfReindex scanned) (ix.reindexFrom scanned).1 := by
  have hindexed := Trail.scanl (fun s : Index × IndexStats => s.1) (write_reindexFile ix)
    (ix, { scanned := scanned.length }) scanned
  exact (hindexed.append (trail_deleteFiles _ _)).append (.two (.inr .note))

/-- One changed path is at most one transaction. -/
theorem write_syncPath {state state' : Index × SyncStats} {path : String}
    (hok : syncPath tree disk state path = .ok state') :
    state.1 = state'.1 ∨ Write state.1 state'.1 := by
  rcases syncPath_cases hok with hsame | ⟨stored, hdropped⟩ | ⟨file, counts, hindex, -⟩
  · exact .inl hsame.symm
  · rw [hdropped]
    exact .inr (.delete stored)
  · exact write_indexFile hindex

/-- What a run over changed paths goes through. -/
def statesOfSync (tree : SourceTree) (disk : Disk) : List String → Index × SyncStats → List Index
  | [], (ix, stats) => if stats.indexed + stats.deleted > 0 then [ix, ix.noteIndexed] else [ix]
  | path :: rest, (ix, stats) =>
    match syncPath tree disk (ix, stats) path with
    | .ok state => ix :: statesOfSync tree disk rest state
    | .error _ => [ix]

/-- The states of a run over changed paths lead to where it ends, also if it is broken off. -/
theorem trail_syncFrom (paths : List String) (state : Index × SyncStats) :
    Trail state.1 (statesOfSync tree disk paths state) (syncFrom tree disk paths state).1 := by
  induction paths generalizing state with
  | nil =>
    obtain ⟨ix, stats⟩ := state
    rw [statesOfSync, syncFrom]
    split
    · exact .two (.inr .note)
    · exact .one ix
  | cons path rest ih =>
    obtain ⟨ix, stats⟩ := state
    rw [statesOfSync, syncFrom]
    cases hpath : syncPath tree disk (ix, stats) path with
    | ok state => exact .cons (write_syncPath hpath) (ih state)
    -- a path that fails ends the run with what was taken in before it
    | error e => exact .one ix

end Index

namespace Engine

open Index

/-! ## Steps of the worker -/

section Step

variable {tree : SourceTree} {disk : Disk} {e : Engine}

/-- An analysis is at most one transaction. -/
theorem write_analyze (e : Engine) (path : String) :
    e.index = (e.analyze path).index ∨ Write e.index (e.analyze path).index := by
  unfold analyze
  split
  next hok => exact .inr (.analyze hok)
  next => exact .inl rfl

/-- What the analysis of the open source files goes through. -/
def statesOfAnalyzeOpen (e : Engine) : List Index := (e.openUnits.scanl analyze e).map (·.index)

/-- Open source files are analyzed one transaction after the other. -/
theorem trail_analyzeOpen (e : Engine) :
    Trail e.index e.statesOfAnalyzeOpen e.analyzeOpen.index :=
  .scanl (·.index) write_analyze e e.openUnits

/-- What a build goes through. -/
def statesOfBuild (tree : SourceTree) (disk : Disk) (e : Engine) : List Index :=
  match sourceFiles tree disk with
  | .ok scanned => e.index.statesOfReindex scanned
  | .error _ => [e.index]

/-- The states of a build lead to the index that it leaves. -/
theorem trail_build : Trail e.index (e.statesOfBuild tree disk) (e.build tree disk).index := by
  unfold statesOfBuild build reindex
  cases sourceFiles tree disk with
  | ok scanned => exact trail_reindexFrom e.index scanned
  | error _ => exact .one e.index

/-- What it takes to commit an edit. -/
def statesOfCommit (e : Engine) (p : PendingEdit) : List Index :=
  match e.index.indexText p.path p.text with
  | .ok (index, _) => [e.index, index, (analyze { e with index } p.path).index]
  | .error _ => [e.index]

/-- The states of a commit lead to the index that it leaves. -/
theorem trail_commit (p : PendingEdit) :
    Trail e.index (e.statesOfCommit p) (e.commit p).index := by
  unfold statesOfCommit commit
  cases hok : e.index.indexText p.path p.text with
  | ok result =>
    obtain ⟨index, counts⟩ := result
    exact .cons (.inr (write_indexText hok)) (.two (write_analyze { e with index } p.path))
  -- a text that cannot be indexed leaves the index as it is
  | error _ => exact .one e.index

/-- The text is indexed in one transaction and analyzed in the next. -/
theorem mem_statesOfCommit {p : PendingEdit} {index : Index} {counts : FileCounts}
    (hok : e.index.indexText p.path p.text = .ok (index, counts)) : index ∈ e.statesOfCommit p := by
  unfold statesOfCommit
  rw [hok]
  exact List.mem_cons_of_mem _ List.mem_cons_self

/-- What bringing the index up to date goes through. -/
def statesOfRescan (tree : SourceTree) (disk : Disk) (e : Engine) : List Index :=
  match sourceFiles tree disk with
  | .ok scanned =>
    e.index.statesOfReindex scanned ++
      { e with index := (e.index.reindexFrom scanned).1 }.statesOfAnalyzeOpen
  | .error _ => [e.index]

/-- The states of a rescan lead to the index that it leaves. -/
theorem trail_rescan : Trail e.index (e.statesOfRescan tree disk) (e.rescan tree disk).index := by
  unfold statesOfRescan rescan reindex
  cases sourceFiles tree disk with
  | ok scanned =>
    exact (trail_reindexFrom e.index scanned).append
      (trail_analyzeOpen { e with index := (e.index.reindexFrom scanned).1 })
  | error _ => exact .one e.index

/-- What taking in changed paths goes through. -/
def statesOfSyncing (tree : SourceTree) (disk : Disk) (e : Engine) (paths : List String) :
    List Index :=
  statesOfSync tree disk paths (e.index, {}) ++
    match e.index.sync tree disk paths with
    | (index, .ok stats) =>
      if stats.indexed > 0 ∨ stats.deleted > 0 then { e with index }.statesOfAnalyzeOpen
      else [index]
    | (index, .error _) => [index]

/-- The states of taking in changed paths lead to the index that this leaves. -/
theorem trail_sync (paths : List String) :
    Trail e.index (e.statesOfSyncing tree disk paths) (e.sync tree disk paths).index := by
  have hsynced : Trail e.index (statesOfSync tree disk paths (e.index, {}))
      (e.index.sync tree disk paths).1 := trail_syncFrom paths (e.index, {})
  unfold statesOfSyncing sync
  cases hsync : e.index.sync tree disk paths with
  | mk index outcome =>
    rw [hsync] at hsynced
    -- the open source files are analyzed only if something was taken in
    refine hsynced.append ?_
    cases outcome with
    | error _ => exact .one index
    | ok stats =>
      dsimp only
      split
      · exact trail_analyzeOpen { e with index }
      · exact .one index

/-- To open a source file is at most one transaction. -/
theorem write_openUnit (path : String) :
    e.index = (e.openUnit path).index ∨ Write e.index (e.openUnit path).index := by
  unfold openUnit
  split
  · exact .inl rfl
  · exact write_analyze { e with openUnits := e.openUnits.filter (· != path) ++ [path] } path

/-- What a command goes through. -/
def statesOfHandle (tree : SourceTree) (disk : Disk) (e : Engine) : Command → List Index
  | .rescan => e.statesOfRescan tree disk
  | .sync paths => e.statesOfSyncing tree disk paths
  | .openUnit path => [e.index, (e.openUnit path).index]
  | .analyze path => if e.isCommitted path then [e.index, (e.analyze path).index] else [e.index]
  | .reindex | .closeUnit _ | .edit _ | .stop => [e.index]

/-- The states of a command lead to the index that it leaves. -/
theorem trail_handle (c : Command) :
    Trail e.index (e.statesOfHandle tree disk c) (e.handle tree disk c).index := by
  cases c with
  | rescan => exact trail_rescan
  | sync paths => exact trail_sync paths
  | openUnit path => exact .two (write_openUnit path)
  | analyze path =>
    rw [statesOfHandle, handle]
    split
    · exact .two (write_analyze e path)
    · exact .one e.index
  | reindex | closeUnit _ | edit _ | stop => exact .one e.index

/-- What a step of the worker goes through. -/
def statesOfStep (tree : SourceTree) (disk : Disk) (e : Engine) : List Index :=
  match e.phase with
  | .waiting =>
    match e.queue with
    | [] | .stop :: _ => [e.index]
    | c :: rest => statesOfHandle tree disk { e with queue := rest, phase := .handled } c
  | .building => e.statesOfBuild tree disk
  | .built => e.statesOfAnalyzeOpen
  | .committing (p :: _) => e.statesOfCommit p
  | .handled | .committing [] | .committed _ _ | .stopped => [e.index]

/-- The states of taking up a command lead to the index that this leaves. -/
theorem trail_receive (hphase : e.phase = .waiting) :
    Trail e.index (e.statesOfStep tree disk) (e.receive tree disk).index := by
  rw [statesOfStep, hphase, receive]
  cases e.queue with
  | nil =>
    dsimp only
    split <;> exact .one e.index
  | cons c rest =>
    have hhandled : Trail e.index
        (statesOfHandle tree disk { e with queue := rest, phase := .handled } c)
        (handle tree disk { e with queue := rest, phase := .handled } c).index :=
      trail_handle (e := { e with queue := rest, phase := .handled }) c
    cases c with
    -- to stop is the one command that is not carried out
    | stop => exact .one e.index
    | reindex | rescan | sync _ | openUnit _ | closeUnit _ | analyze _ | edit _ => exact hhandled

/-- The states of a step of the worker lead to the index that it leaves. -/
theorem trail_step : Trail e.index (e.statesOfStep tree disk) (e.step tree disk).index := by
  cases hphase : e.phase with
  | waiting =>
    rw [step, hphase]
    exact trail_receive hphase
  | building =>
    rw [statesOfStep, step, hphase]
    exact trail_build
  | built =>
    rw [statesOfStep, step, hphase]
    exact trail_analyzeOpen e
  | handled | stopped =>
    rw [statesOfStep, step, hphase]
    exact .one e.index
  | committing due =>
    rw [statesOfStep, step, hphase]
    cases due with
    | nil => exact .one e.index
    | cons p due =>
      dsimp only
      exact trail_commit p
  | committed p due =>
    rw [statesOfStep, step, hphase]
    exact .one e.index

end Step

/-! ## Runs -/

/-- The states of the index that readers may see at an act. -/
def seenAt (tree : SourceTree) (e : Engine) : Act → List Index
  | .work disk => e.statesOfStep tree disk
  | .leaveEdit _ _ | .markBuilding | .submit _ | .pause _ | .reorder _ _ => [e.index]

/-- The states of the index that readers may see along a run and when it is over. -/
def visible (tree : SourceTree) (e : Engine) (acts : List Act) : List Index :=
  observed tree (seenAt tree) e acts ++ [(after tree e acts).index]

section Run

variable {tree : SourceTree} {e : Engine}

/-- The states seen at an act lead to the index after it. -/
theorem trail_act (a : Act) : Trail e.index (seenAt tree e a) (act tree e a).index := by
  cases a with
  | work disk => exact trail_step
  | submit c =>
    rw [act, submit]
    split <;> exact .one e.index
  | reorder openUnits pending =>
    rw [act]
    split <;> exact .one e.index
  | leaveEdit path text => exact .one e.index
  | markBuilding => exact .one e.index
  | pause time => exact .one e.index

/-- All that readers see along a run leads from its first index to its last. -/
theorem trail_visible (acts : List Act) :
    Trail e.index (visible tree e acts) (after tree e acts).index := by
  induction acts generalizing e with
  | nil => exact .one e.index
  | cons a acts ih =>
    -- what one act shows, and what is seen from there on
    rw [visible, observed, List.append_assoc]
    exact (trail_act a).append ih

end Run

/-- What may be found of an index: a new one, what readers may have seen in a run of a worker on
such an index when the program ended, and what opening makes of it. -/
inductive Stored : Index → Prop where
  | new : Stored {}
  | opened {ix ix' : Index} : Stored ix → ix.opened = .ok ix' → Stored ix'
  | seen {tree : SourceTree} {e : Engine} {acts : List Act} {ix : Index} : Stored e.index →
      ix ∈ visible tree e acts → Stored ix

/-- The diagnostics in any stored index describe the text beside them. -/
theorem Stored.described {ix : Index} (h : Stored ix) : ix.Described := by
  induction h with
  | new => exact .empty
  | opened _ hok ih => exact ih.opened hok
  | seen _ hix ih => exact (trail_visible _).described ih _ hix

/-- The index when the worker was left alone for a while. -/
theorem Stored.run {tree : SourceTree} {disk : Disk} {e : Engine} (h : Stored e.index)
    (steps : Nat) : Stored (Engine.run tree disk steps e).index := by
  rw [run_eq_after]
  exact h.seen (List.mem_append_right _ (List.mem_singleton_self _))

end Engine

end JavaAtlas
