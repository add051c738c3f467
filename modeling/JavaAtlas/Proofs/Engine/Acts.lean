import JavaAtlas.Engine

namespace JavaAtlas

/-! # Runs of the worker among others

Others act between any two steps of the worker: they leave edits and commands, time goes by, and
the tables of open source files and of edits come in any order. `Act` is one such act or one step of
the worker, on the disk as it then is, and `after` a run of them.

* `Index.withAnalysis`, `Index.withEdit`: what an analysis and a commit make of the index, and that
  they change nothing else of the engine;
* `Engine.stepped_step`: all that one step of the worker can do, with what it does not touch;
* `Engine.after_concat`, `Engine.observed_concat`: a run, and what is seen along it, by its last
  act.
-/

/-- The index after an analysis of the text that it has for a path. Without one it stays. -/
def Index.withAnalysis (ix : Index) (path : String) : Index :=
  match ix.analyzePath path with
  | .ok (analyzed, _) => analyzed
  | .error _ => ix

/-- The index after an edit was tried: its text is indexed, and then analyzed. If it cannot be
indexed the index stays. -/
@[irreducible]
def Index.withEdit (ix : Index) (p : PendingEdit) : Index :=
  match ix.indexText p.path p.text with
  | .ok (indexed, _) => indexed.withAnalysis p.path
  | .error _ => ix

namespace Engine

/-- What happens next. What is asked of the worker in one call may be two acts, such as to leave an
edit and to submit a command, because the worker may take steps between them. -/
inductive Act where
  | leaveEdit (path text : String)
  | markBuilding
  | submit (command : Command)
  | pause (time : Nat)
  /-- The tables hold the same in another order. -/
  | reorder (openUnits : List String) (pending : List PendingEdit)
  | work (disk : Disk)

/-- The engine after an act. -/
def act (tree : SourceTree) (e : Engine) : Act → Engine
  | .leaveEdit path text => e.leaveEdit path text
  | .markBuilding => e.markBuilding
  | .submit command => (e.submit command).1
  | .pause time => { e with now := e.now + time }
  | .reorder openUnits pending =>
    if openUnits.Perm e.openUnits ∧ pending.Perm e.pending then { e with openUnits, pending } else e
  | .work disk => e.step tree disk

/-- The engine after a run. -/
def after (tree : SourceTree) (e : Engine) (acts : List Act) : Engine := acts.foldl (act tree) e

/-- What is seen along a run, where `see` says what is seen of one act. -/
def observed {α : Type} (tree : SourceTree) (see : Engine → Act → List α) :
    Engine → List Act → List α
  | _, [] => []
  | e, a :: acts => see e a ++ observed tree see (act tree e a) acts

section Runs

variable {α : Type} {tree : SourceTree} {see : Engine → Act → List α} {e : Engine}
  {acts : List Act} {a : Act}

@[simp]
theorem after_nil : after tree e [] = e := rfl

/-- One run after another is a run. -/
theorem after_append {more : List Act} :
    after tree e (acts ++ more) = after tree (after tree e acts) more :=
  List.foldl_append

/-- A run, by its last act. -/
@[simp]
theorem after_concat : after tree e (acts ++ [a]) = act tree (after tree e acts) a :=
  after_append

@[simp]
theorem observed_nil : observed tree see e [] = [] := rfl

/-- What is seen along one run after another. -/
theorem observed_append {more : List Act} : observed tree see e (acts ++ more) =
    observed tree see e acts ++ observed tree see (after tree e acts) more := by
  induction acts generalizing e with
  | nil => rfl
  | cons a acts ih =>
    rw [List.cons_append, observed, ih, observed, List.append_assoc]
    rfl

/-- What is seen along a run, by its last act. -/
@[simp]
theorem observed_concat : observed tree see e (acts ++ [a]) =
    observed tree see e acts ++ see (after tree e acts) a := by
  rw [observed_append, observed, observed_nil, List.append_nil]

/-- The worker left alone. -/
theorem run_eq_after (disk : Disk) (steps : Nat) :
    run tree disk steps e = after tree e (List.replicate steps (.work disk)) := by
  induction steps generalizing e with
  | zero => rfl
  | succ steps ih => exact ih

/-- To submit a command leaves the index as it is. -/
@[simp]
theorem index_submit (c : Command) : (e.submit c).1.index = e.index := by
  rw [submit]
  split <;> rfl

end Runs

/-! ## The edits that wait -/

section Waiting

variable {e : Engine} {path text : String} {p q : PendingEdit}

/-- A path is not committed while an edit of it waits. -/
@[simp]
theorem isCommitted_eq_false_iff : e.isCommitted path = false ↔ ∃ p ∈ e.pending, p.path = path := by
  simp [isCommitted]

/-- A path is committed exactly if no edit of it waits. -/
@[simp]
theorem isCommitted_eq_true_iff : e.isCommitted path = true ↔ ∀ p ∈ e.pending, p.path ≠ path := by
  simp [isCommitted]

/-- An edit replaces those of its path that waited. -/
@[simp]
theorem mem_leaveEdit_iff : p ∈ (e.leaveEdit path text).pending ↔
    p ∈ e.pending ∧ p.path ≠ path ∨ p = ⟨path, text, e.now⟩ := by
  simp [leaveEdit]

/-- Of a path only the edit that was left at one time is dropped. -/
@[simp]
theorem mem_dropEdit_iff : q ∈ (e.dropEdit p).pending ↔
    q ∈ e.pending ∧ (q.path = p.path → q.queued ≠ p.queued) := by
  simp [dropEdit, Decidable.imp_iff_not_or]

/-- No two edits are left at one time. -/
@[simp]
theorem now_leaveEdit : (e.leaveEdit path text).now = e.now + 1 := rfl

/-- An edit by itself tells the worker nothing. -/
@[simp]
theorem queue_leaveEdit : (e.leaveEdit path text).queue = e.queue := rfl

@[simp]
theorem queue_markBuilding : e.markBuilding.queue = e.queue := rfl

end Waiting

/-! ## What the worker leaves alone

Whatever is analyzed or indexed, only the index changes.
-/

section Frame

variable (tree : SourceTree) (disk : Disk) (e : Engine)

/-- An analysis changes the index and nothing else. -/
@[simp]
theorem analyze_eq (path : String) :
    e.analyze path = { e with index := e.index.withAnalysis path } := by
  unfold analyze Index.withAnalysis
  cases e.index.analyzePath path <;> rfl

theorem foldl_analyze_eq (paths : List String) :
    paths.foldl analyze e = { e with index := paths.foldl Index.withAnalysis e.index } := by
  induction paths generalizing e with
  | nil => rfl
  | cons path paths ih => rw [List.foldl_cons, ih, analyze_eq, List.foldl_cons]

/-- The open source files are analyzed one after the other. -/
@[simp]
theorem analyzeOpen_eq :
    e.analyzeOpen = { e with index := e.openUnits.foldl Index.withAnalysis e.index } :=
  foldl_analyze_eq e e.openUnits

/-- A commit changes the index, by the edit, and nothing else. -/
@[simp]
theorem commit_eq (p : PendingEdit) : e.commit p = { e with index := e.index.withEdit p } := by
  unfold commit Index.withEdit
  cases e.index.indexText p.path p.text with
  | ok result =>
    dsimp only
    rw [analyze_eq]
  | error _ => rfl

/-- A rescan changes nothing but the index. -/
theorem rescan_eq : ∃ index, e.rescan tree disk = { e with index } := by
  unfold rescan
  split
  · rw [analyzeOpen_eq]
    exact ⟨_, rfl⟩
  · exact ⟨e.index, rfl⟩

/-- Taking in changed paths changes nothing but the index. -/
theorem sync_eq (paths : List String) : ∃ index, e.sync tree disk paths = { e with index } := by
  unfold sync
  split
  · dsimp only
    split
    · -- open source files may have changed with the paths
      rw [analyzeOpen_eq]
      exact ⟨_, rfl⟩
    · exact ⟨_, rfl⟩
  · exact ⟨_, rfl⟩

/-- To open a source file changes nothing but the index and the open source files. -/
theorem openUnit_eq (path : String) :
    ∃ index openUnits, e.openUnit path = { e with index, openUnits } := by
  unfold openUnit
  split
  · exact ⟨e.index, e.openUnits, rfl⟩
  · rw [analyze_eq]
    exact ⟨_, _, rfl⟩

/-- A command that does not ask for a build is carried out at once, and touches nothing but the
index and the open source files. -/
theorem handle_eq {c : Command} (hc : c ≠ .reindex) :
    ∃ index openUnits, e.handle tree disk c = { e with index, openUnits } := by
  cases c with
  | reindex => exact absurd rfl hc
  | rescan =>
    obtain ⟨index, hindex⟩ := rescan_eq tree disk e
    exact ⟨index, e.openUnits, hindex⟩
  | sync paths =>
    obtain ⟨index, hindex⟩ := sync_eq tree disk e paths
    exact ⟨index, e.openUnits, hindex⟩
  | openUnit path => exact openUnit_eq e path
  | closeUnit path => exact ⟨e.index, _, rfl⟩
  | analyze path =>
    rw [handle]
    split
    · rw [analyze_eq]
      exact ⟨_, e.openUnits, rfl⟩
    · exact ⟨e.index, e.openUnits, rfl⟩
  | edit path => exact ⟨e.index, e.openUnits, rfl⟩
  | stop => exact ⟨e.index, e.openUnits, rfl⟩

/-- A build ends the building, and leads to the analysis of open source files or is over. -/
theorem build_eq : ∃ index phase, (phase = .built ∨ phase = .handled) ∧
    e.build tree disk = { e with index, building := false, phase } := by
  unfold build
  split
  · exact ⟨_, .built, .inl rfl, rfl⟩
  · exact ⟨e.index, .handled, .inr rfl, rfl⟩

end Frame

/-! ## One step -/

/-- What the worker can make of an engine in one step. Each case says when it happens, and which
parts of the engine it changes; what the index becomes is left open, unless an edit is committed. -/
inductive Stepped (e : Engine) : Engine → Prop where
  | idle : e.phase = .waiting → e.queue = [] → e.pending = [] → Stepped e e
  | gone : e.phase = .stopped → Stepped e e
  | wake : e.phase = .waiting → e.queue = [] → e.pending ≠ [] →
      Stepped e { e with phase := .handled }
  | stop {rest : List Command} : e.phase = .waiting → e.queue = .stop :: rest →
      Stepped e { e with queue := rest, phase := .stopped }
  | takeUp {rest : List Command} : e.phase = .waiting → e.queue = .reindex :: rest →
      Stepped e { e with queue := rest, building := true, phase := .building }
  | carryOut {c : Command} {rest : List Command} (index : Index) (openUnits : List String) :
      e.phase = .waiting → e.queue = c :: rest → c ≠ .stop → c ≠ .reindex →
      Stepped e { e with queue := rest, phase := .handled, index, openUnits }
  | build (index : Index) (phase : Phase) : e.phase = .building →
      phase = .built ∨ phase = .handled →
      Stepped e { e with index, building := false, phase }
  | analyzeOpen (index : Index) : e.phase = .built →
      Stepped e { e with index, phase := .handled }
  | look : e.phase = .handled → Stepped e { e with phase := .committing e.dueEdits }
  | rest : e.phase = .committing [] → Stepped e { e with phase := .waiting }
  | commit {p : PendingEdit} {due : List PendingEdit} : e.phase = .committing (p :: due) →
      Stepped e { e with index := e.index.withEdit p, phase := .committed p due }
  | drop {p : PendingEdit} {due : List PendingEdit} : e.phase = .committed p due →
      Stepped e { e.dropEdit p with phase := .committing due }

section Step

variable {tree : SourceTree} {disk : Disk} {e : Engine}

/-- All that taking up a command can do. -/
theorem stepped_receive (hphase : e.phase = .waiting) : Stepped e (e.receive tree disk) := by
  unfold receive
  split
  next hqueue =>
    -- nothing was submitted, so the worker looks for edits
    by_cases hpending : e.pending = []
    · rw [if_pos (List.isEmpty_iff.mpr hpending)]
      exact .idle hphase hqueue hpending
    · rw [if_neg fun h => hpending (List.isEmpty_iff.mp h)]
      exact .wake hphase hqueue hpending
  next rest hqueue => exact .stop hphase hqueue
  next c rest hstop hqueue =>
    -- a build is taken up only, any other command carried out
    by_cases hc : c = .reindex
    · subst hc
      exact .takeUp hphase hqueue
    · obtain ⟨index, openUnits, h⟩ := handle_eq tree disk { e with queue := rest, phase := .handled } hc
      rw [h]
      exact .carryOut index openUnits hphase hqueue hstop hc

/-- All that one step of the worker can do. -/
theorem stepped_step : Stepped e (e.step tree disk) := by
  unfold step
  split
  next hphase => exact stepped_receive hphase
  next hphase =>
    obtain ⟨index, phase, hnext, h⟩ := build_eq tree disk e
    rw [h]
    exact .build index phase hphase hnext
  next hphase =>
    rw [analyzeOpen_eq]
    exact .analyzeOpen _ hphase
  next hphase => exact .look hphase
  next hphase => exact .rest hphase
  next p due hphase =>
    rw [commit_eq]
    exact .commit hphase
  next p due hphase => exact .drop hphase
  next hphase => exact .gone hphase

/-- A waiting worker carries out the first command in the queue. -/
theorem step_of_waiting (tree : SourceTree) (disk : Disk) {c : Command} {rest : List Command}
    (hphase : e.phase = .waiting) (hqueue : e.queue = c :: rest) (hc : c ≠ .stop) :
    e.step tree disk = handle tree disk { e with queue := rest, phase := .handled } c := by
  rw [step, hphase]
  dsimp only
  rw [receive, hqueue]
  cases c with
  | stop => exact absurd rfl hc
  | _ => rfl

/-- When a command is carried out, the edits that are due are taken up. -/
theorem step_of_handled (hphase : e.phase = .handled) :
    e.step tree disk = { e with phase := .committing e.dueEdits } := by
  rw [step, hphase]

theorem step_of_rest (hphase : e.phase = .committing []) :
    e.step tree disk = { e with phase := .waiting } := by
  rw [step, hphase]

/-- An edit that was committed is dropped. -/
theorem step_of_committed {p : PendingEdit} {due : List PendingEdit}
    (hphase : e.phase = .committed p due) :
    e.step tree disk = { e.dropEdit p with phase := .committing due } := by
  rw [step, hphase]

/-- The first edit that is due is committed. -/
theorem step_of_committing (tree : SourceTree) (disk : Disk) {p : PendingEdit}
    {due : List PendingEdit} (hphase : e.phase = .committing (p :: due)) :
    e.step tree disk = { e with index := e.index.withEdit p, phase := .committed p due } := by
  rw [step, hphase]
  dsimp only
  rw [commit_eq]

/-- After a build only the index changes. -/
theorem step_of_built (tree : SourceTree) (disk : Disk) (hphase : e.phase = .built) :
    ∃ index, e.step tree disk = { e with index, phase := .handled } := by
  rw [step, hphase]
  dsimp only
  rw [analyzeOpen_eq]
  exact ⟨_, rfl⟩

/-- Two steps commit an edit and drop it. -/
theorem after_commit (tree : SourceTree) (disk : Disk) {p : PendingEdit} {due : List PendingEdit}
    (hphase : e.phase = .committing (p :: due)) :
    after tree e [.work disk, .work disk] =
      { e.dropEdit p with index := e.index.withEdit p, phase := .committing due } := by
  show (e.step tree disk).step tree disk = _
  rw [step_of_committing tree disk hphase]
  exact step_of_committed rfl

end Step

end Engine

end JavaAtlas
