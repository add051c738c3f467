import JavaAtlas.Proofs.Engine.Acts
import Mathlib.Data.List.Induction

namespace JavaAtlas

/-! # How long the index counts as being built

Whoever asks for the index to be built sets one flag, and whichever build ends first clears it.

* `Engine.takenAlong_append_queue`: commands are taken in the order in which they were left;
* `Engine.building_of_not_taken`: the flag stays set as long as no build is taken up;
* `Engine.exists_ready`: a build that is ahead of a command ends, and clears the flag, before the
  worker comes to that command;
* `Engine.building_until_built_iff`: so the flag stays set until the build that was asked for is
  done exactly if it is set at first and no other build is ahead.
-/

namespace Engine

/-- Whether it is a step of the worker. -/
def Act.isWork : Act → Bool
  | .work _ => true
  | .leaveEdit _ _ | .markBuilding | .submit _ | .pause _ | .reorder _ _ => false

/-- The command that the worker takes in its next step. -/
def nextCommand (e : Engine) : List Command := if e.phase = .waiting then e.queue.take 1 else []

/-- The command that an act takes out of the queue. -/
def takenBy (e : Engine) : Act → List Command
  | .work _ => e.nextCommand
  | .leaveEdit _ _ | .markBuilding | .submit _ | .pause _ | .reorder _ _ => []

/-- The command that an act puts into the queue. -/
def putBy (e : Engine) : Act → List Command
  | .submit c => if e.phase = .stopped then [] else [c]
  | .leaveEdit _ _ | .markBuilding | .pause _ | .reorder _ _ | .work _ => []

/-- The commands taken along a run, in their order. -/
def takenAlong (tree : SourceTree) (e : Engine) (acts : List Act) : List Command :=
  observed tree takenBy e acts

/-- A build that stands behind so many commands is not done. -/
def Unfinished (tree : SourceTree) (e : Engine) (ahead : Nat) (acts : List Act) : Prop :=
  (takenAlong tree e acts).length ≤ ahead ∨
  (takenAlong tree e acts).length = ahead + 1 ∧ (after tree e acts).phase = .building

/-- The worker is at a build, or comes to one before it is told to stop. -/
def BuildAhead (e : Engine) : Prop :=
  e.phase = .building ∨
  ∃ before rest, e.queue = before ++ .reindex :: rest ∧ .stop ∉ before

variable {tree : SourceTree} {disk : Disk} {e : Engine} {acts : List Act}

/-! ## The queue along a run -/

/-- A worker that is not waiting takes no command. -/
theorem nextCommand_of_ne (hphase : e.phase ≠ .waiting) : e.nextCommand = [] := if_neg hphase

/-- A worker that waits takes the first command of the queue. -/
theorem nextCommand_of_queue {c : Command} {rest : List Command} (hphase : e.phase = .waiting)
    (hqueue : e.queue = c :: rest) : e.nextCommand = [c] := by
  rw [nextCommand, if_pos hphase, hqueue]
  rfl

/-- A step takes the first command off the queue, if it takes one. -/
theorem nextCommand_append_queue_step : e.nextCommand ++ (e.step tree disk).queue = e.queue := by
  have hstep : Stepped e (e.step tree disk) := stepped_step
  generalize e.step tree disk = e' at hstep
  cases hstep with
  | idle hphase hqueue => rw [nextCommand, if_pos hphase, hqueue]; rfl
  | wake hphase hqueue => rw [nextCommand, if_pos hphase, hqueue]; rfl
  | stop hphase hqueue => rw [nextCommand_of_queue hphase hqueue, hqueue]; rfl
  | takeUp hphase hqueue => rw [nextCommand_of_queue hphase hqueue, hqueue]; rfl
  | carryOut _ _ hphase hqueue => rw [nextCommand_of_queue hphase hqueue, hqueue]; rfl
  | gone hphase | build _ _ hphase | analyzeOpen _ hphase | look hphase | rest hphase
  | commit hphase | drop hphase =>
    rw [nextCommand_of_ne (by simp [hphase])]
    rfl

/-- What is taken and what is left is what was there and what is put. -/
theorem takenBy_append_queue_act (a : Act) :
    takenBy e a ++ (act tree e a).queue = e.queue ++ putBy e a := by
  cases a with
  | work disk => rw [putBy, List.append_nil]; exact nextCommand_append_queue_step
  | submit c =>
    rw [takenBy, putBy, act, submit]
    split
    · simp
    · rfl
  | reorder openUnits pending =>
    rw [takenBy, putBy, act]
    split <;> simp
  | leaveEdit path text => simp [takenBy, putBy, act]
  | markBuilding => simp [takenBy, putBy, act]
  | pause time => simp [takenBy, putBy, act]

/-- What was taken and what still waits is what waited at first and what was put behind it. -/
theorem takenAlong_append_queue : takenAlong tree e acts ++ (after tree e acts).queue =
    e.queue ++ observed tree putBy e acts := by
  induction acts using List.reverseRecOn with
  | nil => simp [takenAlong]
  | append_singleton acts a ih =>
    rw [takenAlong] at ih ⊢
    simp only [observed_concat, after_concat, List.append_assoc, takenBy_append_queue_act]
    rw [← List.append_assoc, ih, List.append_assoc]

/-- The commands taken so far are the first ones of those that waited, while they are as few. -/
theorem takenAlong_isPrefix {ahead more : List Command} (hqueue : e.queue = ahead ++ more)
    (hlength : (takenAlong tree e acts).length ≤ ahead.length) :
    takenAlong tree e acts <+: ahead := by
  refine List.prefix_of_prefix_length_le (List.prefix_append _ (after tree e acts).queue) ?_ hlength
  rw [takenAlong_append_queue, hqueue, List.append_assoc]
  exact List.prefix_append _ _

/-- A worker that has taken the command to stop takes no other. -/
theorem stopped_of_nextCommand (h : .stop ∈ e.nextCommand) :
    (e.step tree disk).phase = .stopped := by
  have hphase : e.phase = .waiting := by
    by_contra hne
    rw [nextCommand_of_ne hne] at h
    cases h
  rw [nextCommand, if_pos hphase] at h
  cases hqueue : e.queue with
  | nil =>
    rw [hqueue] at h
    cases h
  | cons c rest =>
    rw [hqueue, List.take_succ_cons, List.take_zero, List.mem_singleton] at h
    rw [step, hphase]
    dsimp only
    rw [receive, hqueue, ← h]

/-- Others do not move the worker, and do not clear the flag. -/
theorem act_of_others (tree : SourceTree) (e : Engine) {a : Act} (hothers : a.isWork = false) :
    (act tree e a).phase = e.phase ∧ (e.building = true → (act tree e a).building = true) := by
  cases a with
  | work disk => cases hothers
  | submit c =>
    rw [act, submit]
    split <;> exact ⟨rfl, id⟩
  | reorder openUnits pending =>
    rw [act]
    split <;> exact ⟨rfl, id⟩
  | leaveEdit path text => exact ⟨rfl, id⟩
  | markBuilding => exact ⟨rfl, fun _ => rfl⟩
  | pause time => exact ⟨rfl, id⟩

/-- A worker that has stopped stays so. -/
theorem phase_act_of_stopped (hphase : e.phase = .stopped) (a : Act) :
    (act tree e a).phase = .stopped := by
  cases a with
  | work disk =>
    rw [act, step, hphase]
    exact hphase
  | leaveEdit _ _ | markBuilding | submit _ | pause _ | reorder _ _ =>
    rw [(act_of_others tree e rfl).1, hphase]

/-- A worker that has stopped takes nothing. -/
theorem takenBy_of_stopped (hphase : e.phase = .stopped) (a : Act) : takenBy e a = [] := by
  cases a with
  | work disk => exact nextCommand_of_ne (by simp [hphase])
  | leaveEdit _ _ | markBuilding | submit _ | pause _ | reorder _ _ => rfl

/-- One command at most is taken at a time. -/
theorem length_nextCommand_le : e.nextCommand.length ≤ 1 := by
  rw [nextCommand]
  split
  · exact List.length_take_le 1 e.queue
  · exact Nat.zero_le 1

/-- Once the command to stop was taken the worker has stopped, and takes no other. -/
theorem stop_taken_last :
    (.stop ∈ takenAlong tree e acts → (after tree e acts).phase = .stopped) ∧
    (takenAlong tree e acts).Pairwise fun c _ => c ≠ .stop := by
  induction acts using List.reverseRecOn with
  | nil => simp [takenAlong]
  | append_singleton acts a ih =>
    obtain ⟨hstopped, hearlier⟩ := ih
    rw [takenAlong] at hstopped hearlier ⊢
    rw [observed_concat, after_concat]
    -- After a stop nothing is taken, so only the first stop can be.
    by_cases hbefore : (after tree e acts).phase = .stopped
    · rw [takenBy_of_stopped hbefore, List.append_nil]
      exact ⟨fun _ => phase_act_of_stopped hbefore a, hearlier⟩
    · have hnot : .stop ∉ observed tree takenBy e acts := fun h => hbefore (hstopped h)
      cases a with
      | work disk =>
        constructor
        · intro h
          exact stopped_of_nextCommand ((List.mem_append.mp h).resolve_left hnot)
        · refine List.pairwise_append.mpr ⟨hearlier, ?_, ?_⟩
          · -- one step takes one command at most
            have hone := length_nextCommand_le (e := after tree e acts)
            rw [takenBy]
            generalize (after tree e acts).nextCommand = taken at hone
            match taken, hone with
            | [], _ => exact List.Pairwise.nil
            | [c], _ => exact List.pairwise_singleton _ c
          · rintro c hc d - rfl
            exact hnot hc
      | leaveEdit _ _ | markBuilding | submit _ | pause _ | reorder _ _ =>
        rw [takenBy, List.append_nil]
        exact ⟨fun h => absurd h hnot, hearlier⟩

/-- A build that was taken from among the first commands was ahead. -/
theorem buildAhead_of_taken {ahead more : List Command}
    (hqueue : e.queue = ahead ++ more) (hlength : (takenAlong tree e acts).length ≤ ahead.length)
    (htaken : .reindex ∈ takenAlong tree e acts) :
    ∃ before rest, ahead = before ++ .reindex :: rest ∧ .stop ∉ before := by
  obtain ⟨before, between, hsplit⟩ := List.append_of_mem htaken
  obtain ⟨rest, hrest⟩ := takenAlong_isPrefix hqueue hlength
  refine ⟨before, between ++ rest, ?_, ?_⟩
  · rw [← hrest, hsplit, List.append_assoc, List.cons_append]
  · intro hstop
    have hearlier : (takenAlong tree e acts).Pairwise fun c _ => c ≠ .stop := stop_taken_last.2
    rw [hsplit] at hearlier
    exact (List.pairwise_append.mp hearlier).2.2 .stop hstop .reindex (by simp) rfl

/-! ## The flag

It is cleared by the end of a build only, and a build is taken up before it ends.
-/

/-- At a build the flag is set. -/
theorem building_at_build (h : e.phase = .building → e.building = true) :
    (after tree e acts).phase = .building → (after tree e acts).building = true := by
  induction acts using List.reverseRecOn with
  | nil => exact h
  | append_singleton acts a ih =>
    rw [after_concat]
    generalize after tree e acts = e at ih
    cases a with
    | work disk =>
      have hstep : Stepped e (e.step tree disk) := stepped_step
      rw [act]
      generalize e.step tree disk = e' at hstep
      cases hstep with
      | idle | gone => exact ih
      -- The flag is set with the step that takes the command up.
      | takeUp => exact fun _ => rfl
      | build _ _ _ hnext =>
        rcases hnext with rfl | rfl
        · exact nofun
        · exact nofun
      | wake | stop | carryOut | analyzeOpen | look | rest | commit | drop => exact nofun
    | leaveEdit _ _ | markBuilding | submit _ | pause _ | reorder _ _ =>
      intro hbuild
      rw [(act_of_others tree e rfl).1] at hbuild
      exact (act_of_others tree e rfl).2 (ih hbuild)

/-- A flag that is set stays set as long as no build is taken up. -/
theorem building_of_not_taken (hflag : e.building = true) (hphase : e.phase ≠ .building)
    (hnot : .reindex ∉ takenAlong tree e acts) :
    (after tree e acts).building = true ∧ (after tree e acts).phase ≠ .building := by
  induction acts using List.reverseRecOn with
  | nil => exact ⟨hflag, hphase⟩
  | append_singleton acts a ih =>
    rw [takenAlong, observed_concat, List.mem_append, not_or] at hnot
    obtain ⟨hflag, hphase⟩ := ih hnot.1
    have hnext := hnot.2
    rw [after_concat]
    generalize after tree e acts = e at hflag hphase hnext
    cases a with
    | work disk =>
      have hstep : Stepped e (e.step tree disk) := stepped_step
      rw [act]
      generalize e.step tree disk = e' at hstep
      cases hstep with
      | idle | gone => exact ⟨hflag, hphase⟩
      | takeUp hwaiting hqueue =>
        -- Only this step leads to a build, and the command was not taken.
        rw [takenBy, nextCommand_of_queue hwaiting hqueue] at hnext
        exact absurd List.mem_cons_self hnext
      | build _ _ hbuild => exact absurd hbuild hphase
      | wake | stop | carryOut | analyzeOpen | look | rest | commit | drop => exact ⟨hflag, nofun⟩
    | leaveEdit _ _ | markBuilding | submit _ | pause _ | reorder _ _ =>
      rw [(act_of_others tree e rfl).1]
      exact ⟨(act_of_others tree e rfl).2 hflag, hphase⟩

/-! ## A build that is ahead ends first -/

/-- There is a run from one engine to another on which so many commands are taken. -/
def Reaches (tree : SourceTree) (e : Engine) (count : Nat) (e' : Engine) : Prop :=
  ∃ acts, (takenAlong tree e acts).length = count ∧ after tree e acts = e'

namespace Reaches

variable {e' e'' : Engine} {count count' : Nat}

/-- Without a step the worker is where it was. -/
theorem refl : Reaches tree e 0 e := ⟨[], rfl, rfl⟩

/-- Steps after steps are steps. -/
theorem trans (h : Reaches tree e count e') (h' : Reaches tree e' count' e'') :
    Reaches tree e (count + count') e'' := by
  obtain ⟨acts, rfl, rfl⟩ := h
  obtain ⟨acts', rfl, rfl⟩ := h'
  refine ⟨acts ++ acts', ?_, after_append⟩
  rw [takenAlong, observed_append, List.length_append]
  rfl

/-- A step of the worker while it does not wait for a command. -/
theorem quiet (hphase : e.phase ≠ .waiting) (hstep : e.step tree disk = e') :
    Reaches tree e 0 e' := by
  refine ⟨[.work disk], ?_, hstep⟩
  simp [takenAlong, observed, takenBy, nextCommand_of_ne hphase]

/-- A step of the worker that takes a command. -/
theorem taking {c : Command} {rest : List Command} (hphase : e.phase = .waiting)
    (hqueue : e.queue = c :: rest) (hstep : e.step tree disk = e') : Reaches tree e 1 e' := by
  refine ⟨[.work disk], ?_, hstep⟩
  simp [takenAlong, observed, takenBy, nextCommand_of_queue hphase hqueue]

end Reaches

/-- Left alone, the worker takes no command before it waits for one. -/
def ComesToWait (tree : SourceTree) (e : Engine) : Prop :=
  ∃ e', Reaches tree e 0 e' ∧ e'.phase = .waiting ∧ e'.queue = e.queue

/-- A worker comes to wait if it does after one more step. -/
theorem ComesToWait.of_step {e' : Engine} (h : ComesToWait tree e') (hphase : e.phase ≠ .waiting)
    (hstep : e.step tree {} = e') (hsame : e'.queue = e.queue) : ComesToWait tree e := by
  obtain ⟨e'', hreaches, hwaiting, hqueue⟩ := h
  exact ⟨e'', (Reaches.quiet hphase hstep).trans hreaches, hwaiting, hqueue.trans hsame⟩

/-- A worker that commits edits comes to wait, however many are due. -/
theorem comesToWait_of_committing (due : List PendingEdit) (hphase : e.phase = .committing due) :
    ComesToWait tree e := by
  induction due generalizing e with
  | nil =>
    have hwaits : ComesToWait tree { e with phase := .waiting } := ⟨_, .refl, rfl, rfl⟩
    exact hwaits.of_step (by simp [hphase]) (step_of_rest hphase) rfl
  | cons p due ih =>
    have hdropped : ComesToWait tree
        { e.dropEdit p with index := e.index.withEdit p, phase := .committing due } := ih rfl
    have hnext : ComesToWait tree
        { e with index := e.index.withEdit p, phase := .committed p due } :=
      hdropped.of_step nofun (step_of_committed rfl) rfl
    exact hnext.of_step (by simp [hphase]) (step_of_committing tree {} hphase) rfl

/-- So does every worker that is neither building nor stopped. -/
theorem comesToWait (tree : SourceTree) (hbuild : e.phase ≠ .building) (hstop : e.phase ≠ .stopped) :
    ComesToWait tree e := by
  have hhandled : ∀ {e : Engine}, e.phase = .handled → ComesToWait tree e := by
    intro e hphase
    have hlooked : ComesToWait tree { e with phase := .committing e.dueEdits } :=
      comesToWait_of_committing e.dueEdits rfl
    exact hlooked.of_step (by simp [hphase]) (step_of_handled hphase) rfl
  cases hphase : e.phase with
  | waiting => exact ⟨e, .refl, hphase, rfl⟩
  | building => exact absurd hphase hbuild
  | stopped => exact absurd hphase hstop
  | handled => exact hhandled hphase
  | built =>
    obtain ⟨index, hanalyzed⟩ := step_of_built tree {} hphase
    have hnext : ComesToWait tree { e with index, phase := .handled } := hhandled rfl
    exact hnext.of_step (by simp [hphase]) hanalyzed rfl
  | committing due => exact comesToWait_of_committing due hphase
  | committed p due =>
    -- What was tried is dropped, and then the rest is committed.
    have hdropped : ComesToWait tree { e.dropEdit p with phase := .committing due } :=
      comesToWait_of_committing due rfl
    exact hdropped.of_step (by simp [hphase]) (step_of_committed hphase) rfl

/-- The next step of a worker at a build clears the flag. -/
theorem exists_ready_of_building (tree : SourceTree) (hphase : e.phase = .building) :
    ∃ e', Reaches tree e 0 e' ∧ e'.building = false := by
  obtain ⟨index, phase, -, hbuilt⟩ := build_eq tree {} e
  have hstep : e.step tree {} = { e with index, building := false, phase } := by
    rw [step, hphase]
    exact hbuilt
  exact ⟨_, .quiet (by simp [hphase]) hstep, rfl⟩

/-- A build that is first in the queue ends before anything else is taken. -/
theorem exists_ready_of_first (tree : SourceTree) {rest : List Command} (hbuild : e.phase ≠ .building)
    (hstop : e.phase ≠ .stopped) (hqueue : e.queue = .reindex :: rest) :
    ∃ e', Reaches tree e 1 e' ∧ e'.building = false := by
  obtain ⟨e₁, hwaits, hwaiting, hsame⟩ := comesToWait tree hbuild hstop
  have hfirst : e₁.queue = .reindex :: rest := hsame.trans hqueue
  have htakes : Reaches tree e₁ 1
      { e₁ with queue := rest, building := true, phase := .building } :=
    .taking hwaiting hfirst (step_of_waiting tree {} hwaiting hfirst nofun)
  obtain ⟨e₂, hends, hready⟩ := exists_ready_of_building tree
    (e := { e₁ with queue := rest, building := true, phase := .building }) rfl
  exact ⟨e₂, (hwaits.trans htakes).trans hends, hready⟩

/-- Any other command but the one to stop is carried out at once. -/
theorem exists_handled (tree : SourceTree) {c : Command} {rest : List Command} (hbuild : e.phase ≠ .building)
    (hstop : e.phase ≠ .stopped) (hqueue : e.queue = c :: rest) (hc : c ≠ .reindex)
    (hc' : c ≠ .stop) :
    ∃ e', Reaches tree e 1 e' ∧ e'.phase = .handled ∧ e'.queue = rest := by
  obtain ⟨e₁, hwaits, hwaiting, hsame⟩ := comesToWait tree hbuild hstop
  have hfirst : e₁.queue = c :: rest := hsame.trans hqueue
  obtain ⟨index, openUnits, hhandled⟩ :=
    handle_eq tree {} { e₁ with queue := rest, phase := .handled } hc
  exact ⟨_, hwaits.trans (.taking hwaiting hfirst
    ((step_of_waiting tree {} hwaiting hfirst hc').trans hhandled)), rfl, rfl⟩

/-- The first build ahead ends before the worker has taken what stands behind it. -/
theorem exists_ready (tree : SourceTree) {before rest : List Command} (hbuild : e.phase ≠ .building)
    (hstop : e.phase ≠ .stopped) (hqueue : e.queue = before ++ .reindex :: rest)
    (hbefore : .stop ∉ before) :
    ∃ count e', count ≤ before.length + 1 ∧ Reaches tree e count e' ∧ e'.building = false := by
  induction before generalizing e with
  | nil =>
    obtain ⟨e', hends, hready⟩ := exists_ready_of_first tree hbuild hstop hqueue
    exact ⟨1, e', Nat.le_refl 1, hends, hready⟩
  | cons c before ih =>
    rw [List.mem_cons, not_or] at hbefore
    obtain ⟨hc', hbefore⟩ := hbefore
    -- An earlier build will do as well.
    by_cases hc : c = .reindex
    · subst hc
      obtain ⟨e', hends, hready⟩ := exists_ready_of_first tree hbuild hstop hqueue
      exact ⟨1, e', Nat.le_add_left 1 _, hends, hready⟩
    · obtain ⟨e₁, hhandles, hhandled, hrest⟩ :=
        exists_handled tree hbuild hstop hqueue hc (Ne.symm hc')
      obtain ⟨count, e₂, hcount, hends, hready⟩ :=
        ih (by simp [hhandled]) (by simp [hhandled]) hrest hbefore
      refine ⟨1 + count, e₂, ?_, hhandles.trans hends, hready⟩
      rw [List.length_cons]
      omega

/-! ## The exact condition -/

/-- A command is accepted exactly while the worker has not stopped. -/
@[simp]
theorem submit_eq_ok_iff {c : Command} : (e.submit c).2 = .ok () ↔ e.phase ≠ .stopped := by
  rw [submit]
  split
  next hstopped => simp [hstopped]
  next hphase => simp [hphase]

/-- The index is told to be built exactly while the flag is set. -/
@[simp]
theorem indexState_eq_building_iff : e.indexState = .building ↔ e.building = true := by
  rw [indexState]
  split
  next hset => simp [hset]
  next hset => simp [hset]

/-- A build ahead of a command can end while that command waits. -/
theorem BuildAhead.exists_ready (tree : SourceTree) (hahead : e.BuildAhead)
    (hstop : e.phase ≠ .stopped) (more : List Command) :
    ∃ count e', count ≤ e.queue.length ∧
      Reaches tree { e with queue := e.queue ++ more } count e' ∧ e'.building = false := by
  by_cases hbuild : e.phase = .building
  · obtain ⟨e', hends, hready⟩ := exists_ready_of_building tree
      (e := { e with queue := e.queue ++ more }) hbuild
    exact ⟨0, e', Nat.zero_le _, hends, hready⟩
  · obtain ⟨before, rest, hqueue, hbefore⟩ := hahead.resolve_left hbuild
    have hmore : e.queue ++ more = before ++ .reindex :: (rest ++ more) := by
      rw [hqueue, List.append_assoc, List.cons_append]
    obtain ⟨count, e', hcount, hends, hready⟩ := Engine.exists_ready tree
      (e := { e with queue := e.queue ++ more }) hbuild hstop hmore hbefore
    refine ⟨count, e', ?_, hends, hready⟩
    rw [hqueue, List.length_append, List.length_cons]
    omega

/-- The index counts as being built until the build asked for is done, whatever else happens,
exactly if it counts as that when the command is left and no other build is ahead. The end of a
build that is ahead clears the flag while this one still waits. -/
theorem building_until_built_iff (tree : SourceTree) (e : Engine)
    (hok : (e.submit .reindex).2 = .ok ()) :
    (∀ acts, Unfinished tree (e.submit .reindex).1 e.queue.length acts →
      (after tree (e.submit .reindex).1 acts).indexState = .building) ↔
    e.indexState = .building ∧ ¬ e.BuildAhead := by
  have hstop : e.phase ≠ .stopped := submit_eq_ok_iff.mp hok
  have hsubmit : (e.submit .reindex).1 = { e with queue := e.queue ++ [.reindex] } := by
    rw [submit, if_neg hstop]
  rw [hsubmit]
  constructor
  · intro hall
    refine ⟨hall [] (.inl (Nat.zero_le _)), ?_⟩
    intro hahead
    obtain ⟨count, e', hcount, ⟨acts, htaken, rfl⟩, hready⟩ :=
      hahead.exists_ready tree hstop [.reindex]
    have hbuilding := indexState_eq_building_iff.mp (hall acts (.inl (by omega)))
    rw [hready] at hbuilding
    cases hbuilding
  · rintro ⟨hflag, hahead⟩ acts hunfinished
    rw [indexState_eq_building_iff] at hflag ⊢
    have hphase : e.phase ≠ .building := fun h => hahead (.inl h)
    rcases hunfinished with hlength | ⟨-, hbuild⟩
    · refine (building_of_not_taken (e := { e with queue := e.queue ++ [.reindex] })
        hflag hphase ?_).1
      -- what was taken so far was ahead, so it is no build
      intro htaken
      obtain ⟨before, rest, hqueue, hbefore⟩ := buildAhead_of_taken rfl hlength htaken
      exact hahead (.inr ⟨before, rest, hqueue, hbefore⟩)
    · exact building_at_build (fun h => absurd h hphase) hbuild

/-- A worker that starts with a build counts as building until it is done. -/
theorem building_until_built_iff_start :
    ((markBuilding {}).submit .reindex).2 = .ok () ∧
    ((markBuilding {}).submit .reindex).1 = start 0 ∧
    ∀ acts, Unfinished { root := "/w" } (start 0) 0 acts →
      (after { root := "/w" } (start 0) acts).indexState = .building := by
  refine ⟨rfl, rfl, ?_⟩
  refine (building_until_built_iff { root := "/w" } (markBuilding {}) rfl).mpr ⟨rfl, ?_⟩
  rintro (hbuild | ⟨before, rest, hqueue, -⟩)
  · cases hbuild
  · cases before with
    | nil => cases hqueue
    | cons c before => cases hqueue

/-- A build that is asked for while the first one waits is still to come, and no build is under way,
when the index no longer counts as being built. -/
theorem ready_while_build_waits :
    (start 0).requestReindex.2 = .ok () ∧
    Unfinished { root := "/w" } (start 0).requestReindex.1 1 [.work {}, .work {}] ∧
    (after { root := "/w" } (start 0).requestReindex.1 [.work {}, .work {}]).queue = [.reindex] ∧
    (after { root := "/w" } (start 0).requestReindex.1 [.work {}, .work {}]).indexState = .ready := by
  obtain ⟨index, phase, -, hbuilt⟩ := build_eq { root := "/w" } {}
    { (start 0).requestReindex.1 with queue := [.reindex], phase := .building }
  have hafter : after { root := "/w" } (start 0).requestReindex.1 [.work {}, .work {}] =
      { (start 0).requestReindex.1 with index, building := false, queue := [.reindex], phase } :=
    hbuilt
  refine ⟨rfl, .inl (Nat.le_refl 1), ?_, ?_⟩
  · rw [hafter]
  · rw [hafter]
    rfl

end Engine

end JavaAtlas
