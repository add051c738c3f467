import JavaAtlas.Proofs.Engine.Acts
import JavaAtlas.Proofs.Index.Markers
import JavaAtlas.Proofs.Java.WellFormed
import Mathlib.Data.List.Sort
import Mathlib.Data.List.Induction

namespace JavaAtlas

/-! # Edits on their way into the index

Others leave edits while the worker takes them into the index one by one. The worker looks once
which edits are due and then commits what it saw, so a newer edit of the same path may come before
an older one is committed, and before it is dropped.

* `PendingEdit.Newest`, `PendingEdit.Fresh`: the last edit of its path that was left, and an edit
  of whose path only earlier ones were tried;
* `Engine.Tracks`: what the edits left, the edits tried and the state of the worker have to do with
  each other at any time, with one lemma for each act that touches them;
* `Engine.tracks_after`: it holds along every run;
* `Engine.TakesIn`, `Engine.takesIn`: to try an edit is to index its text and to analyze it, and
  no other act brings an edited text into the index;
* `Engine.edits_tried_in_order`: for each path the worker tries some of the edits left, in their
  order and none of them twice, and the last of them unless one waits.
-/

namespace PendingEdit

/-- No later edit of its path was left. -/
structure Newest (left : List PendingEdit) (p : PendingEdit) : Prop where
  mem : p ∈ left
  le : ∀ q ∈ left, q.path = p.path → q.queued ≤ p.queued

/-- Of its path only earlier edits were tried. -/
def Fresh (tried : List PendingEdit) (p : PendingEdit) : Prop :=
  ∀ q ∈ tried, q.path = p.path → q.queued < p.queued

/-- Edits that were left one after the other. -/
def Ascending (edits : List PendingEdit) : Prop := edits.Pairwise fun p q => p.queued < q.queued

variable {edits others tried : List PendingEdit} {p q : PendingEdit}

/-- No two edits have one number. -/
theorem Ascending.nodup_queued (h : Ascending edits) : (edits.map (·.queued)).Nodup :=
  List.pairwise_map.mpr (h.imp Nat.ne_of_lt)

/-- No edit is there twice. -/
theorem Ascending.nodup (h : Ascending edits) : edits.Nodup := h.nodup_queued.of_map

/-- The time at which an edit was left tells which it is. -/
theorem Ascending.eq_of_queued_eq (h : Ascending edits) (hp : p ∈ edits) (hq : q ∈ edits)
    (hqueued : p.queued = q.queued) : p = q :=
  List.inj_on_of_nodup_map h.nodup_queued hp hq hqueued

/-- Edits stay in order when some are left out. -/
theorem Ascending.filter (h : Ascending edits) (keep : PendingEdit → Bool) :
    Ascending (edits.filter keep) :=
  List.Pairwise.filter keep h

/-- Edits that all occur among others, both in the order of time, occur there in that order. -/
theorem Ascending.sublist (h : Ascending edits) (h' : Ascending others) (hmem : edits ⊆ others) :
    edits.Sublist others := by
  have hantisymm : Std.Antisymm fun p q : PendingEdit => p.queued < q.queued :=
    ⟨fun p q hpq hqp => absurd hpq (by omega)⟩
  exact List.sublist_of_subperm_of_pairwise (List.subperm_of_subset h.nodup hmem) h h'

/-- An edit that none was left after stands last. -/
theorem Ascending.getLast?_eq (h : Ascending edits) (hp : p ∈ edits)
    (hle : ∀ q ∈ edits, q.queued ≤ p.queued) : edits.getLast? = some p := by
  obtain ⟨before, rest, rfl⟩ := List.append_of_mem hp
  cases rest with
  | nil => exact List.getLast?_concat
  | cons q rest =>
    have hlater : Ascending (p :: q :: rest) := (List.pairwise_append.mp h).2.1
    have hlt : p.queued < q.queued := List.rel_of_pairwise_cons hlater List.mem_cons_self
    have hge : q.queued ≤ p.queued := hle q (by simp)
    omega

/-- An edit later than all others is the newest of its path, and no other path is concerned. -/
theorem newest_concat_iff (hlater : ∀ r ∈ edits, r.queued < q.queued) :
    Newest (edits ++ [q]) p ↔ p = q ∨ p.path ≠ q.path ∧ Newest edits p := by
  constructor
  · intro hp
    rcases List.mem_append.mp hp.mem with hmem | hmem
    · right
      constructor
      · -- of one path with the later edit, it would not be the newest
        intro hpath
        have hge := hp.le q (by simp) hpath.symm
        have hlt := hlater p hmem
        omega
      · exact ⟨hmem, fun r hr => hp.le r (List.mem_append_left _ hr)⟩
    · exact .inl (List.mem_singleton.mp hmem)
  · -- The last edit is newer than all, and leaves those of other paths as they are.
    rintro (rfl | ⟨hne, hp⟩)
    · refine ⟨by simp, ?_⟩
      intro r hr _
      rcases List.mem_append.mp hr with hr | hr
      · exact Nat.le_of_lt (hlater r hr)
      · rw [List.mem_singleton.mp hr]
    · refine ⟨List.mem_append_left _ hp.mem, ?_⟩
      intro r hr hpath
      rcases List.mem_append.mp hr with hr | hr
      · exact hp.le r hr hpath
      · rw [List.mem_singleton.mp hr] at hpath
        exact absurd hpath.symm hne

/-- An edit is newer than those tried exactly if it is newer than all but the last and than the
last. -/
@[simp]
theorem fresh_concat_iff : Fresh (tried ++ [q]) p ↔
    Fresh tried p ∧ (q.path = p.path → q.queued < p.queued) := by
  simp [Fresh, or_imp, forall_and]

/-- Two pending edits are never of one path. -/
def OnePerPath (edits : List PendingEdit) : Prop := edits.Pairwise fun p q => p.path ≠ q.path

/-- That a path has one edit does not depend on the order. -/
theorem OnePerPath.perm (h : OnePerPath edits) (hperm : others.Perm edits) : OnePerPath others :=
  (hperm.pairwise_iff fun hne => hne.symm).mpr h

/-- Nor does it change when some are left out. -/
theorem OnePerPath.filter (h : OnePerPath edits) (keep : PendingEdit → Bool) :
    OnePerPath (edits.filter keep) :=
  List.Pairwise.filter keep h

end PendingEdit

/-- The edits that the worker has still to commit. -/
def Phase.due : Phase → List PendingEdit
  | .committing due | .committed _ due => due
  | .waiting | .building | .built | .handled | .stopped => []

/-- The edit that the worker commits in its next step. -/
def Phase.next : Phase → List PendingEdit
  | .committing (p :: _) => [p]
  | .committing [] | .committed _ _ | .waiting | .building | .built | .handled | .stopped => []

/-- The next edit is the first one that is due. -/
@[simp]
theorem Phase.mem_next_iff {phase : Phase} {p : PendingEdit} :
    p ∈ phase.next ↔ ∃ due, phase = .committing (p :: due) := by
  unfold Phase.next
  split <;> simp [eq_comm]

/-- The edit that the worker has committed and not yet dropped. -/
def Phase.justTried : Phase → Option PendingEdit
  | .committed p _ => some p
  | .waiting | .building | .built | .handled | .committing _ | .stopped => none

namespace Engine

open PendingEdit

/-! ## What was left and what was tried -/

/-- The edit that an act leaves. -/
def leftBy (e : Engine) : Act → List PendingEdit
  | .leaveEdit path text => [{ path, text, queued := e.now }]
  | .markBuilding | .submit _ | .pause _ | .reorder _ _ | .work _ => []

/-- The edit whose text an act takes into the index, or fails to. -/
def triedBy (e : Engine) : Act → List PendingEdit
  | .work _ => e.phase.next
  | .leaveEdit _ _ | .markBuilding | .submit _ | .pause _ | .reorder _ _ => []

/-- The edits left along a run, in their order. -/
def leftEdits (tree : SourceTree) (e : Engine) (acts : List Act) : List PendingEdit :=
  observed tree leftBy e acts

/-- The edits tried along a run, in their order. -/
def triedEdits (tree : SourceTree) (e : Engine) (acts : List Act) : List PendingEdit :=
  observed tree triedBy e acts

/-- The edits of a path. -/
def editsOf (path : String) (edits : List PendingEdit) : List PendingEdit :=
  edits.filter (·.path == path)

/-- The edits of a path are those that have it. -/
@[simp]
theorem mem_editsOf {path : String} {edits : List PendingEdit} {p : PendingEdit} :
    p ∈ editsOf path edits ↔ p ∈ edits ∧ p.path = path := by
  simp [editsOf]

/-- What the state of the worker has to do with the edits left and tried so far. -/
structure Tracks (e : Engine) (left tried : List PendingEdit) : Prop where
  /-- The clock is ahead of all edits. -/
  earlier : ∀ p ∈ left, p.queued < e.now
  leftAscending : Ascending left
  triedAscending : tried.Pairwise fun p q => p.path = q.path → p.queued < q.queued
  triedLeft : ∀ p ∈ tried, p ∈ left
  onePending : OnePerPath e.pending
  pendingNewest : ∀ p ∈ e.pending, Newest left p
  /-- The newest edit of a path waits or was tried. -/
  settled : ∀ p, Newest left p → p ∈ e.pending ∨ p ∈ tried
  /-- What waits has not been tried, unless it is about to be dropped. -/
  pendingFresh : ∀ p ∈ e.pending, e.phase.justTried ≠ some p → Fresh tried p
  justTried : ∀ p, e.phase.justTried = some p → p ∈ tried
  oneDue : OnePerPath e.phase.due
  dueLeft : ∀ p ∈ e.phase.due, p ∈ left
  dueFresh : ∀ p ∈ e.phase.due, Fresh tried p

namespace Tracks

variable {e e' : Engine} {left tried : List PendingEdit} {p : PendingEdit}

/-- At the start nothing was left and nothing waits. -/
theorem initial (hphase : e.phase = .waiting) (hpending : e.pending = []) : Tracks e [] [] where
  earlier := by simp
  leftAscending := List.Pairwise.nil
  triedAscending := List.Pairwise.nil
  triedLeft := by simp
  onePending := by simp [OnePerPath, hpending]
  pendingNewest := by simp [hpending]
  settled := by
    intro p hp
    exact absurd hp.mem List.not_mem_nil
  pendingFresh := by simp [hpending]
  justTried := by simp [hphase, Phase.justTried]
  oneDue := by simp [OnePerPath, hphase, Phase.due]
  dueLeft := by simp [hphase, Phase.due]
  dueFresh := by simp [hphase, Phase.due]

/-- Nothing is said of the index, of the queue, or of how the worker came to where it is; the order
in which edits wait does not matter, and time may go by. -/
theorem congr (h : Tracks e left tried) (hpending : e'.pending.Perm e.pending)
    (hnow : e.now ≤ e'.now) (hdue : e'.phase.due = e.phase.due)
    (hjust : e'.phase.justTried = e.phase.justTried) : Tracks e' left tried where
  earlier := by
    intro p hp
    have := h.earlier p hp
    omega
  leftAscending := h.leftAscending
  triedAscending := h.triedAscending
  triedLeft := h.triedLeft
  onePending := h.onePending.perm hpending
  pendingNewest := fun p hp => h.pendingNewest p (hpending.mem_iff.mp hp)
  settled := by
    intro p hp
    rw [hpending.mem_iff]
    exact h.settled p hp
  pendingFresh := by
    intro p hp hne
    rw [hjust] at hne
    exact h.pendingFresh p (hpending.mem_iff.mp hp) hne
  justTried := hjust ▸ h.justTried
  oneDue := hdue ▸ h.oneDue
  dueLeft := hdue ▸ h.dueLeft
  dueFresh := hdue ▸ h.dueFresh

/-- An edit is left in place of the one that waits for its path. -/
theorem leaveEdit (h : Tracks e left tried) (path text : String) :
    Tracks (e.leaveEdit path text) (left ++ [{ path, text, queued := e.now }]) tried := by
  refine
    { earlier := ?_
      leftAscending := ?_
      triedAscending := h.triedAscending
      triedLeft := fun p hp => List.mem_append_left _ (h.triedLeft p hp)
      onePending := ?_
      pendingNewest := ?_
      settled := ?_
      pendingFresh := ?_
      justTried := h.justTried
      oneDue := h.oneDue
      dueLeft := fun p hp => List.mem_append_left _ (h.dueLeft p hp)
      dueFresh := h.dueFresh }
  · intro p hp
    rw [now_leaveEdit]
    rcases List.mem_append.mp hp with hp | hp
    · have hlt := h.earlier p hp
      omega
    · rw [List.mem_singleton.mp hp]
      exact Nat.lt_succ_self e.now
  · refine List.pairwise_append.mpr ⟨h.leftAscending, List.pairwise_singleton _ _, ?_⟩
    intro p hp q hq
    rw [List.mem_singleton.mp hq]
    exact h.earlier p hp
  · refine List.pairwise_append.mpr ⟨h.onePending.filter _, List.pairwise_singleton _ _, ?_⟩
    intro p hp q hq
    rw [List.mem_singleton.mp hq]
    simpa using (List.mem_filter.mp hp).2
  · intro p hp
    rw [newest_concat_iff h.earlier]
    rcases mem_leaveEdit_iff.mp hp with ⟨hp, hne⟩ | hnew
    · exact .inr ⟨hne, h.pendingNewest p hp⟩
    · exact .inl hnew
  · intro p hp
    rw [mem_leaveEdit_iff]
    rcases (newest_concat_iff h.earlier).mp hp with hnew | ⟨hne, hp⟩
    · exact .inl (.inr hnew)
    · rcases h.settled p hp with hp | hp
      · exact .inl (.inl ⟨hp, hne⟩)
      · exact .inr hp
  · intro p hp hjust
    rcases mem_leaveEdit_iff.mp hp with ⟨hp, -⟩ | rfl
    · exact h.pendingFresh p hp hjust
    · -- whatever was tried had been left before
      intro q hq _
      exact h.earlier q (h.triedLeft q hq)

/-- The worker looks which edits are due. -/
theorem look (h : Tracks e left tried) (hphase : e.phase = .handled) :
    Tracks { e with phase := .committing e.dueEdits } left tried := by
  have hjust : e.phase.justTried = none := by rw [hphase]; rfl
  refine { h with
    pendingFresh := ?_
    justTried := nofun
    oneDue := h.onePending.filter _
    dueLeft := ?_
    dueFresh := ?_ }
  · intro p hp _
    exact h.pendingFresh p hp (by simp [hjust])
  · intro p hp
    exact (h.pendingNewest p (List.mem_of_mem_filter hp)).mem
  · intro p hp
    exact h.pendingFresh p (List.mem_of_mem_filter hp) (by simp [hjust])

/-- The worker commits an edit that it saw was due. By then a newer one may wait. -/
theorem commit {due : List PendingEdit} {index : Index} (h : Tracks e left tried)
    (hphase : e.phase = .committing (p :: due)) :
    Tracks { e with index, phase := .committed p due } left (tried ++ [p]) := by
  have hjust : e.phase.justTried = none := by rw [hphase]; rfl
  have hdue : e.phase.due = p :: due := by rw [hphase]; rfl
  have hone : OnePerPath (p :: due) := hdue ▸ h.oneDue
  have hleft : p ∈ left := h.dueLeft p (by simp [hdue])
  have hfresh : Fresh tried p := h.dueFresh p (by simp [hdue])
  refine
    { earlier := h.earlier
      leftAscending := h.leftAscending
      triedAscending := ?_
      triedLeft := ?_
      onePending := h.onePending
      pendingNewest := h.pendingNewest
      settled := ?_
      pendingFresh := ?_
      justTried := ?_
      oneDue := List.Pairwise.of_cons hone
      dueLeft := fun q hq => h.dueLeft q (hdue ▸ List.mem_cons_of_mem p hq)
      dueFresh := ?_ }
  · refine List.pairwise_append.mpr ⟨h.triedAscending, List.pairwise_singleton _ _, ?_⟩
    intro q hq r hr hpath
    rw [List.mem_singleton.mp hr] at hpath ⊢
    exact hfresh q hq hpath
  · intro q hq
    rcases List.mem_append.mp hq with hq | hq
    · exact h.triedLeft q hq
    · rwa [List.mem_singleton.mp hq]
  · intro q hq
    rcases h.settled q hq with hq | hq
    · exact .inl hq
    · exact .inr (List.mem_append_left _ hq)
  · -- an edit that waits and is another one came later than the one committed
    intro q hq hne
    have hother : q ≠ p := fun heq => hne (by rw [heq]; rfl)
    refine fresh_concat_iff.mpr ⟨h.pendingFresh q hq (by simp [hjust]), ?_⟩
    intro hpath
    have hnewest := h.pendingNewest q hq
    have hle := hnewest.le p hleft hpath
    have hqueued : p.queued ≠ q.queued := by
      intro heq
      exact hother (h.leftAscending.eq_of_queued_eq hleft hnewest.mem heq).symm
    omega
  · intro q hq
    cases hq
    simp
  · intro q hq
    have hq' : q ∈ e.phase.due := hdue ▸ List.mem_cons_of_mem p hq
    refine fresh_concat_iff.mpr ⟨h.dueFresh q hq', ?_⟩
    intro hpath
    exact absurd hpath (List.rel_of_pairwise_cons hone hq)

/-- The worker drops the edit that it has committed, and no other. -/
theorem drop {due : List PendingEdit} (h : Tracks e left tried)
    (hphase : e.phase = .committed p due) :
    Tracks { e.dropEdit p with phase := .committing due } left tried := by
  have hjust : e.phase.justTried = some p := by rw [hphase]; rfl
  have hdue : e.phase.due = due := by rw [hphase]; rfl
  have htried : p ∈ tried := h.justTried p hjust
  -- of the edits that wait, the identity check drops at most this one
  have hpending : ∀ q, q ∈ (e.dropEdit p).pending ↔ q ∈ e.pending ∧ q ≠ p := by
    intro q
    rw [mem_dropEdit_iff]
    refine and_congr_right fun hq => ⟨?_, ?_⟩
    · rintro hkeep rfl
      exact hkeep rfl rfl
    · intro hne _ hqueued
      exact hne (h.leftAscending.eq_of_queued_eq (h.pendingNewest q hq).mem
        (h.triedLeft p htried) hqueued)
  refine
    { earlier := h.earlier
      leftAscending := h.leftAscending
      triedAscending := h.triedAscending
      triedLeft := h.triedLeft
      onePending := h.onePending.filter _
      pendingNewest := fun q hq => h.pendingNewest q ((hpending q).mp hq).1
      settled := ?_
      pendingFresh := ?_
      justTried := nofun
      oneDue := hdue ▸ h.oneDue
      dueLeft := hdue ▸ h.dueLeft
      dueFresh := hdue ▸ h.dueFresh }
  · intro q hq
    -- What is dropped has been tried, so it need not wait any more.
    by_cases heq : q = p
    · exact .inr (heq ▸ htried)
    · rcases h.settled q hq with hq | hq
      · exact .inl ((hpending q).mpr ⟨hq, heq⟩)
      · exact .inr hq
  · intro q hq _
    obtain ⟨hq, hne⟩ := (hpending q).mp hq
    refine h.pendingFresh q hq ?_
    rw [hjust]
    intro heq
    exact hne (Option.some.inj heq).symm

/-- A step of the worker tries what it commits, and nothing otherwise. -/
theorem stepped (h : Tracks e left tried) (hstep : Stepped e e') :
    Tracks e' left (tried ++ e.phase.next) := by
  -- only three kinds of steps touch the edits; `congr` is enough for the others
  have hother : ∀ phase, e.phase = phase → phase.next = [] → e'.pending = e.pending →
      e'.now = e.now → e'.phase.due = phase.due → e'.phase.justTried = phase.justTried →
      Tracks e' left (tried ++ e.phase.next) := by
    intro phase hphase hnext hpending hnow hdue hjust
    rw [← hphase] at hnext hdue hjust
    rw [hnext, List.append_nil]
    exact h.congr (.of_eq hpending) (Nat.le_of_eq hnow.symm) hdue hjust
  cases hstep with
  | idle hphase => exact hother _ hphase rfl rfl rfl (by rw [hphase]) (by rw [hphase])
  | gone hphase => exact hother _ hphase rfl rfl rfl (by rw [hphase]) (by rw [hphase])
  | wake hphase => exact hother _ hphase rfl rfl rfl rfl rfl
  | stop hphase => exact hother _ hphase rfl rfl rfl rfl rfl
  | takeUp hphase => exact hother _ hphase rfl rfl rfl rfl rfl
  | carryOut _ _ hphase => exact hother _ hphase rfl rfl rfl rfl rfl
  | build _ phase hphase hnext =>
    rcases hnext with rfl | rfl
    · exact hother _ hphase rfl rfl rfl rfl rfl
    · exact hother _ hphase rfl rfl rfl rfl rfl
  | analyzeOpen _ hphase => exact hother _ hphase rfl rfl rfl rfl rfl
  | rest hphase => exact hother _ hphase rfl rfl rfl rfl rfl
  | look hphase =>
    rw [hphase]
    exact (List.append_nil tried).symm ▸ h.look hphase
  | commit hphase =>
    rw [hphase]
    exact h.commit hphase
  | drop hphase =>
    rw [hphase]
    exact (List.append_nil tried).symm ▸ h.drop hphase

/-- Whatever happens next, the edits left and tried go on as they are seen. -/
theorem act {tree : SourceTree} (h : Tracks e left tried) (a : Act) :
    Tracks (act tree e a) (left ++ leftBy e a) (tried ++ triedBy e a) := by
  cases a with
  | leaveEdit path text =>
    rw [triedBy, List.append_nil]
    exact h.leaveEdit path text
  | markBuilding =>
    simp only [leftBy, triedBy, List.append_nil]
    exact h.congr (.refl _) (Nat.le_refl _) rfl rfl
  | submit command =>
    simp only [leftBy, triedBy, List.append_nil, Engine.act, submit]
    split
    · exact h
    · exact h.congr (.refl _) (Nat.le_refl _) rfl rfl
  | pause time =>
    simp only [leftBy, triedBy, List.append_nil]
    exact h.congr (.refl _) (Nat.le_add_right _ _) rfl rfl
  | reorder openUnits pending =>
    -- The order in which the edits wait says nothing about them.
    simp only [leftBy, triedBy, List.append_nil, Engine.act]
    split
    next hperm => exact h.congr hperm.2 (Nat.le_refl _) rfl rfl
    next => exact h
  | work disk =>
    rw [leftBy, List.append_nil]
    exact h.stepped stepped_step

end Tracks

variable {tree : SourceTree} {e : Engine}

/-- The whole run keeps track of what was left and what was tried. -/
theorem tracks_after (hphase : e.phase = .waiting) (hpending : e.pending = []) (acts : List Act) :
    Tracks (after tree e acts) (leftEdits tree e acts) (triedEdits tree e acts) := by
  induction acts using List.reverseRecOn with
  | nil => exact .initial hphase hpending
  | append_singleton acts a ih =>
    rw [after_concat, leftEdits, triedEdits, observed_concat, observed_concat]
    exact ih.act a

namespace Tracks

variable {left tried : List PendingEdit} {path : String}

/-- The edits tried for a path are in the order in which they came. -/
theorem ascending_editsOf_tried (h : Tracks e left tried) :
    Ascending (editsOf path tried) := by
  refine List.Pairwise.imp_of_mem ?_ (h.triedAscending.filter _)
  intro p q hp hq hlt
  exact hlt ((mem_editsOf.mp hp).2.trans (mem_editsOf.mp hq).2.symm)

/-- The edits tried for a path are some of those left for it. -/
theorem editsOf_tried_sublist (h : Tracks e left tried) :
    (editsOf path tried).Sublist (editsOf path left) := by
  refine h.ascending_editsOf_tried.sublist (h.leftAscending.filter _) ?_
  intro p hp
  obtain ⟨hp, hpath⟩ := mem_editsOf.mp hp
  exact mem_editsOf.mpr ⟨h.triedLeft p hp, hpath⟩

/-- The last edit of a path is tried last, once none waits. -/
theorem getLast?_editsOf_tried (h : Tracks e left tried) (hcommitted : e.isCommitted path = true) :
    (editsOf path tried).getLast? = (editsOf path left).getLast? := by
  have hsublist : (editsOf path tried).Sublist (editsOf path left) := h.editsOf_tried_sublist
  -- The last edit left for the path has been tried, and none tried can be later.
  rcases List.eq_nil_or_concat (editsOf path left) with hnil | ⟨before, p, hlast⟩
  · rw [hnil] at hsublist ⊢
    rw [List.sublist_nil.mp hsublist]
  · have hascending : Ascending (editsOf path left) := h.leftAscending.filter _
    have hp : p ∈ left ∧ p.path = path := mem_editsOf.mp (by simp [hlast])
    have hnewest : ∀ q ∈ editsOf path left, q.queued ≤ p.queued := by
      intro q hq
      rw [hlast, List.concat_eq_append] at hq hascending
      rcases List.mem_append.mp hq with hq | hq
      · exact Nat.le_of_lt ((List.pairwise_append.mp hascending).2.2 q hq p (by simp))
      · rw [List.mem_singleton.mp hq]
    have htried : p ∈ tried := by
      have hall : Newest left p :=
        ⟨hp.1, fun q hq hpath => hnewest q (mem_editsOf.mpr ⟨hq, hpath.trans hp.2⟩)⟩
      rcases h.settled p hall with hwaits | htried
      · -- none waits for this path
        exact absurd hp.2 (isCommitted_eq_true_iff.mp hcommitted p hwaits)
      · exact htried
    rw [hascending.getLast?_eq (mem_editsOf.mpr hp) hnewest]
    refine h.ascending_editsOf_tried.getLast?_eq (mem_editsOf.mpr ⟨htried, hp.2⟩) ?_
    intro q hq
    exact hnewest q (hsublist.subset hq)

end Tracks

/-! ## What the index takes in -/

/-- Whether the worker carries out a command or builds the index in an act. -/
def carriesOut (e : Engine) : Act → Bool
  | .work _ =>
    match e.phase with
    | .waiting => !e.queue.isEmpty
    | .building | .built => true
    | .handled | .committing _ | .committed _ _ | .stopped => false
  | .leaveEdit _ _ | .markBuilding | .submit _ | .pause _ | .reorder _ _ => false

/-- What an act has to do with edited texts. -/
structure TakesIn (tree : SourceTree) (e : Engine) (a : Act) : Prop where
  /-- The text of the edit that is tried is indexed, and then analyzed. -/
  tried : ∀ p ∈ triedBy e a, (act tree e a).index = e.index.withEdit p
  /-- So it is the text that the index has for the path from then on. -/
  stored : ∀ p ∈ triedBy e a, ((act tree e a).index.file? p.path).map (·.content) = some p.text
  /-- Apart from that, only commands and builds change the index. -/
  kept : triedBy e a = [] → carriesOut e a = false → (act tree e a).index = e.index
  /-- Whatever texts wait, what these make of it is the same. -/
  unread : carriesOut e a = true → ∀ pending, pending.map (·.path) = e.pending.map (·.path) →
    (act tree { e with pending } a).index = (act tree e a).index

/-- An analysis changes no file. -/
@[simp]
theorem files_withAnalysis (ix : Index) (path : String) :
    (ix.withAnalysis path).files = ix.files := by
  unfold Index.withAnalysis
  split
  next hok =>
    obtain ⟨_, _, -, hfiles, -⟩ := Index.tables_of_analyzePath hok
    exact hfiles
  next => rfl

/-- A text can always be indexed, since each member found in it has a declaration. -/
theorem exists_indexText_eq_ok (ix : Index) (path text : String) :
    ∃ result, ix.indexText path text = .ok result := by
  unfold Index.indexText Java.extractText
  exact ⟨_, ix.replaceFile_of_owned _ (Java.extract_members_owned text (Java.parse text))⟩

/-- The text of an edit that was tried is the one that the index has for its path. -/
theorem content_withEdit (ix : Index) (p : PendingEdit) :
    ((ix.withEdit p).file? p.path).map (·.content) = some p.text := by
  obtain ⟨⟨indexed, counts⟩, hok⟩ := exists_indexText_eq_ok ix p.path p.text
  have hedit : ix.withEdit p = indexed.withAnalysis p.path := by
    unfold Index.withEdit
    rw [hok]
  -- the analysis that follows leaves the texts as they are
  have hsame : (indexed.withAnalysis p.path).file? p.path = indexed.file? p.path := by
    rw [Index.file?, files_withAnalysis, Index.file?]
  rw [hedit, hsame]
  exact Index.content_of_indexText hok

section Unread

variable (tree : SourceTree) (disk : Disk) (e : Engine) {pending : List PendingEdit}

/-- Of the edits that wait a command reads at most of which paths they are. -/
theorem index_handle_pending (hpaths : pending.map (·.path) = e.pending.map (·.path))
    (c : Command) : (handle tree disk { e with pending } c).index = (handle tree disk e c).index := by
  cases c with
  | rescan =>
    show (rescan tree disk { e with pending }).index = (rescan tree disk e).index
    unfold rescan
    cases e.index.reindex tree disk with
    | ok result => simp
    | error _ => rfl
  | sync paths =>
    show (sync tree disk paths { e with pending }).index = (sync tree disk paths e).index
    unfold sync
    rcases e.index.sync tree disk paths with ⟨index, _ | stats⟩
    · rfl
    · dsimp only
      split <;> simp
  | openUnit path =>
    show (openUnit { e with pending } path).index = (e.openUnit path).index
    unfold openUnit
    cases e.index.file? path with
    | some file => simp
    | none => rfl
  | analyze path =>
    -- This command alone looks at the pending edits, and only at their paths.
    have hcommitted : isCommitted { e with pending } path = e.isCommitted path := by
      have hany := congrArg (fun paths => !paths.any (· == path)) hpaths
      simpa [isCommitted, List.any_map, Function.comp_def] using hany
    rw [handle, handle, hcommitted]
    split <;> simp
  | reindex | closeUnit _ | edit _ | stop => rfl

/-- Nor does a step that carries something out. -/
theorem index_step_pending (hpaths : pending.map (·.path) = e.pending.map (·.path))
    (hcarries : carriesOut e (.work disk) = true) :
    (step tree disk { e with pending }).index = (e.step tree disk).index := by
  cases hphase : e.phase with
  | waiting =>
    cases hqueue : e.queue with
    | nil => simp [carriesOut, hphase, hqueue] at hcarries
    | cons c rest =>
      simp only [step, hphase, receive, hqueue]
      cases c with
      | stop => rfl
      | reindex | rescan | sync _ | openUnit _ | closeUnit _ | analyze _ | edit _ =>
        exact index_handle_pending tree disk { e with queue := rest, phase := .handled } hpaths _
  | building =>
    simp only [step, hphase]
    unfold build
    cases e.index.reindex tree disk <;> rfl
  | built => simp [step, hphase]
  | handled | committing _ | committed _ _ | stopped =>
    simp [carriesOut, hphase] at hcarries

end Unread

/-- The worker takes a text into the index where it tries an edit, and nowhere else. -/
theorem takesIn (tree : SourceTree) (e : Engine) (a : Act) : TakesIn tree e a := by
  have htried : ∀ p ∈ triedBy e a, (act tree e a).index = e.index.withEdit p := by
    intro p hp
    cases a with
    | work disk =>
      have hphase : ∃ due, e.phase = .committing (p :: due) := Phase.mem_next_iff.mp hp
      obtain ⟨due, hphase⟩ := hphase
      rw [act, step_of_committing tree disk hphase]
    | leaveEdit _ _ | markBuilding | submit _ | pause _ | reorder _ _ => cases hp
  constructor
  case tried => exact htried
  case stored =>
    intro p hp
    rw [htried p hp]
    exact content_withEdit e.index p
  case kept =>
    -- Of all steps only builds, batches, analyses and commits write to the index.
    intro hnone hquiet
    cases a with
    | work disk =>
      have hstep : Stepped e (e.step tree disk) := stepped_step
      rw [act]
      generalize e.step tree disk = e' at hstep
      cases hstep with
      | idle | gone | wake | stop | takeUp | look | rest | drop => rfl
      | carryOut _ _ hphase hqueue => simp [carriesOut, hphase, hqueue] at hquiet
      | build _ _ hphase | analyzeOpen _ hphase => simp [carriesOut, hphase] at hquiet
      | commit hphase => simp [triedBy, Phase.next, hphase] at hnone
    | submit c => exact index_submit c
    | reorder openUnits pending =>
      rw [act]
      split <;> rfl
    | leaveEdit _ _ | markBuilding | pause _ => rfl
  case unread =>
    intro hcarries pending hpaths
    cases a with
    | work disk => exact index_step_pending tree disk e hpaths hcarries
    | leaveEdit _ _ | markBuilding | submit _ | pause _ | reorder _ _ => cases hcarries

/-- No edit is lost and none overtakes another. Along every run the edits of a path that the worker
tries are some of those that were left, in their order and none of them twice; and once none of the
path waits, the last that was tried is the last that was left. To try an edit is to index its text
and to analyze it, and at no other place of the run an edited text comes into the index. -/
theorem edits_tried_in_order (tree : SourceTree) (e : Engine) (hphase : e.phase = .waiting)
    (hpending : e.pending = []) (acts : List Act) (path : String) :
    ((leftEdits tree e acts).map (·.queued)).Nodup ∧
    (editsOf path (triedEdits tree e acts)).Sublist (editsOf path (leftEdits tree e acts)) ∧
    (editsOf path (triedEdits tree e acts)).Nodup ∧
    ((after tree e acts).isCommitted path = true →
      (editsOf path (triedEdits tree e acts)).getLast? =
        (editsOf path (leftEdits tree e acts)).getLast?) ∧
    ∀ before a rest, acts = before ++ a :: rest → TakesIn tree (after tree e before) a := by
  have htracks : Tracks (after tree e acts) (leftEdits tree e acts) (triedEdits tree e acts) :=
    tracks_after hphase hpending acts
  refine ⟨htracks.leftAscending.nodup_queued, htracks.editsOf_tried_sublist,
    htracks.ascending_editsOf_tried.nodup, htracks.getLast?_editsOf_tried, ?_⟩
  intro before a _ _
  exact takesIn tree (after tree e before) a

/-- The worker sees an edit, and before it commits it a newer one comes; then it works until nothing
waits. -/
def overtaking : List Act :=
  [.leaveEdit "A.java" "class A {}", .work {}, .work {},
    .leaveEdit "A.java" "class A { int a; }"] ++
  [.work {}, .work {}] ++ [.work {}, .work {}, .work {}] ++ [.work {}, .work {}]

/-- The first edit is committed, and the newer one stays when it is dropped. -/
theorem after_overtaking (tree : SourceTree) : after tree {} (overtaking.take 9) =
    { index := ({} : Index).withEdit ⟨"A.java", "class A {}", 0⟩
      pending := [⟨"A.java", "class A { int a; }", 1⟩]
      phase := .committing [⟨"A.java", "class A { int a; }", 1⟩]
      now := 2 } := by
  have hseen : after tree {} (overtaking.take 4) =
      { pending := [⟨"A.java", "class A { int a; }", 1⟩]
        phase := .committing [⟨"A.java", "class A {}", 0⟩], now := 2 } := rfl
  show after tree (after tree (after tree {} (overtaking.take 4)) [.work {}, .work {}])
    [.work {}, .work {}, .work {}] = _
  rw [after_commit tree {} (congrArg phase hseen), hseen]
  rfl

/-- After the run nothing is pending. -/
theorem pending_after_overtaking (tree : SourceTree) : (after tree {} overtaking).pending = [] := by
  show (after tree (after tree {} (overtaking.take 9)) [.work {}, .work {}]).pending = []
  rw [after_overtaking, after_commit tree {} rfl]
  rfl

/-- A newer edit that comes between the look and the commit is tried too, and last: each of the two
texts is the one that the index has when it was tried. -/
theorem edits_tried_in_order_overtaking :
    (leftEdits { root := "/w" } {} overtaking).map (·.text) =
      ["class A {}", "class A { int a; }"] ∧
    (after { root := "/w" } {} overtaking).isCommitted "A.java" = true ∧
    ((editsOf "A.java" (triedEdits { root := "/w" } {} overtaking)).getLast?).map (·.text) =
      some "class A { int a; }" ∧
    ((after { root := "/w" } {} (overtaking.take 5)).index.file? "A.java").map (·.content) =
      some "class A {}" ∧
    ((after { root := "/w" } {} (overtaking.take 10)).index.file? "A.java").map (·.content) =
      some "class A { int a; }" := by
  have hordered := edits_tried_in_order { root := "/w" } {} rfl rfl overtaking "A.java"
  have hcommitted : (after { root := "/w" } {} overtaking).isCommitted "A.java" = true := by
    simp [pending_after_overtaking]
  obtain ⟨-, -, -, hlast, htakes⟩ := hordered
  refine ⟨rfl, hcommitted, ?_, ?_, ?_⟩
  · rw [hlast hcommitted]
    rfl
  · exact (htakes (overtaking.take 4) (.work {}) (overtaking.drop 5) rfl).stored
      ⟨"A.java", "class A {}", 0⟩ (List.mem_singleton_self _)
  · refine (htakes (overtaking.take 9) (.work {}) (overtaking.drop 10) rfl).stored
      ⟨"A.java", "class A { int a; }", 1⟩ ?_
    rw [after_overtaking]
    exact List.mem_singleton_self _

end Engine

end JavaAtlas
