import JavaAtlas.Proofs.Engine.Building

namespace JavaAtlas

/-! # Refused requests

A worker that has stopped takes no command. What was changed for the command stays all the same.

* `Engine.lasts_after`: a worker that has stopped stays so, with every edit that waits for it;
* `Engine.seenAlike_markBuilding_iff`, `Engine.seenAlike_leaveEdit_iff`: when a request changes
  nothing that others see before it sends its command;
* `Engine.refused_changes_nothing_iff`: so when a refused request changes nothing, and what becomes
  of the engine otherwise.
-/

namespace Engine

/-- What others see of both is the same, and the same edits wait. -/
structure SeenAlike (e e' : Engine) : Prop where
  indexState : e'.indexState = e.indexState
  committed : ∀ path, e'.isCommitted path = e.isCommitted path
  pending : ∀ p, p ∈ e'.pending ↔ p ∈ e.pending

/-- The worker has stopped, and nothing that it would have to do is done: the index counts as
being built if it did, and the edits of a path wait if they did. -/
structure Lasts (e e' : Engine) : Prop where
  stopped : e'.phase = .stopped
  building : e.indexState = .building → e'.indexState = .building
  waiting : ∀ path, e.isCommitted path = false → e'.isCommitted path = false

variable {tree : SourceTree} {e e' e'' : Engine} {path text : String}

/-! ## After the worker has stopped -/

theorem Lasts.refl (hstopped : e.phase = .stopped) : Lasts e e where
  stopped := hstopped
  building h := h
  waiting _ h := h

/-- What lasts from one moment to another and on to a third lasts throughout. -/
theorem Lasts.trans (h : Lasts e e') (h' : Lasts e' e'') : Lasts e e'' where
  stopped := h'.stopped
  building hbuilding := h'.building (h.building hbuilding)
  waiting path hpath := h'.waiting path (h.waiting path hpath)

/-- A stopped worker does nothing. -/
theorem step_of_stopped (disk : Disk) (hstopped : e.phase = .stopped) : e.step tree disk = e := by
  rw [step, hstopped]

/-- A stopped worker takes no command. -/
theorem submit_of_stopped {c : Command} (hstopped : e.phase = .stopped) :
    e.submit c = (e, .error .engineStopped) := by
  rw [submit, if_pos hstopped]

/-- A path with an edit is not committed. -/
theorem leaveEdit_isCommitted_self : (e.leaveEdit path text).isCommitted path = false := by
  rw [isCommitted_eq_false_iff]
  exact ⟨⟨path, text, e.now⟩, mem_leaveEdit_iff.mpr (.inr rfl), rfl⟩

/-- Nothing that others do, and no step that is left, brings a stopped worker back. -/
theorem lasts_act (hstopped : e.phase = .stopped) (a : Act) : Lasts e (act tree e a) := by
  cases a with
  | markBuilding => exact ⟨hstopped, fun _ => rfl, fun _ h => h⟩
  | pause time => exact ⟨hstopped, fun h => h, fun _ h => h⟩
  | submit c =>
    have hrefused : act tree e (.submit c) = e := congrArg Prod.fst (submit_of_stopped hstopped)
    rw [hrefused]
    exact .refl hstopped
  | work disk =>
    have hstays : act tree e (.work disk) = e := step_of_stopped disk hstopped
    rw [hstays]
    exact .refl hstopped
  | leaveEdit path text =>
    refine ⟨hstopped, fun h => h, ?_⟩
    intro other hother
    by_cases hpath : other = path
    · subst hpath
      exact leaveEdit_isCommitted_self
    · -- an edit of another path is not taken away
      rw [isCommitted_eq_false_iff] at hother ⊢
      obtain ⟨p, hp, rfl⟩ := hother
      exact ⟨p, mem_leaveEdit_iff.mpr (.inl ⟨hp, hpath⟩), rfl⟩
  | reorder openUnits pending =>
    by_cases hperm : openUnits.Perm e.openUnits ∧ pending.Perm e.pending
    · have hact : act tree e (.reorder openUnits pending) = { e with openUnits, pending } :=
        if_pos hperm
      rw [hact]
      refine ⟨hstopped, fun h => h, ?_⟩
      intro path hpath
      rw [isCommitted_eq_false_iff] at hpath ⊢
      obtain ⟨p, hp, hpath⟩ := hpath
      exact ⟨p, hperm.2.mem_iff.mpr hp, hpath⟩
    · have hact : act tree e (.reorder openUnits pending) = e := if_neg hperm
      rw [hact]
      exact .refl hstopped

/-- A stopped worker leaves everything as it is, whatever comes after. -/
theorem lasts_after (hstopped : e.phase = .stopped) (acts : List Act) :
    Lasts e (after tree e acts) := by
  induction acts using List.reverseRecOn with
  | nil => exact .refl hstopped
  | append_singleton acts a ih =>
    rw [after_concat]
    exact ih.trans (lasts_act ih.stopped a)

/-! ## What a request changes before its command is sent -/

/-- To note that the index is being built changes nothing only if it was. -/
theorem seenAlike_markBuilding_iff : SeenAlike e e.markBuilding ↔ e.indexState = .building := by
  constructor
  · intro h
    exact h.indexState.symm
  · intro hbuilding
    exact ⟨hbuilding.symm, fun _ => rfl, fun _ => Iff.rfl⟩

/-- To leave an edit changes nothing only if the very edit was the only one of its path. -/
theorem seenAlike_leaveEdit_iff : SeenAlike e (e.leaveEdit path text) ↔
    ∀ p, p ∈ e.pending ∧ p.path = path ↔ p = ⟨path, text, e.now⟩ := by
  constructor
  · intro h p
    have hp := h.pending p
    rw [mem_leaveEdit_iff] at hp
    constructor
    · rintro ⟨hmem, hpath⟩
      -- an edit of the path that waited still waits, so that it is the new one
      rcases hp.mpr hmem with ⟨-, hother⟩ | hnew
      · exact absurd hpath hother
      · exact hnew
    · rintro rfl
      exact ⟨hp.mp (.inr rfl), rfl⟩
  · intro hsame
    have hpending : ∀ p, p ∈ (e.leaveEdit path text).pending ↔ p ∈ e.pending := by
      intro p
      rw [mem_leaveEdit_iff]
      constructor
      · rintro (⟨hmem, -⟩ | hnew)
        · exact hmem
        · exact ((hsame p).mpr hnew).1
      · intro hmem
        by_cases hpath : p.path = path
        · exact .inr ((hsame p).mp ⟨hmem, hpath⟩)
        · exact .inl ⟨hmem, hpath⟩
    refine ⟨rfl, ?_, hpending⟩
    intro other
    rw [Bool.eq_iff_iff]
    simp only [isCommitted_eq_true_iff, hpending]

/-! ## Refused requests -/

/-- A request that is refused changes nothing only if the index counts as being built already, or
if the very edit was the one that waits. Otherwise nothing takes the change back: the index counts
as being built, and the path as not committed, whatever comes after. -/
theorem refused_changes_nothing_iff (tree : SourceTree) (e : Engine) (path text : String) :
    (∀ failure, e.requestReindex.2 = .error failure →
      (SeenAlike e e.requestReindex.1 ↔ e.indexState = .building) ∧
      ∀ acts, (after tree e.requestReindex.1 acts).indexState = .building) ∧
    (∀ failure, (e.edit path text).2 = .error failure →
      (SeenAlike e (e.edit path text).1 ↔
        ∀ p, p ∈ e.pending ∧ p.path = path ↔ p = ⟨path, text, e.now⟩) ∧
      ∀ acts, (after tree (e.edit path text).1 acts).isCommitted path = false) := by
  have hstopped_of_refused : ∀ {e' : Engine} {c : Command} {failure : Failure},
      (e'.submit c).2 = .error failure → e'.phase = .stopped := by
    intro e' c failure hrefused
    -- only a worker that has stopped refuses a command
    by_contra hphase
    rw [submit_eq_ok_iff.mpr hphase] at hrefused
    cases hrefused
  constructor
  · intro failure hrefused
    have hstopped : e.markBuilding.phase = .stopped := hstopped_of_refused hrefused
    have hleft : e.requestReindex.1 = e.markBuilding :=
      congrArg Prod.fst (submit_of_stopped hstopped)
    rw [hleft]
    refine ⟨seenAlike_markBuilding_iff, ?_⟩
    intro acts
    exact (lasts_after hstopped acts).building rfl
  · intro failure hrefused
    have hstopped : (e.leaveEdit path text).phase = .stopped := hstopped_of_refused hrefused
    have hleft : (e.edit path text).1 = e.leaveEdit path text :=
      congrArg Prod.fst (submit_of_stopped hstopped)
    rw [hleft]
    refine ⟨seenAlike_leaveEdit_iff, ?_⟩
    intro acts
    exact (lasts_after hstopped acts).waiting path leaveEdit_isCommitted_self

/-- A new worker that is stopped, and then asked for a build and left an edit. -/
theorem refused_changes_nothing_iff_stopped :
    let e := after { root := "/w" } {} [.submit .stop, .work {}]
    (e.requestReindex.2 = .error .engineStopped ∧
      ∀ acts, (after { root := "/w" } e.requestReindex.1 acts).indexState = .building) ∧
    ((e.edit "A.java" "class A { }").2 = .error .engineStopped ∧
      ∀ acts, (after { root := "/w" } (e.edit "A.java" "class A { }").1 acts).isCommitted "A.java" =
        false) := by
  intro e
  have hrefused := refused_changes_nothing_iff { root := "/w" } e "A.java" "class A { }"
  exact ⟨⟨rfl, (hrefused.1 .engineStopped rfl).2⟩, rfl, (hrefused.2 .engineStopped rfl).2⟩

/-- The index could be asked and the file was committed until the requests were refused. -/
theorem refused_requests_shut :
    let e := after { root := "/w" } {} [.submit .stop, .work {}]
    (e.requestReindex.2 = .error .engineStopped ∧ e.indexState = .ready ∧
      e.requestReindex.1.indexState = .building) ∧
    ((e.edit "A.java" "class A { }").2 = .error .engineStopped ∧
      e.isCommitted "A.java" = true ∧
      (e.edit "A.java" "class A { }").1.isCommitted "A.java" = false) := by
  refine ⟨⟨rfl, rfl, rfl⟩, rfl, rfl, ?_⟩
  exact leaveEdit_isCommitted_self

end Engine

end JavaAtlas
