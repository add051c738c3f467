import JavaAtlas.Proofs.Check.Errors
import JavaAtlas.Proofs.Engine.Visible
import JavaAtlas.Proofs.Index.Reindex
import JavaAtlas.Service

namespace JavaAtlas

/-! # The errors of a check and the text around them

A check reads diagnostics and text of a file at one time, while a worker goes on changing the index.

* `IndexView.mem_errors_harvest`: in a described index they were found in the text that is cut into
  their context lines;
* `Ends`, `EndsOk`: what holds after an action on a host, with one lemma for each way in which
  actions are put together;
* `Host.ReadsWorker`, `Host.ReadsWorker.check`: a host that reads what a worker makes visible, and
  what a check of it tells;
* `Service.readsWorker_host`: a service is such a host;
* `Engine.markers_describe_text`: at all times diagnostics are about the stored text.
-/

namespace Harvest

/-- Without a text to search and without markers there are no errors. -/
theorem errors_harvest_error {e e' : Failure} :
    (harvest [] (.error e) (.error e')).errors = [] := by
  rw [errors_harvest, List.eq_nil_iff_forall_not_mem]
  intro d hd
  obtain ⟨m, hm, -⟩ := mem_errorsIn_iff.mp hd
  cases hm

end Harvest

/-- A syntax error is among what an analysis finds. -/
theorem Java.mem_analyzeText_of_syntaxError {text : String} {m : Marker}
    (hm : m ∈ Java.syntaxErrorsOf text) : m ∈ Java.analyzeText text := by
  unfold Java.analyzeText Java.analyze Java.sortMarkers
  rw [List.mem_mergeSort, List.mem_append, List.mem_append]
  exact .inl (.inl hm)

/-- An error that an analysis of a text finds, with lines of that text around it. -/
def Diagnostic.FoundIn (text : String) (d : Diagnostic) : Prop :=
  ∃ m ∈ Java.analyzeText text, m.severity = .error ∧
    d = Harvest.diagnostic text m.line (cleanMessage m.message)

namespace IndexView

variable {v : IndexView}

/-- The errors told of a file are found in the text that stands for it in the same view, be its
diagnostics read or not. -/
theorem mem_errors_harvest (h : v.index.Described) {path : String} {markers : List Marker}
    (hmarkers : markers = [] ∨ markers = v.markers path) {d : Diagnostic}
    (hd : d ∈ (harvest markers (v.parseErrors path) (v.unitText path)).errors) :
    ∃ text, v.unitText path = .ok text ∧ d.FoundIn text := by
  cases htext : v.unitText path with
  | error e =>
    -- without a text there are no diagnostics, and none are searched for
    have hnone : markers = [] := by
      rcases hmarkers with hmarkers | hmarkers
      · exact hmarkers
      · rw [hmarkers, markers_of_unitText_error htext]
    have hsearch : v.parseErrors path = .error e := by
      rw [parseErrors, htext]
      rfl
    rw [hnone, hsearch, htext, Harvest.errors_harvest_error] at hd
    cases hd
  | ok text =>
    have hsearch : v.parseErrors path = .ok (Java.syntaxErrorsOf text) := by
      rw [parseErrors, htext]
      rfl
    rw [hsearch, htext, Harvest.errors_harvest] at hd
    obtain ⟨m, hm, rfl⟩ := Harvest.mem_errorsIn_iff.mp hd
    obtain ⟨hseverity, hm⟩ := Harvest.mem_sources_iff.mp hm
    refine ⟨text, rfl, m, ?_, hseverity, rfl⟩
    rcases hm with hm | ⟨-, found, hfound, hm⟩
    · rcases hmarkers with rfl | rfl
      · cases hm
      · rcases markers_of_described h htext with hnone | hall
        · rw [hnone] at hm
          cases hm
        · rwa [hall] at hm
    · rw [← Except.ok.inj hfound] at hm
      exact Java.mem_analyzeText_of_syntaxError hm

end IndexView

/-! ## Actions on a host -/

/-- From a state with a property an action ends in one with that property, and in such a result. -/
def Ends {σ α : Type} (P : σ → Prop) (Q : α → Prop) (m : StateM σ α) : Prop :=
  ∀ s, P s → Q (m.run s).1 ∧ P (m.run s).2

/-- The same of a query, as far as it has an answer. -/
def EndsOk {σ α : Type} (P : σ → Prop) (Q : α → Prop) (q : Query σ α) : Prop :=
  Ends P (fun result => ∀ a, result = .ok a → Q a) q.run

section Actions

variable {σ α β : Type} {P : σ → Prop} {Q : α → Prop} {R : β → Prop}

/-- An action that does nothing ends where it began. -/
theorem Ends.pure {a : α} (h : Q a) : Ends P Q (pure a) := fun _ hs => ⟨h, hs⟩

/-- One action after the other ends as the second does. -/
theorem Ends.bind {m : StateM σ α} {f : α → StateM σ β} (hm : Ends P Q m)
    (hf : ∀ a, Q a → Ends P R (f a)) : Ends P R (m >>= f) := by
  intro s hs
  obtain ⟨hq, hs'⟩ := hm s hs
  exact hf _ hq _ hs'

/-- Less may be said of the result. -/
theorem Ends.mono {Q' : α → Prop} {m : StateM σ α} (h : Ends P Q m) (hq : ∀ a, Q a → Q' a) :
    Ends P Q' m :=
  fun s hs => ⟨hq _ (h s hs).1, (h s hs).2⟩

/-- A query that has its answer at once ends where it began. -/
theorem EndsOk.pure {a : α} (h : Q a) : EndsOk P Q (pure a) := by
  intro s hs
  refine ⟨?_, hs⟩
  intro b hb
  cases hb
  exact h

/-- A query goes on only with an answer of the first one. -/
theorem EndsOk.bind {q : Query σ α} {f : α → Query σ β} (hq : EndsOk P Q q)
    (hf : ∀ a, Q a → EndsOk P R (f a)) : EndsOk P R (q >>= f) := by
  -- an error ends the query, and then nothing is claimed
  have hnext : ∀ result : Except QueryError α, (∀ a, result = .ok a → Q a) →
      Ends P (fun r => ∀ b, r = .ok b → R b) (ExceptT.bindCont f result) := by
    intro result hresult
    cases result with
    | ok a => exact hf a (hresult a rfl)
    | error e => exact Ends.pure nofun
  exact Ends.bind hq hnext

/-- A query that fails has no answer. -/
theorem EndsOk.fails {e : QueryError} : EndsOk P Q (throw e) := fun _ hs => ⟨nofun, hs⟩

/-- A query is an action with an outcome. -/
theorem EndsOk.mk {m : StateM σ (Except QueryError α)}
    (h : Ends P (fun result => ∀ a, result = .ok a → Q a) m) : EndsOk P Q (ExceptT.mk m) := h

/-- An action that cannot fail, as part of a query. -/
theorem EndsOk.lift {m : StateM σ α} (h : Ends P Q m) : EndsOk P Q (ExceptT.lift m) := by
  intro s hs
  obtain ⟨hq, hs'⟩ := h s hs
  refine ⟨?_, hs'⟩
  intro a ha
  cases ha
  exact hq

/-- Looks are taken as long as nothing has settled, and each of them ends well. -/
theorem Ends.lookUntilSettled {look : StateM σ Look} (hlook : Ends P (fun _ => True) look)
    (rounds : Nat) (r : Readings) :
    Ends P (fun _ => True) (lookUntilSettled look rounds r) := by
  -- the readings so far change with each look
  induction rounds generalizing r with
  | zero => exact .pure trivial
  | succ rounds ih =>
    refine hlook.bind fun found _ => ?_
    by_cases hsettled : (r.take found).settled = true
    · rw [if_pos hsettled]
      exact .pure trivial
    · rw [if_neg hsettled]
      exact ih _

end Actions

/-! ## Checks -/

/-- A host on which a worker may go on between two questions, as long as `P` holds of its states:
what a read shows is an index that a worker left, and the diagnostics are those of that read. -/
structure Host.ReadsWorker {σ : Type} (h : Host σ) (P : σ → Prop) : Prop where
  indexState : Ends P (fun _ => True) h.indexState
  read : Ends P (fun result => ∀ v, result = .ok v → Engine.Stored v.index) h.read
  isOpen (path : String) : Ends P (fun _ => True) (h.isOpen path)
  requestOpen (path : String) : Ends P (fun _ => True) (h.requestOpen path)
  requestAnalysis (path : String) : Ends P (fun _ => True) (h.requestAnalysis path)
  isCommitted (path : String) : Ends P (fun _ => True) (h.isCommitted path)
  markers (v : IndexView) (path : String) :
    Ends P (fun result => ∀ found, result = .ok found → found = v.markers path) (h.markers v path)
  pause (time : Nat) : Ends P (fun _ => True) (h.pause time)

/-- The errors of a report are found in the texts whose lines stand around them: those of one
view of an index that a worker left. -/
def CheckReport.OfOneText (report : CheckReport) : Prop :=
  ∃ v : IndexView, Engine.Stored v.index ∧
    ∀ d ∈ report.errors, ∃ text, v.unitText report.path = .ok text ∧ d.FoundIn text

namespace Host.ReadsWorker

variable {σ : Type} {h : Host σ} {P : σ → Prop}

/-- To open a file is to ask for it and to wait, twice at most. -/
theorem openUnit (hreads : h.ReadsWorker P) (options : CheckOptions) (path : String) :
    Ends P (fun _ => True) (h.openUnit options path) := by
  refine (hreads.requestOpen path).bind fun outcome _ => ?_
  cases outcome with
  | error e => exact .pure trivial
  | ok _ =>
    refine (hreads.pause _).bind fun _ _ => (hreads.isOpen path).bind fun opened _ => ?_
    cases opened with
    | true => exact .pure trivial
    | false =>
      refine (hreads.pause _).bind fun _ _ => (hreads.isOpen path).bind fun opened _ => ?_
      cases opened with
      | true => exact .pure trivial
      | false => exact .pure trivial

/-- To ask for an analysis is to leave a command and to wait. -/
theorem triggerAnalysis (hreads : h.ReadsWorker P) (options : CheckOptions) (path : String) :
    Ends P (fun _ => True) (h.triggerAnalysis options path) :=
  (hreads.requestAnalysis path).bind fun _ _ => (hreads.pause _).bind fun _ _ => .pure trivial

/-- One read gives markers and a text, or nothing. -/
theorem readOnce (hreads : h.ReadsWorker P) (path : String) :
    Ends P (fun _ => True) (h.readOnce path) := by
  refine hreads.read.bind fun result _ => ?_
  cases result with
  | error e => exact .pure trivial
  | ok v =>
    refine (hreads.markers v path).bind fun found _ => ?_
    cases found with
    | error e => exact .pure trivial
    | ok markers => exact .pure trivial

/-- A look asks the index only if it is ready and the file committed. -/
theorem look (hreads : h.ReadsWorker P) (path : String) :
    Ends P (fun _ => True) (h.look path) := by
  refine hreads.indexState.bind fun state _ => ?_
  by_cases hbuilding : state = some .building
  · rw [if_pos hbuilding]
    exact .pure trivial
  · rw [if_neg hbuilding]
    refine (hreads.isCommitted path).bind fun committed _ => ?_
    cases committed with
    | true => exact hreads.readOnce path
    | false => exact .pure trivial

/-- A file is opened and analyzed, and then looked at until it has settled. -/
theorem analyze (hreads : h.ReadsWorker P) (options : CheckOptions) (path : String) :
    Ends P (fun _ => True) (h.analyze options path) := by
  refine (hreads.isOpen path).bind fun opened _ => ?_
  cases opened with
  | true => exact .pure trivial
  | false =>
    refine (hreads.openUnit options path).bind fun _ _ =>
      (hreads.triggerAnalysis options path).bind fun _ _ => ?_
    refine (Ends.lookUntilSettled ?_ _ _).bind fun _ _ => .pure trivial
    exact (hreads.look path).bind fun _ _ => (hreads.pause _).bind fun _ _ => .pure trivial

/-- The errors told are found in the text of the view that was read. -/
theorem harvest (hreads : h.ReadsWorker P) {v : IndexView} (hv : Engine.Stored v.index)
    (path : String) :
    Ends P (fun found => ∀ d ∈ found.errors, ∃ text, v.unitText path = .ok text ∧ d.FoundIn text)
      (h.harvest path v) := by
  refine (hreads.markers v path).bind fun result hresult => ?_
  cases result with
  | ok markers =>
    have hmarkers : markers = v.markers path := hresult markers rfl
    exact .pure fun d hd => IndexView.mem_errors_harvest hv.described (.inr hmarkers) hd
  | error e => exact .pure fun d hd => IndexView.mem_errors_harvest hv.described (.inl rfl) hd

/-- A check is refused while the index is being built. -/
theorem ready (hreads : h.ReadsWorker P) : EndsOk P (fun _ => True) h.ready := by
  refine (EndsOk.lift hreads.indexState).bind fun state _ => ?_
  cases state with
  | none => exact .fails
  | some state =>
    cases state with
    | building => exact .fails
    | ready => exact .pure trivial

/-- Whatever happens on the way, the errors of a report and the lines around them come from one
read. -/
theorem check (hreads : h.ReadsWorker P) (options : CheckOptions) (input : String) :
    EndsOk P CheckReport.OfOneText (h.check options input) := by
  refine hreads.ready.bind fun _ _ => (EndsOk.mk hreads.read).bind fun v _ => ?_
  refine (EndsOk.mk (.pure (fun _ _ => trivial))).bind fun d _ => ?_
  refine (EndsOk.lift (hreads.analyze options d.unit.path)).bind fun progress _ => ?_
  -- the view that the errors come from is read last
  refine (EndsOk.mk hreads.read).bind fun v hv => ?_
  refine (EndsOk.lift (hreads.harvest hv d.unit.path)).bind fun found hfound => ?_
  exact .pure ⟨v, hv, hfound⟩

end Host.ReadsWorker

/-! ## A service -/

namespace Service

/-- The project of a service, if it has one open, keeps an index that a worker left. -/
def Sound (s : Service) : Prop := ∀ p, s.project = some p → Engine.Stored p.engine.index

/-- To look at a service changes nothing. -/
theorem ends_get : Ends Sound Sound (get : StateM Service Service) := fun _ hs => ⟨hs, hs⟩

/-- A request that leaves the index alone keeps a service sound. -/
theorem ends_onEngine {ask : Engine → Engine × Except Failure Unit}
    (hask : ∀ e, (ask e).1.index = e.index) : Ends Sound (fun _ => True) (onEngine ask) := by
  refine ends_get.bind fun s hs => ?_
  cases hproject : s.project with
  | none => exact .pure trivial
  | some p =>
    have hset : Sound { s with project := some { p with engine := (ask p.engine).1 } } := by
      intro p' hp'
      cases hp'
      exact (hask p.engine).symm ▸ hs p hproject
    exact fun _ _ => ⟨trivial, hset⟩

/-- What is read of a service is an index that its worker left. -/
theorem ends_read :
    Ends Sound (fun result => ∀ v, result = .ok v → Engine.Stored v.index) read := by
  refine ends_get.bind fun s hs => .pure ?_
  intro v hv
  cases hproject : s.project with
  | none =>
    simp only [Reads.read, hproject] at hv
    cases hv
  | some p =>
    simp only [Reads.read, hproject] at hv
    cases hv
    exact hs p hproject

/-- A service stays sound while its worker does what is left for it. -/
theorem sound_settled {s : Service} (hs : s.Sound) (time : Nat) : (s.settled time).Sound := by
  intro p hp
  obtain ⟨p', hp', rfl⟩ := Option.map_eq_some_iff.mp hp
  exact Engine.Stored.run (e := { p'.engine with now := p'.engine.now + time }) (hs p' hp') _

/-- A service answers from an index that its worker left. -/
theorem readsWorker_host : host.ReadsWorker Sound where
  indexState := fun _ hs => ⟨trivial, hs⟩
  read := ends_read
  isOpen path := fun _ hs => ⟨trivial, hs⟩
  requestOpen path := ends_onEngine fun e => Engine.index_submit _
  requestAnalysis path := ends_onEngine fun e => Engine.index_submit _
  isCommitted path := fun _ hs => ⟨trivial, hs⟩
  markers v path := by
    refine .pure ?_
    intro found hfound
    exact (Except.ok.inj hfound).symm
  pause time := fun _ hs => ⟨trivial, sound_settled hs time⟩

end Service

namespace Engine

/-- Diagnostics describe the stored text. Whatever a worker does and whenever the index is read, the
diagnostics shown of a file are none, or in this order what an analysis finds in the text shown with
them; so a check tells of each error the lines of the text in which it was found. -/
theorem markers_describe_text {σ : Type} (tree : SourceTree) (e : Engine)
    (hstored : Stored e.index) (acts : List Act) (ix : Index) (hix : ix ∈ visible tree e acts)
    (h : Host σ) (P : σ → Prop) (hreads : h.ReadsWorker P) :
    (∀ disk root path text, IndexView.unitText { index := ix, disk, root } path = .ok text →
      IndexView.markers { index := ix, disk, root } path = [] ∨
        IndexView.markers { index := ix, disk, root } path = Java.analyzeText text) ∧
    ∀ options input s, P s → ∀ report,
      ((h.check options input).run.run s).1 = .ok report → report.OfOneText := by
  constructor
  · intro disk root path text htext
    exact IndexView.markers_of_described (hstored.seen hix).described htext
  · intro options input s hs report hreport
    exact (hreads.check options input s hs).1 report hreport

/-- A worker about to take a broken text into its empty index. -/
def committingBroken : Engine := { phase := .committing [⟨"A.java", "class A \x7b", 0⟩] }

/-- A service whose worker is about to do that. -/
def committingService : Service :=
  { disk := {}
    config := {}
    project := some
      { tree := { root := "/w" }
        classpath := .ofProject "/w" []
        engine := committingBroken } }

/-- Between the two transactions of a commit the text is shown, and no diagnostics of another. -/
theorem markers_describe_text_committing :
    Stored committingBroken.index ∧ committingService.Sound ∧
    (∃ ix ∈ visible { root := "/w" } committingBroken [.work {}],
      IndexView.unitText { index := ix, disk := {}, root := "/w" } "A.java" = .ok "class A \x7b" ∧
      (IndexView.markers { index := ix, disk := {}, root := "/w" } "A.java" = [] ∨
        IndexView.markers { index := ix, disk := {}, root := "/w" } "A.java" =
          Java.analyzeText "class A \x7b")) ∧
    ∀ report, ((Service.host.check default "A").run.run committingService).1 = .ok report →
      report.OfOneText := by
  obtain ⟨ix, hindexed, hkeeps⟩ :=
    Index.keeps_empty.replaceFile_ofText "A.java" .project "class A \x7b"
  have hcommit : committingBroken.index.indexText "A.java" "class A \x7b" =
      .ok (ix, Index.countsOf (Java.extractText "class A \x7b")) := hindexed
  -- the text is indexed in the first of the two transactions
  have hix : ix ∈ visible { root := "/w" } committingBroken [.work {}] := by
    have hphase : committingBroken.phase = .committing [⟨"A.java", "class A \x7b", 0⟩] := rfl
    have hstates : committingBroken.statesOfStep { root := "/w" } {} =
        committingBroken.statesOfCommit ⟨"A.java", "class A \x7b", 0⟩ := by
      rw [statesOfStep, hphase]
    have hmem : ix ∈ seenAt { root := "/w" } committingBroken (.work {}) := by
      rw [seenAt, hstates]
      exact mem_statesOfCommit hcommit
    exact List.mem_append_left _ (List.mem_append_left _ hmem)
  have hsound : committingService.Sound := by
    intro p hp
    cases hp
    exact .new
  have htext : IndexView.unitText { index := ix, disk := {}, root := "/w" } "A.java" =
      .ok "class A \x7b" := by
    obtain ⟨id, hid⟩ := hkeeps.file?_eq "A.java"
    rw [IndexView.unitText, hid, Function.update_self]
    rfl
  have hall := markers_describe_text { root := "/w" } committingBroken .new [.work {}] ix hix
    Service.host Service.Sound Service.readsWorker_host
  exact ⟨.new, hsound, ⟨ix, hix, htext, hall.1 {} "/w" "A.java" "class A \x7b" htext⟩,
    hall.2 default "A" committingService hsound⟩

end Engine

end JavaAtlas
