import JavaAtlas.Check.Scripted
import JavaAtlas.Proofs.Check.Settling

namespace JavaAtlas

/-! # What a check asks for and what it reports

A check asks for a file to be opened and analysed only if it is not open, and then once for each.
Whatever the host answers to that and to the looks, there is a report.

* `Host.recording`: the host that also keeps what it was asked for;
* `Asks`: what an action asks for, with one lemma for each part of a check;
* `Host.run_check`: the report, when a name stands for one declaration and reads begin;
* `Host.run_look_eq_reading_iff`: when a look is a reading;
* `polling_settles_on_three_equal`: the state, the polls, the requests and the caveat of a report.
-/

/-! ## Requests -/

/-- What a host is asked to do with a file. -/
inductive AnalysisRequest where
  | opening (path : String)
  | analysis (path : String)
deriving DecidableEq, Repr

section Recording

variable {σ α β : Type}

/-- An action that leaves alone what has been recorded. -/
def unrecorded (m : StateM σ α) : StateM (σ × List AnalysisRequest) α := fun s =>
  ((m.run s.1).1, ((m.run s.1).2, s.2))

/-- An action that is recorded as a request. -/
def recordedAs (request : AnalysisRequest) (m : StateM σ α) :
    StateM (σ × List AnalysisRequest) α := fun s =>
  ((m.run s.1).1, ((m.run s.1).2, s.2 ++ [request]))

/-- A host that also keeps, in their order, the requests to open and to analyse files. -/
def Host.recording (h : Host σ) : Host (σ × List AnalysisRequest) where
  indexState := unrecorded h.indexState
  read := unrecorded h.read
  artifact name := unrecorded (h.artifact name)
  isOpen path := unrecorded (h.isOpen path)
  requestOpen path := recordedAs (.opening path) (h.requestOpen path)
  requestAnalysis path := recordedAs (.analysis path) (h.requestAnalysis path)
  isCommitted path := unrecorded (h.isCommitted path)
  markers view path := unrecorded (h.markers view path)
  pause time := unrecorded (h.pause time)

/-- Recorded, an action does what it does without, and these requests are added. -/
def Asks (recorded : StateM (σ × List AnalysisRequest) α) (plain : StateM σ α)
    (requests : σ → List AnalysisRequest) : Prop :=
  ∀ s log, recorded.run (s, log) = ((plain.run s).1, ((plain.run s).2, log ++ requests s))

/-- An action that asks for nothing. -/
def AsksNothing (recorded : StateM (σ × List AnalysisRequest) α) (plain : StateM σ α) : Prop :=
  Asks recorded plain fun _ => []

variable {recorded : StateM (σ × List AnalysisRequest) α} {plain : StateM σ α}
  {recordedNext : α → StateM (σ × List AnalysisRequest) β} {next : α → StateM σ β}
  {requests : σ → List AnalysisRequest} {q : α → σ → List AnalysisRequest}

/-- A call that is not recorded leaves the record as it is. -/
theorem asksNothing_unrecorded (m : StateM σ α) : AsksNothing (unrecorded m) m := by
  intro s log
  rw [List.append_nil]
  rfl

/-- A recorded call puts its request at the end of the record. -/
theorem asks_recordedAs (request : AnalysisRequest) (m : StateM σ α) :
    Asks (recordedAs request m) m fun _ => [request] :=
  fun _ _ => rfl

/-- To give back a value is to ask for nothing. -/
theorem asksNothing_pure (a : α) :
    AsksNothing (pure a : StateM (σ × List AnalysisRequest) α) (pure a) := by
  intro s log
  rw [List.append_nil]
  rfl

/-- What two calls ask for, one after the other, is asked for in that order. -/
theorem Asks.bind (h : Asks recorded plain requests)
    (hnext : ∀ a, Asks (recordedNext a) (next a) (q a)) :
    Asks (recorded >>= recordedNext) (plain >>= next) fun s =>
      requests s ++ q (plain.run s).1 (plain.run s).2 := by
  intro s log
  have hrun : (recorded >>= recordedNext).run (s, log) =
      (recordedNext (recorded.run (s, log)).1).run (recorded.run (s, log)).2 := rfl
  rw [hrun, h s log, hnext, List.append_assoc]
  rfl

/-- If what comes next asks for nothing, the requests are those of the first action. -/
theorem Asks.bind_nothing (h : Asks recorded plain requests)
    (hnext : ∀ a, AsksNothing (recordedNext a) (next a)) :
    Asks (recorded >>= recordedNext) (plain >>= next) requests := by
  intro s log
  rw [h.bind hnext]
  dsimp only
  rw [List.append_nil]

/-- If the first action asks for nothing, the requests are those of what comes next. -/
theorem AsksNothing.bind (h : AsksNothing recorded plain)
    (hnext : ∀ a, Asks (recordedNext a) (next a) (q a)) :
    Asks (recorded >>= recordedNext) (plain >>= next) fun s =>
      q (plain.run s).1 (plain.run s).2 :=
  Asks.bind h hnext

/-- Looks that ask for nothing ask for nothing, however many there are. -/
theorem AsksNothing.lookUntilSettled {recorded : StateM (σ × List AnalysisRequest) Look}
    {plain : StateM σ Look} (h : AsksNothing recorded plain) (rounds : Nat) (r : Readings) :
    AsksNothing (lookUntilSettled recorded rounds r) (lookUntilSettled plain rounds r) := by
  -- On the rounds that are left, whatever was read before.
  induction rounds generalizing r with
  | zero => exact asksNothing_pure _
  | succ rounds ih =>
    refine h.bind_nothing fun found => ?_
    by_cases hsettled : (r.take found).settled = true
    · rw [if_pos hsettled, if_pos hsettled]
      exact asksNothing_pure _
    · rw [if_neg hsettled, if_neg hsettled]
      exact ih _

end Recording

namespace Host

variable {σ : Type} (h : Host σ) (options : CheckOptions) (path : String)

/-! ## The parts of a check -/

/-- A look with the pause after it. -/
def poll : StateM σ Look := do
  let found ← h.look path
  h.pause options.poll
  return found

/-- The requests for a file that is not open. -/
def askFor : StateM σ (List String) := do
  let opened ← h.openUnit options path
  let triggered ← h.triggerAnalysis options path
  return opened :: triggered

/-- The readings of a file that is not open, as many as there is time for. -/
def polledReadings (s : σ) : List Nat :=
  readingsFrom (h.poll options path) (roundsIn options.timeout options.poll)
    ((h.askFor options path).run s).2

/-- To open a unit is one request, whatever comes of it. -/
theorem asks_openUnit : Asks (h.recording.openUnit options path) (h.openUnit options path)
    fun _ => [.opening path] := by
  refine (asks_recordedAs _ _).bind_nothing fun outcome => ?_
  -- Each question whether the unit is open now ends the call or leads to the next one.
  cases outcome with
  | error e => exact asksNothing_pure _
  | ok _ =>
    refine (asksNothing_unrecorded _).bind_nothing fun _ =>
      (asksNothing_unrecorded _).bind_nothing fun opened => ?_
    cases opened with
    | true => exact asksNothing_pure _
    | false =>
      refine (asksNothing_unrecorded _).bind_nothing fun _ =>
        (asksNothing_unrecorded _).bind_nothing fun opened => ?_
      cases opened with
      | true => exact asksNothing_pure _
      | false => exact asksNothing_pure _

/-- To have a unit analyzed is one request, whatever comes of it. -/
theorem asks_triggerAnalysis : Asks (h.recording.triggerAnalysis options path)
    (h.triggerAnalysis options path) fun _ => [.analysis path] := by
  refine (asks_recordedAs _ _).bind_nothing fun outcome => ?_
  exact (asksNothing_unrecorded _).bind_nothing fun _ => asksNothing_pure _

/-- A reading of the index asks for nothing. -/
theorem asksNothing_readOnce : AsksNothing (h.recording.readOnce path) (h.readOnce path) := by
  refine (asksNothing_unrecorded _).bind_nothing fun result => ?_
  cases result with
  | error e => exact asksNothing_pure _
  | ok view =>
    refine (asksNothing_unrecorded _).bind_nothing fun found => ?_
    cases found with
    | error e => exact asksNothing_pure _
    | ok markers => exact asksNothing_pure _

/-- A look at the analysis asks for nothing. -/
theorem asksNothing_look : AsksNothing (h.recording.look path) (h.look path) := by
  refine (asksNothing_unrecorded _).bind_nothing fun state => ?_
  by_cases hbuilding : state = some .building
  · rw [if_pos hbuilding, if_pos hbuilding]
    exact asksNothing_pure _
  · rw [if_neg hbuilding, if_neg hbuilding]
    refine (asksNothing_unrecorded _).bind_nothing fun committed => ?_
    cases committed with
    | true => exact h.asksNothing_readOnce path
    | false => exact asksNothing_pure _

/-- The harvest asks for nothing. -/
theorem asksNothing_harvest (view : IndexView) :
    AsksNothing (h.recording.harvest path view) (h.harvest path view) := by
  refine (asksNothing_unrecorded _).bind_nothing fun result => ?_
  cases result with
  | ok markers => exact asksNothing_pure _
  | error e => exact asksNothing_pure _

/-- A file that is open is left as it is; another one is asked for once, and then only looked at. -/
theorem asks_analyze : Asks (h.recording.analyze options path) (h.analyze options path)
    fun s => if ((h.isOpen path).run s).1 then [] else [.opening path, .analysis path] := by
  refine AsksNothing.bind (q := fun opened _ =>
    if opened then [] else [.opening path, .analysis path])
    (asksNothing_unrecorded (h.isOpen path)) fun opened => ?_
  cases opened with
  | true => exact asksNothing_pure _
  | false =>
    refine (h.asks_openUnit options path).bind fun _ =>
      (h.asks_triggerAnalysis options path).bind_nothing fun _ => ?_
    have hpoll : AsksNothing (h.recording.poll options path) (h.poll options path) :=
      (h.asksNothing_look path).bind_nothing fun _ =>
        (asksNothing_unrecorded _).bind_nothing fun _ => asksNothing_pure _
    exact (hpoll.lookUntilSettled _ _).bind_nothing fun _ => asksNothing_pure _

/-! ## Running a check -/

/-- An analysis begins by asking whether the unit is open, and does the rest only if it is not. -/
theorem run_analyze (s : σ) : (h.analyze options path).run s =
    ((if ((h.isOpen path).run s).1 then
      return {
        state := .alreadyOpen
        polls := 0
        notes := ["unit already open; harvested current analysis"] }
    else do
      let opened ← h.openUnit options path
      let triggered ← h.triggerAnalysis options path
      let (state, polls) ← lookUntilSettled (h.poll options path)
        (roundsIn options.timeout options.poll) {}
      return { state, polls, notes := opened :: triggered }) :
        StateM σ CheckProgress).run ((h.isOpen path).run s).2 :=
  rfl

/-- An analysis of an open file asks for nothing. -/
theorem run_analyze_open {s s' : σ} (hopen : (h.isOpen path).run s = (true, s')) :
    (h.analyze options path).run s =
      ({ state := .alreadyOpen
         polls := 0
         notes := ["unit already open; harvested current analysis"] }, s') := by
  rw [run_analyze, hopen]
  rfl

/-- An analysis of another file asks, and then waits for readings. -/
theorem run_analyze_closed {s s' : σ} (hclosed : (h.isOpen path).run s = (false, s')) :
    (h.analyze options path).run s =
      let (notes, asked) := (h.askFor options path).run s'
      let ((state, polls), looked) := (lookUntilSettled (h.poll options path)
        (roundsIn options.timeout options.poll) {}).run asked
      ({ state, polls, notes }, looked) := by
  rw [run_analyze, hclosed]
  rfl

/-- A query that succeeds goes on with its result from the state that it leaves. -/
theorem run_query_bind_ok {α β : Type} {query : Query σ α} {next : α → Query σ β} {s s' : σ}
    {a : α} (hquery : query.run.run s = (.ok a, s')) :
    (query >>= next).run.run s = (next a).run.run s' := by
  rw [ExceptT.run_bind, StateT.run_bind, hquery]
  rfl

/-- An index that is ready is found so. -/
theorem run_ready {s s' : σ} (hready : h.indexState.run s = (some .ready, s')) :
    h.ready.run.run s = (.ok (), s') := by
  have hasked : (ExceptT.lift h.indexState : Query σ _).run.run s = (.ok (some .ready), s') := by
    have hrun : (ExceptT.lift h.indexState : Query σ _).run.run s =
        (.ok (h.indexState.run s).1, (h.indexState.run s).2) := rfl
    rw [hrun, hready]
  exact run_query_bind_ok hasked

/-- A call that cannot fail is a query that succeeds. -/
@[simp]
theorem run_lift {α : Type} (m : StateM σ α) (s : σ) :
    (ExceptT.lift m : Query σ α).run.run s = (.ok (m.run s).1, (m.run s).2) := rfl

/-- In a state, the host is ready and a read of it shows one declaration for which an input stands.
Asking for that has brought it to another state. -/
def Resolves (input : String) (s : σ) (d : Declaration) (s' : σ) : Prop :=
  ∃ asked view, h.indexState.run s = (some .ready, asked) ∧ h.read.run asked = (.ok view, s') ∧
    view.theDeclaration input = .ok d

/-- The report of a check of a declaration. -/
def report (d : Declaration) (progress : CheckProgress) (found : Harvest) : CheckReport where
  name := d.qualname
  fileName := d.unit.name
  path := d.unit.path
  state := progress.state
  errors := found.errors
  warningCount := found.warnings
  infoCount := found.infos
  notes := progress.notes ++ found.notes
  caveat := progress.caveat options.timeout
  polls := progress.polls

/-- A check has a report if the name stands for one declaration and the last read begins. -/
theorem run_check {input : String} {s s' s'' : σ} {d : Declaration} {view : IndexView}
    (hresolves : h.Resolves input s d s')
    (hread : h.read.run ((h.analyze options d.unit.path).run s').2 = (.ok view, s'')) :
    (h.check options input).run.run s =
      (.ok (report options d ((h.analyze options d.unit.path).run s').1
        ((h.harvest d.unit.path view).run s'').1), ((h.harvest d.unit.path view).run s'').2) := by
  obtain ⟨asked, first, hready, hfirst, hdeclaration⟩ := hresolves
  have hd : (ExceptT.mk (pure (first.theDeclaration input)) : Query σ _).run.run s' =
      (.ok d, s') := by
    rw [hdeclaration]
    rfl
  have hbegun : (ExceptT.mk h.read : Query σ _).run.run asked = (.ok first, s') := hfirst
  have hlast : (ExceptT.mk h.read : Query σ _).run.run
      ((h.analyze options d.unit.path).run s').2 = (.ok view, s'') := hread
  have hanalyzed := run_lift (h.analyze options d.unit.path) s'
  have hharvested := run_lift (h.harvest d.unit.path view) s''
  -- One step of the check after the other, each with the state that the last one left.
  unfold check
  rw [run_query_bind_ok (h.run_ready hready), run_query_bind_ok hbegun, run_query_bind_ok hd]
  refine (run_query_bind_ok hanalyzed).trans ?_
  rw [run_query_bind_ok hlast]
  exact run_query_bind_ok hharvested

/-- A host that records its requests resolves what it resolves without. -/
theorem Resolves.recording {h : Host σ} {input : String} {s s' : σ} {d : Declaration}
    (hresolves : h.Resolves input s d s') (log : List AnalysisRequest) :
    h.recording.Resolves input (s, log) d (s', log) := by
  obtain ⟨asked, first, hready, hfirst, hdeclaration⟩ := hresolves
  refine ⟨(asked, log), first, ?_, ?_, hdeclaration⟩
  · have hrun : h.recording.indexState.run (s, log) =
        ((h.indexState.run s).1, ((h.indexState.run s).2, log)) := rfl
    rw [hrun, hready]
  · have hrun : h.recording.read.run (asked, log) =
        ((h.read.run asked).1, ((h.read.run asked).2, log)) := rfl
    rw [hrun, hfirst]

/-- Recorded, a check has the same report, and has asked for what its analysis has asked for. -/
theorem run_check_recording {input : String} {s s' s'' : σ} {d : Declaration} {view : IndexView}
    (hresolves : h.Resolves input s d s')
    (hread : h.read.run ((h.analyze options d.unit.path).run s').2 = (.ok view, s'')) :
    (h.recording.check options input).run.run (s, []) =
      (((h.check options input).run.run s).1, (((h.check options input).run.run s).2,
        if ((h.isOpen d.unit.path).run s').1 then []
        else [.opening d.unit.path, .analysis d.unit.path])) := by
  -- The record gets a name, so that the two outcomes of the first question stay one case.
  obtain ⟨log, hlog⟩ : ∃ log : List AnalysisRequest,
      log = if ((h.isOpen d.unit.path).run s').1 then []
        else [.opening d.unit.path, .analysis d.unit.path] := ⟨_, rfl⟩
  have hanalyzed : (h.recording.analyze options d.unit.path).run (s', []) =
      (((h.analyze options d.unit.path).run s').1,
        (((h.analyze options d.unit.path).run s').2, log)) := by
    rw [hlog]
    exact h.asks_analyze options d.unit.path s' []
  rw [← hlog]
  have hlast : h.recording.read.run ((h.recording.analyze options d.unit.path).run (s', [])).2 =
      (.ok view, (s'', log)) := by
    have hrun : h.recording.read.run ((h.recording.analyze options d.unit.path).run (s', [])).2 =
        ((h.read.run ((h.analyze options d.unit.path).run s').2).1,
          ((h.read.run ((h.analyze options d.unit.path).run s').2).2, log)) := by
      rw [hanalyzed]
      rfl
    rw [hrun, hread]
  have hharvested := h.asksNothing_harvest d.unit.path view s'' log
  rw [h.recording.run_check options (hresolves.recording []) hlast,
    h.run_check options hresolves hread, hanalyzed, hharvested, List.append_nil]

/-- A report of readings that have settled, or that have been waited for in vain. -/
def Polled (report : CheckReport) (readings : List Nat) : Prop :=
  ∃ number : Nat, report.polls = number ∧
    (report.state = .stable ∧ SettlesAt readings number ∨
      report.state = .timedOut ∧ (∀ settled, ¬ SettlesAt readings settled) ∧
        number = readings.length)

/-- The report about a unit that was not open tells what the polling found. -/
theorem polled_report {s s' : σ} (hclosed : (h.isOpen path).run s = (false, s')) (d : Declaration)
    (found : Harvest) :
    Polled (report options d ((h.analyze options path).run s).1 found)
      (h.polledReadings options path s') := by
  rw [h.run_analyze_closed options path hclosed]
  dsimp only [polledReadings]
  rcases (h.askFor options path).run s' with ⟨notes, asked⟩
  have hcases := lookUntilSettled_cases (h.poll options path)
    (roundsIn options.timeout options.poll) asked
  dsimp only
  rcases hlooked : (lookUntilSettled (h.poll options path)
    (roundsIn options.timeout options.poll) {}).run asked with ⟨⟨state, polls⟩, looked⟩
  rw [hlooked] at hcases
  -- Either three equal readings came or the rounds ran out.
  rcases hcases with ⟨number, hat, hrun⟩ | ⟨hnever, hrun⟩
  · obtain ⟨rfl, rfl⟩ := Prod.mk.inj hrun
    exact ⟨_, rfl, .inl ⟨rfl, hat⟩⟩
  · obtain ⟨rfl, rfl⟩ := Prod.mk.inj hrun
    exact ⟨_, rfl, .inr ⟨rfl, hnever, rfl⟩⟩

/-! ## What a look reads -/

/-- Read from a state, there are so many diagnostics. -/
def ReadsCount (s : σ) (count : Nat) : Prop :=
  ∃ view begun markers after, h.read.run s = (.ok view, begun) ∧
    (h.markers view path).run begun = (.ok markers, after) ∧ markers.length = count

/-- Looked at from a state, the index is built, it has the last edit, and there are so many
diagnostics. -/
def Counts (s : σ) (count : Nat) : Prop :=
  ∃ state asked committed, h.indexState.run s = (state, asked) ∧ state ≠ some .building ∧
    (h.isCommitted path).run asked = (true, committed) ∧ h.ReadsCount path committed count

/-- A call goes on with its result from the state that it leaves. -/
theorem run_state_bind {α β : Type} {m : StateM σ α} {next : α → StateM σ β} {s s' : σ} {a : α}
    (hrun : m.run s = (a, s')) : (m >>= next).run s = (next a).run s' := by
  rw [StateT.run_bind, hrun]
  rfl

/-- A reading gives a number exactly if the index and then the markers can be read and there are so
many markers. -/
theorem run_readOnce_eq_reading_iff (s : σ) (count : Nat) :
    ((h.readOnce path).run s).1 = .reading count ↔ h.ReadsCount path s count := by
  unfold ReadsCount
  -- Three ends of a reading: no index, no markers, and a number.
  rcases hread : h.read.run s with ⟨_ | view, begun⟩
  next =>
    have hrun : (h.readOnce path).run s = (.unreadable, begun) := run_state_bind hread
    rw [hrun]
    constructor
    · intro heq
      cases heq
    · rintro ⟨view, begun', markers, after, heq, -⟩
      cases heq
  next =>
    rcases hfound : (h.markers view path).run begun with ⟨_ | markers, after⟩
    next =>
      have hrun : (h.readOnce path).run s = (.unreadable, after) :=
        (run_state_bind hread).trans (run_state_bind hfound)
      rw [hrun]
      constructor
      · intro heq
        cases heq
      · rintro ⟨view', begun', markers, after', heq, hfound', -⟩
        cases heq
        cases hfound.symm.trans hfound'
    next =>
      have hrun : (h.readOnce path).run s = (.reading markers.length, after) :=
        (run_state_bind hread).trans (run_state_bind hfound)
      rw [hrun]
      constructor
      · intro heq
        cases heq
        exact ⟨view, begun, markers, after, rfl, hfound, rfl⟩
      · rintro ⟨view', begun', markers', after', heq, hfound', rfl⟩
        cases heq
        cases hfound.symm.trans hfound'
        rfl

/-- A look is a reading if nothing is in its way. -/
theorem run_look_eq_reading_iff (s : σ) (count : Nat) :
    ((h.look path).run s).1 = .reading count ↔ h.Counts path s count := by
  unfold Counts
  -- A look reads only an index that is not being built, and only after the unit is committed.
  rcases hstate : h.indexState.run s with ⟨state, asked⟩
  by_cases hbuilding : state = some .building
  · have hrun : (h.look path).run s = (.building, asked) := by
      rw [look, run_state_bind hstate, if_pos hbuilding]
      rfl
    rw [hrun]
    constructor
    · intro heq
      cases heq
    · rintro ⟨state', asked', committed, heq, hnot, -⟩
      cases heq
      exact absurd hbuilding hnot
  · rcases hfound : (h.isCommitted path).run asked with ⟨_ | _, committed⟩
    next =>
      have hrun : (h.look path).run s = (.uncommitted, committed) := by
        rw [look, run_state_bind hstate, if_neg hbuilding]
        exact run_state_bind hfound
      rw [hrun]
      constructor
      · intro heq
        cases heq
      · rintro ⟨state', asked', committed', heq, -, hfound', -⟩
        cases heq
        cases hfound.symm.trans hfound'
    next =>
      have hrun : (h.look path).run s = (h.readOnce path).run committed := by
        rw [look, run_state_bind hstate, if_neg hbuilding]
        exact run_state_bind hfound
      rw [hrun, run_readOnce_eq_reading_iff]
      constructor
      · intro hreads
        exact ⟨state, asked, committed, rfl, hbuilding, hfound, hreads⟩
      · rintro ⟨state', asked', committed', heq, -, hfound', hreads⟩
        cases heq
        cases hfound.symm.trans hfound'
        exact hreads

/-! ## The report -/

/-- A report has a caveat exactly if the time ran out. -/
theorem isSome_caveat_iff (progress : CheckProgress) (timeout : Nat) :
    (progress.caveat timeout).isSome ↔ progress.state = .timedOut := by
  unfold CheckProgress.caveat
  by_cases h : progress.state = .timedOut
  · rw [if_pos h]
    exact ⟨fun _ => h, fun _ => rfl⟩
  · rw [if_neg h]
    exact ⟨nofun, fun h' => absurd h' h⟩

end Host

open Host in
/-- Diagnostics have settled with the third of three equal readings, and with no other one. Looks
that read nothing do not matter: of so many looks, it is the readings among them that settle or do
not, and a look is a reading exactly if the index is built, has the last edit and can be read.

A check of a name that stands for one declaration always has a report, as long as reads begin. If
the file is open, nothing is asked for and nothing is waited for; else it is asked for once to be
opened and once to be analysed, and readings are waited for. A report has a caveat exactly if they
have not settled in time. -/
theorem polling_settles_on_three_equal :
    (∀ (σ : Type) (look : StateM σ Look) (rounds : Nat) (s : σ) (number : Nat),
      (((lookUntilSettled look rounds {}).run s).1 = (.stable, number) ↔
        SettlesAt (readingsFrom look rounds s) number) ∧
      (((lookUntilSettled look rounds {}).run s).1 = (.timedOut, number) ↔
        (∀ settled, ¬ SettlesAt (readingsFrom look rounds s) settled) ∧
          number = (readingsFrom look rounds s).length)) ∧
    (∀ (σ : Type) (h : Host σ) (path : String) (s : σ) (count : Nat),
      ((h.look path).run s).1 = .reading count ↔ h.Counts path s count) ∧
    ∀ (σ : Type) (h : Host σ) (options : CheckOptions) (input : String) (s s' : σ)
      (d : Declaration), h.Resolves input s d s' →
      (∃ view s'', h.read.run ((h.analyze options d.unit.path).run s').2 = (.ok view, s'')) →
      ∃ report after requests,
        (h.check options input).run.run s = (.ok report, after) ∧
        (h.recording.check options input).run.run (s, []) = (.ok report, (after, requests)) ∧
        (report.caveat.isSome ↔ report.state = .timedOut) ∧
        (∀ opened asked, (h.isOpen d.unit.path).run s' = (opened, asked) →
          if opened then report.state = .alreadyOpen ∧ report.polls = 0 ∧ requests = []
          else requests = [.opening d.unit.path, .analysis d.unit.path] ∧
            Polled report (h.polledReadings options d.unit.path asked)) := by
  refine ⟨?_, fun σ h => h.run_look_eq_reading_iff, ?_⟩
  · intro σ look rounds s number
    exact ⟨lookUntilSettled_eq_stable_iff look rounds s number,
      lookUntilSettled_eq_timedOut_iff look rounds s number⟩
  intro σ h options input s s' d hresolves hread
  obtain ⟨view, s'', hread⟩ := hread
  have hchecked := h.run_check options hresolves hread
  have hrecorded := h.run_check_recording options hresolves hread
  rw [hchecked] at hrecorded
  refine ⟨_, _, _, hchecked, hrecorded, isSome_caveat_iff _ _, ?_⟩
  intro opened asked hopen
  rw [hopen]
  -- A unit that is open already is harvested without a request.
  cases opened with
  | true =>
    dsimp only [report]
    rw [h.run_analyze_open options d.unit.path hopen]
    exact ⟨rfl, rfl, rfl⟩
  | false => exact ⟨rfl, polled_report h options d.unit.path hopen d _⟩

/-- A file of one class. -/
def oneClass : IndexView where
  index :=
    { files :=
        [{ id := 1, path := "A.java", name := "A.java", origin := .project, digest := .cleared,
           size := 0, package := "", wildcardImports := [], content := "" }]
      declarations :=
        [{ id := 1, fileId := 1, package := "", symbol := { qualname := "A", name := "A" } }] }
  disk := default
  root := "/"

/-- The file is closed, and the second reading of its diagnostics fails. -/
def failingOnce : ScriptedWorld where
  script := { readings := [.markers [], .failure "busy", .markers []] }
  view := some oneClass
  classpath := default

/-- There is time for five looks. -/
def fiveLooks : CheckOptions where
  timeout := 50
  poll := 10
  openDelay := 5
  triggerDelay := 5

/-- The fourth look settles the diagnostics, with the third reading. -/
theorem polling_settles_on_three_equal_failing_once :
    ∃ report after,
      (ScriptedWorld.host.recording.check fiveLooks "A").run.run (failingOnce, []) =
        (.ok report, (after, [.opening "A.java", .analysis "A.java"])) ∧
      report.state = .stable ∧ report.polls = 3 ∧ report.caveat = none := by
  obtain ⟨d, hd, hpath⟩ : ∃ d, oneClass.theDeclaration "A" = .ok d ∧ d.unit.path = "A.java" := by
    have hfound : (oneClass.theDeclaration "A").toOption.map (·.unit.path) = some "A.java" := by
      decide +kernel
    obtain ⟨d, hd, hpath⟩ := Option.map_eq_some_iff.mp hfound
    cases hresult : oneClass.theDeclaration "A" with
    | error e => rw [hresult] at hd; cases hd
    | ok d' => rw [hresult] at hd; cases hd; exact ⟨d, rfl, hpath⟩
  have hresolves : ScriptedWorld.host.Resolves "A" failingOnce d failingOnce :=
    ⟨failingOnce, oneClass, rfl, rfl, hd⟩
  have hread : ∃ view s'', ScriptedWorld.host.read.run
      ((ScriptedWorld.host.analyze fiveLooks d.unit.path).run failingOnce).2 =
        (.ok view, s'') := by
    rw [hpath]
    have hshown : (ScriptedWorld.host.read.run ((ScriptedWorld.host.analyze fiveLooks
        "A.java").run failingOnce).2).1.toOption.isSome := by decide +kernel
    rcases hrun : ScriptedWorld.host.read.run ((ScriptedWorld.host.analyze fiveLooks
      "A.java").run failingOnce).2 with ⟨_ | view, s''⟩
    · rw [hrun] at hshown
      cases hshown
    · exact ⟨view, s'', rfl⟩
  have hreadings : ScriptedWorld.host.polledReadings fiveLooks "A.java" failingOnce =
      [0, 0, 0, 0] := by decide +kernel
  -- Three zeros are enough, and fewer readings are not three.
  have hsettles : SettlesAt [0, 0, 0, 0] 3 := by
    refine ⟨⟨0, 0, rfl, rfl, rfl, rfl⟩, ?_⟩
    rintro earlier hearlier ⟨i, -, rfl, -⟩
    omega
  obtain ⟨report, after, requests, -, hchecked, hcaveat, hopen⟩ :=
    polling_settles_on_three_equal.2.2 _ ScriptedWorld.host fiveLooks "A" _ _ d hresolves hread
  obtain ⟨hrequests, number, hpolls, hpolled⟩ := hopen false failingOnce rfl
  rw [hpath, hreadings] at hpolled
  rw [hpath] at hrequests
  rcases hpolled with ⟨hstable, hat⟩ | ⟨-, hnever, -⟩
  · rw [hrequests] at hchecked
    refine ⟨report, after, hchecked, hstable, ?_, ?_⟩
    · rw [hpolls, hat.unique hsettles]
      rfl
    · rw [hstable, Option.isSome_iff_ne_none] at hcaveat
      by_contra hsome
      cases hcaveat.mp hsome
  · exact absurd hsettles (hnever 3)

end JavaAtlas
