import JavaAtlas.Reads

namespace JavaAtlas

/-! # Nested reads show the same

A thread may ask for reads inside reads, of several coordinators, and it may open and close projects
in between. Whatever it does, a read inside another one of the same coordinator shows what the outer
one shows.

* `ReadProgram`: what a thread does, as a tree that branches on what it is shown;
* `ReadProgram.watch`: the same, with a record of every call of a read;
* `Reads.run_read` and the lemmas after it: the ways in which a read goes;
* `Agrees`: the reads that go on are those around a call;
* `ReadProgram.keeps_call`: one call, given what is done inside it;
* `nested_reads_share_one_transaction`: what holds of every call.
-/

/-! ## What a thread does -/

/-- What a thread does with its coordinators, and what it comes to. Inside a read, that depends on
what is shown; after it, on what has come of it. -/
inductive ReadProgram (π τ ν : Type) where
  | done (value : ν)
  | opening (coordinator : Nat) (project : π) (next : ReadProgram π τ ν)
  | closing (coordinator : Nat) (next : ReadProgram π τ ν)
  | reading (coordinator : Nat) (inside : τ → ReadProgram π τ ν)
      (next : Except QueryError ν → ReadProgram π τ ν)

/-- A call of a read. -/
structure ReadCall (π τ : Type) where
  coordinator : Nat
  /-- The calls around it, innermost first, with what they show. -/
  enclosing : List (Nat × τ)
  /-- The project that its coordinator has open when it is made. -/
  project : Option π
  /-- The reads that the call itself begins, with what comes of it. -/
  begun : List (π × Except Failure τ)
  /-- What it shows. -/
  outcome : Except QueryError τ
  /-- The reads that go on when it is made. -/
  before : List (Nat × τ)
  /-- The reads that go on when it is over. -/
  after : List (Nat × τ)

/-- How a call of a read should go. -/
structure ReadCall.Sound {π τ : Type} (call : ReadCall π τ) : Prop where
  refused_iff : call.outcome = .error .noProjectOpen ↔ call.project = none
  /-- It begins a read if a project is open and no call around it is of its coordinator. -/
  begins_iff : call.begun ≠ [] ↔
    call.project ≠ none ∧ ∀ view, (call.coordinator, view) ∉ call.enclosing
  /-- It begins at most one, of the project that is open, and shows what comes of it. -/
  begins_one : call.begun ≠ [] → ∃ project view, call.project = some project ∧
    call.begun = [(project, view)] ∧ call.outcome = view.mapError .internal
  /-- Inside other ones of its coordinator it shows what they show. -/
  shares : call.project ≠ none → ∀ view, (call.coordinator, view) ∈ call.enclosing →
    call.outcome = .ok view
  restores : call.after = call.before

namespace ReadCall

variable {π τ : Type} {call : ReadCall π τ} {project : π} {view : τ}

/-- A call with no project. -/
theorem sound_refused (hproject : call.project = none) (hbegun : call.begun = [])
    (houtcome : call.outcome = .error .noProjectOpen) (hafter : call.after = call.before) :
    call.Sound where
  refused_iff := ⟨fun _ => hproject, fun _ => houtcome⟩
  begins_iff := ⟨fun h => absurd hbegun h, fun h => absurd hproject h.1⟩
  begins_one h := absurd hbegun h
  shares h := absurd hproject h
  restores := hafter

/-- A call inside other ones of its coordinator, all of which show the same. -/
theorem sound_shared (hproject : call.project = some project) (hbegun : call.begun = [])
    (houtcome : call.outcome = .ok view) (hview : (call.coordinator, view) ∈ call.enclosing)
    (hsame : ∀ shown, (call.coordinator, shown) ∈ call.enclosing → shown = view)
    (hafter : call.after = call.before) : call.Sound where
  refused_iff := by
    rw [houtcome, hproject]
    exact ⟨nofun, nofun⟩
  begins_iff := ⟨fun h => absurd hbegun h, fun h => absurd hview (h.2 view)⟩
  begins_one h := absurd hbegun h
  shares _ shown hshown := by rw [houtcome, hsame shown hshown]
  restores := hafter

/-- A call inside none of its coordinator. -/
theorem sound_begun {found : Except Failure τ} (hproject : call.project = some project)
    (hbegun : call.begun = [(project, found)]) (houtcome : call.outcome = found.mapError .internal)
    (hnone : ∀ view, (call.coordinator, view) ∉ call.enclosing)
    (hafter : call.after = call.before) : call.Sound where
  refused_iff := by
    rw [houtcome, hproject]
    cases found with
    | error e => exact ⟨nofun, nofun⟩
    | ok view => exact ⟨nofun, nofun⟩
  begins_iff := by
    rw [hbegun, hproject]
    exact ⟨fun _ => ⟨nofun, hnone⟩, fun _ => nofun⟩
  begins_one _ := ⟨project, found, hproject, hbegun, houtcome⟩
  shares _ shown hshown := absurd hshown (hnone shown)
  restores := hafter

end ReadCall

/-- What there is to know of a call inside it: what it shows, the reads begun when it comes to be
shown and when it has been, what has come of that, and the calls made meanwhile. -/
structure Inside (π τ ν : Type) where
  view : τ
  entered : List (π × Except Failure τ)
  left : List (π × Except Failure τ)
  value : ν
  calls : List (ReadCall π τ)

namespace ReadProgram

variable {π τ ν ω : Type} (start : π → StateM ω (Except Failure τ))

/-- Runs a program in a world in which reads may or may not begin. -/
def run : ReadProgram π τ ν → StateT (Reads π τ) (StateM ω) ν
  | done value => return value
  | opening coordinator project next => do
    modify (·.openProject coordinator project)
    next.run
  | closing coordinator next => do
    modify (·.closeProject coordinator)
    next.run
  | reading coordinator inside next => do
    let result ← Reads.read start coordinator fun view => (inside view).run
    (next result).run

/-- A world in which reads that are begun are recorded. -/
abbrev Recorded (ω π τ : Type) := StateM (ω × List (π × Except Failure τ))

/-- Begins a read and records it. -/
def recorded (project : π) : Recorded ω π τ (Except Failure τ) := do
  let (w, begun) ← get
  let (view, w) := (start project).run w
  set (w, begun ++ [(project, view)])
  return view

/-- The reads begun so far. -/
def begunSoFar : StateT (Reads π τ) (Recorded ω π τ) (List (π × Except Failure τ)) := do
  return (← (get : Recorded ω π τ _)).2

/-- Shows a read to what is watched, with what there is to know of that. -/
def watchInside {α : Type} (view : τ)
    (inside : StateT (Reads π τ) (Recorded ω π τ) (α × List (ReadCall π τ))) :
    StateT (Reads π τ) (Recorded ω π τ) (Inside π τ α) := do
  let entered ← begunSoFar
  let (value, calls) ← inside
  return { view, entered, value, calls, left := ← begunSoFar }

/-- A call from what it has come to, the reads before and after it, and those begun by then: the
ones that it has begun itself are those before it is shown and after it has been. -/
def callOf {α : Type} (coordinator : Nat) (enclosing : List (Nat × τ)) (before after : Reads π τ)
    (made ended : List (π × Except Failure τ)) (result : Except QueryError (Inside π τ α)) :
    ReadCall π τ where
  coordinator := coordinator
  enclosing := enclosing
  project := before.project coordinator
  begun := match result with
    | .ok i => i.entered.drop made.length ++ ended.drop i.left.length
    | .error _ => ended.drop made.length
  outcome := result.map (·.view)
  before := before.active
  after := after.active

/-- Records a call, and the calls inside it after it. -/
def watchCall {α : Type} (coordinator : Nat) (enclosing : List (Nat × τ))
    (inside : τ → StateT (Reads π τ) (Recorded ω π τ) (α × List (ReadCall π τ))) :
    StateT (Reads π τ) (Recorded ω π τ) (Except QueryError α × List (ReadCall π τ)) := do
  let before ← get
  let made ← begunSoFar
  let result ← Reads.read (recorded start) coordinator fun view => watchInside view (inside view)
  let call := callOf coordinator enclosing before (← get) made (← begunSoFar) result
  match result with
  | .ok i => return (.ok i.value, call :: i.calls)
  | .error e => return (.error e, [call])

/-- Runs a program, inside calls with what they show, and records its calls. -/
def watch : ReadProgram π τ ν → List (Nat × τ) →
    StateT (Reads π τ) (Recorded ω π τ) (ν × List (ReadCall π τ))
  | done value, _ => return (value, [])
  | opening coordinator project next, enclosing => do
    modify (·.openProject coordinator project)
    next.watch enclosing
  | closing coordinator next, enclosing => do
    modify (·.closeProject coordinator)
    next.watch enclosing
  | reading coordinator inside next, enclosing => do
    let (result, made) ← watchCall start coordinator enclosing fun view =>
      (inside view).watch ((coordinator, view) :: enclosing)
    let (value, calls) ← (next result).watch enclosing
    return (value, made ++ calls)

end ReadProgram

namespace Reads

variable {π τ α ω : Type} {start : π → StateM ω (Except Failure τ)} {coordinator : Nat}
  {body : τ → StateT (Reads π τ) (StateM ω) α} {r r' : Reads π τ} {w w' w'' : ω} {p : π} {a : α}
  {view : τ}

/-- A read is refused without a project, shares the transaction that is open, or begins one. -/
theorem run_read : ((read start coordinator body).run r).run w =
    ((match r.project coordinator, r.active? coordinator with
      | none, _ => return .error .noProjectOpen
      | some _, some view => return .ok (← body view)
      | some p, none => do
        match ← start p with
        | .error e => return .error (.internal e)
        | .ok view =>
          modify (·.enter coordinator view)
          let result ← body view
          modify leave
          return .ok result :
            StateT (Reads π τ) (StateM ω) (Except QueryError α)).run r).run w :=
  rfl

/-- Without a project nothing is read. -/
theorem run_read_refused (hproject : r.project coordinator = none) :
    ((read start coordinator body).run r).run w = ((.error .noProjectOpen, r), w) := by
  rw [run_read, hproject]
  rfl

/-- Inside another read the body runs in its transaction. -/
theorem run_read_shared (hproject : r.project coordinator = some p)
    (hactive : r.active? coordinator = some view)
    (hbody : ((body view).run r).run w = ((a, r'), w')) :
    ((read start coordinator body).run r).run w = ((.ok a, r'), w') := by
  have hrun : ((return .ok (← body view) :
      StateT (Reads π τ) (StateM ω) (Except QueryError α)).run r).run w =
      ((.ok (((body view).run r).run w).1.1, (((body view).run r).run w).1.2),
        (((body view).run r).run w).2) := rfl
  rw [run_read, hproject, hactive]
  dsimp only
  rw [hrun, hbody]

/-- Outside of all reads a transaction is begun, which may fail. -/
theorem run_read_anew (hproject : r.project coordinator = some p)
    (hactive : r.active? coordinator = none) :
    ((read start coordinator body).run r).run w =
      match (start p).run w with
      | (.error e, w') => ((.error (.internal e), r), w')
      | (.ok view, w') =>
        let ((a, r'), w'') := ((body view).run (r.enter coordinator view)).run w'
        ((.ok a, r'.leave), w'') := by
  rw [run_read, hproject, hactive]
  have hrun : ((do
      match ← start p with
      | .error e => return .error (.internal e)
      | .ok view =>
        modify (·.enter coordinator view)
        let result ← body view
        modify leave
        return .ok result :
          StateT (Reads π τ) (StateM ω) (Except QueryError α)).run r).run w =
      ((match ((start p).run w).1 with
      | .error e => return .error (.internal e)
      | .ok view => do
        modify (·.enter coordinator view)
        let result ← body view
        modify leave
        return .ok result :
          StateT (Reads π τ) (StateM ω) (Except QueryError α)).run r).run ((start p).run w).2 := rfl
  dsimp only
  rw [hrun]
  -- The transaction cannot be begun, or the body runs in it.
  rcases (start p).run w with ⟨_ | view, w'⟩
  · rfl
  · rfl

end Reads

/-! ## What holds of every call -/

section

variable {π τ ν ω : Type}

/-- The reads that go on are those around a call: of a coordinator, what goes on shows what the
calls around show. -/
def Agrees (enclosing active : List (Nat × τ)) : Prop :=
  ∀ coordinator view, (coordinator, view) ∈ enclosing ↔ active.lookup coordinator = some view

variable {enclosing active : List (Nat × τ)} {coordinator : Nat} {view : τ}

/-- Without enclosing reads there is nothing to agree with. -/
theorem Agrees.nil : Agrees ([] : List (Nat × τ)) [] := fun _ _ => ⟨nofun, nofun⟩

/-- Of a coordinator, a read is going on exactly if a call is around. -/
theorem Agrees.lookup_eq_none_iff (h : Agrees enclosing active) :
    active.lookup coordinator = none ↔ ∀ view, (coordinator, view) ∉ enclosing := by
  constructor
  · intro hnone view hmem
    rw [h, hnone] at hmem
    cases hmem
  · intro hnot
    cases hlookup : active.lookup coordinator with
    | none => rfl
    | some view => exact absurd ((h coordinator view).mpr hlookup) (hnot view)

/-- A call that shares what goes on. -/
theorem Agrees.shared (h : Agrees enclosing active)
    (hlookup : active.lookup coordinator = some view) :
    Agrees ((coordinator, view) :: enclosing) active := by
  intro c shown
  rw [List.mem_cons, h]
  constructor
  · rintro (heq | hshown)
    · obtain ⟨rfl, rfl⟩ := Prod.mk.inj heq
      exact hlookup
    · exact hshown
  · exact .inr

/-- A call that begins what goes on. -/
theorem Agrees.begun (h : Agrees enclosing active) (hlookup : active.lookup coordinator = none) :
    Agrees ((coordinator, view) :: enclosing) ((coordinator, view) :: active) := by
  intro c shown
  rw [List.mem_cons, List.lookup_cons]
  -- The transaction begun is the one of its coordinator, and the others stay.
  by_cases hc : c = coordinator
  · subst hc
    rw [beq_self_eq_true]
    have hnot := h.lookup_eq_none_iff.mp hlookup shown
    constructor
    · rintro (heq | hmem)
      · rw [(Prod.mk.inj heq).2]
      · exact absurd hmem hnot
    · intro heq
      rw [Option.some.inj heq]
      exact .inl rfl
  · rw [beq_false_of_ne hc]
    constructor
    · rintro (heq | hmem)
      · exact absurd (Prod.mk.inj heq).1 hc
      · exact (h c shown).mp hmem
    · intro hshown
      exact .inr ((h c shown).mpr hshown)

namespace ReadProgram

variable {α β : Type} (start : π → StateM ω (Except Failure τ))

/-- What calls have begun. -/
def begunBy (calls : List (ReadCall π τ)) : List (π × Except Failure τ) := calls.flatMap (·.begun)

/-- Watched from some state, what is done comes to what it comes to without, it leaves the reads
that go on as they are, what is begun is begun by its calls, and these go as they should. -/
def Keeps (plain : StateT (Reads π τ) (StateM ω) α)
    (watched : StateT (Reads π τ) (Recorded ω π τ) (α × List (ReadCall π τ))) (r : Reads π τ)
    (w : ω) : Prop :=
  ∃ value calls r' w',
    (plain.run r).run w = ((value, r'), w') ∧ r'.active = r.active ∧
    (∀ begun, (watched.run r).run (w, begun) =
      (((value, calls), r'), (w', begun ++ begunBy calls))) ∧
    ∀ call ∈ calls, call.Sound

section

variable {plain : StateT (Reads π τ) (StateM ω) α}
  {watched : StateT (Reads π τ) (Recorded ω π τ) (α × List (ReadCall π τ))}
  {next : α → StateT (Reads π τ) (StateM ω) β}
  {watchedNext : α → StateT (Reads π τ) (Recorded ω π τ) (β × List (ReadCall π τ))}
  {r : Reads π τ} {w : ω}

/-- Reads made one after the other are those of the first part and then of the second. -/
theorem Keeps.bind (h : Keeps plain watched r w)
    (hnext : ∀ a r' w', r'.active = r.active → Keeps (next a) (watchedNext a) r' w') :
    Keeps (plain >>= next) (do
      let (a, made) ← watched
      let (b, calls) ← watchedNext a
      return (b, made ++ calls)) r w := by
  obtain ⟨a, made, r', w', hrun, hactive, hwatch, hsound⟩ := h
  obtain ⟨b, calls, r'', w'', hrunNext, hactiveNext, hwatchNext, hsoundNext⟩ :=
    hnext a r' w' hactive
  refine ⟨b, made ++ calls, r'', w'', ?_, hactiveNext.trans hactive, ?_, ?_⟩
  · have hbind : ((plain >>= next).run r).run w =
        ((next ((plain.run r).run w).1.1).run ((plain.run r).run w).1.2).run
          ((plain.run r).run w).2 := rfl
    rw [hbind, hrun, hrunNext]
  · -- The record of the second part is put behind that of the first.
    intro begun
    have hbind : ((do
        let (a, made) ← watched
        let (b, calls) ← watchedNext a
        return (b, made ++ calls) :
          StateT (Reads π τ) (Recorded ω π τ) (β × List (ReadCall π τ))).run r).run (w, begun) =
        let ((found, r'), s') := (watched.run r).run (w, begun)
        let ((last, r''), s'') := ((watchedNext found.1).run r').run s'
        (((last.1, found.2 ++ last.2), r''), s'') := rfl
    rw [hbind, hwatch]
    dsimp only
    rw [hwatchNext]
    dsimp only
    rw [begunBy, begunBy, begunBy, List.flatMap_append, List.append_assoc]
  · intro call hcall
    rcases List.mem_append.mp hcall with hmade | hcalls
    · exact hsound call hmade
    · exact hsoundNext call hcalls

end

/-- A transaction that is begun is put at the end of the record. -/
theorem run_recorded (p : π) (w : ω) (begun : List (π × Except Failure τ)) :
    (recorded start p).run (w, begun) = (((start p).run w).1,
      (((start p).run w).2, begun ++ [(p, ((start p).run w).1)])) := rfl

/-- A watched body runs as the body and gives back what was recorded in it. -/
theorem run_watchInside (view : τ)
    (inside : StateT (Reads π τ) (Recorded ω π τ) (α × List (ReadCall π τ))) (r : Reads π τ)
    (w : ω) (begun : List (π × Except Failure τ)) :
    ((watchInside view inside).run r).run (w, begun) =
      let (((value, calls), r'), (w', left)) := (inside.run r).run (w, begun)
      (({ view, entered := begun, value, calls, left }, r'), (w', left)) := rfl

/-- A watched read runs as the read and tells what it was made of. -/
theorem run_watchCall (coordinator : Nat) (enclosing : List (Nat × τ))
    (inside : τ → StateT (Reads π τ) (Recorded ω π τ) (α × List (ReadCall π τ))) (r : Reads π τ)
    (w : ω) (made : List (π × Except Failure τ)) :
    ((watchCall start coordinator enclosing inside).run r).run (w, made) =
      let ((result, after), (w', ended)) := ((Reads.read (recorded start) coordinator fun view =>
        watchInside view (inside view)).run r).run (w, made)
      let call := callOf coordinator enclosing r after made ended result
      ((match result with
        | .ok i => (.ok i.value, call :: i.calls)
        | .error e => (.error e, [call]), after), (w', ended)) := by
  have hrun : ((watchCall start coordinator enclosing inside).run r).run (w, made) =
      let ((result, after), (w', ended)) := ((Reads.read (recorded start) coordinator fun view =>
        watchInside view (inside view)).run r).run (w, made)
      let call := callOf coordinator enclosing r after made ended result
      ((match result with
        | .ok i => return (.ok i.value, call :: i.calls)
        | .error e => return (.error e, [call]) : StateT (Reads π τ) (Recorded ω π τ) _).run
          after).run (w', ended) := rfl
  rw [hrun]
  rcases ((Reads.read (recorded start) coordinator fun view =>
    watchInside view (inside view)).run r).run (w, made) with ⟨⟨_ | i, after⟩, w', ended⟩
  · rfl
  · rfl

section

variable {coordinator : Nat} {enclosing : List (Nat × τ)}
  {body : τ → StateT (Reads π τ) (StateM ω) α}
  {inside : τ → StateT (Reads π τ) (Recorded ω π τ) (α × List (ReadCall π τ))} {r : Reads π τ}
  {w : ω} {p : π} {view : τ}

/-- A call of a coordinator with no project. -/
theorem keeps_refused_call (hproject : r.project coordinator = none) :
    Keeps (Reads.read start coordinator body) (watchCall start coordinator enclosing inside)
      r w := by
  let call : ReadCall π τ := {
    coordinator
    enclosing
    project := none
    begun := []
    outcome := .error .noProjectOpen
    before := r.active
    after := r.active }
  refine ⟨.error .noProjectOpen, [call], r, w, Reads.run_read_refused hproject, rfl, ?_, ?_⟩
  · -- Nothing is begun, so the record stays.
    intro begun
    rw [run_watchCall, Reads.run_read_refused hproject]
    dsimp only [callOf]
    rw [hproject, List.drop_length, begunBy, List.flatMap_singleton, List.append_nil]
    rfl
  · intro made hmade
    rw [List.mem_singleton.mp hmade]
    exact ReadCall.sound_refused rfl rfl rfl rfl

/-- A call inside another one of its coordinator. -/
theorem keeps_shared_call (hagrees : Agrees enclosing r.active)
    (hproject : r.project coordinator = some p) (hactive : r.active? coordinator = some view)
    (hinside : Keeps (body view) (inside view) r w) :
    Keeps (Reads.read start coordinator body) (watchCall start coordinator enclosing inside)
      r w := by
  obtain ⟨a, calls, r', w', hrun, hkept, hwatch, hsound⟩ := hinside
  let call : ReadCall π τ := {
    coordinator
    enclosing
    project := some p
    begun := []
    outcome := .ok view
    before := r.active
    after := r'.active }
  refine ⟨.ok a, call :: calls, r', w', Reads.run_read_shared hproject hactive hrun, hkept, ?_, ?_⟩
  · intro begun
    have hwatched : ((watchInside view (inside view)).run r).run (w, begun) =
        ((⟨view, begun, begun ++ begunBy calls, a, calls⟩, r'),
          (w', begun ++ begunBy calls)) := by
      rw [run_watchInside, hwatch]
    rw [run_watchCall, Reads.run_read_shared hproject hactive hwatched]
    dsimp only [callOf]
    rw [hproject, List.drop_length, List.drop_length]
    rfl
  · -- The call itself shares the transaction, and the calls in it are sound already.
    intro made hmade
    rcases List.mem_cons.mp hmade with rfl | hinner
    · have hview := (hagrees coordinator view).mpr hactive
      refine ReadCall.sound_shared rfl rfl rfl hview ?_ hkept
      intro shown hshown
      have hlookup := (hagrees coordinator shown).mp hshown
      exact Option.some.inj (hlookup.symm.trans hactive)
    · exact hsound made hinner

/-- A call that begins a read in vain. -/
theorem keeps_failing_call {e : Failure} {w' : ω} (hagrees : Agrees enclosing r.active)
    (hproject : r.project coordinator = some p) (hactive : r.active? coordinator = none)
    (hstart : (start p).run w = (.error e, w')) :
    Keeps (Reads.read start coordinator body) (watchCall start coordinator enclosing inside)
      r w := by
  have hnone := hagrees.lookup_eq_none_iff.mp hactive
  let call : ReadCall π τ := {
    coordinator
    enclosing
    project := some p
    begun := [(p, .error e)]
    outcome := .error (.internal e)
    before := r.active
    after := r.active }
  refine ⟨.error (.internal e), [call], r, w', ?_, rfl, ?_, ?_⟩
  · rw [Reads.run_read_anew hproject hactive, hstart]
  · -- The attempt is recorded, though it fails.
    intro begun
    rw [run_watchCall, Reads.run_read_anew hproject hactive, run_recorded, hstart]
    dsimp only [callOf]
    rw [hproject, List.drop_left]
    rfl
  · intro made hmade
    rw [List.mem_singleton.mp hmade]
    exact ReadCall.sound_begun rfl rfl rfl hnone rfl

/-- A call that begins a read. -/
theorem keeps_begun_call {w' : ω} (hagrees : Agrees enclosing r.active)
    (hproject : r.project coordinator = some p) (hactive : r.active? coordinator = none)
    (hstart : (start p).run w = (.ok view, w'))
    (hinside : Keeps (body view) (inside view) (r.enter coordinator view) w') :
    Keeps (Reads.read start coordinator body) (watchCall start coordinator enclosing inside)
      r w := by
  have hnone := hagrees.lookup_eq_none_iff.mp hactive
  obtain ⟨a, calls, r', w'', hrun, hkept, hwatch, hsound⟩ := hinside
  -- what is done inside leaves the new read on top, and that is the one taken away
  have hleft : r'.leave.active = r.active := by
    rw [Reads.leave, hkept]
    rfl
  let call : ReadCall π τ := {
    coordinator
    enclosing
    project := some p
    begun := [(p, .ok view)]
    outcome := .ok view
    before := r.active
    after := r'.leave.active }
  refine ⟨.ok a, call :: calls, r'.leave, w'', ?_, hleft, ?_, ?_⟩
  · rw [Reads.run_read_anew hproject hactive, hstart]
    dsimp only
    rw [hrun]
  · intro begun
    rw [run_watchCall, Reads.run_read_anew hproject hactive, run_recorded, hstart]
    dsimp only
    rw [run_watchInside, hwatch]
    dsimp only [callOf]
    rw [hproject, List.drop_left, List.drop_length, List.append_assoc]
    rfl
  · intro made hmade
    rcases List.mem_cons.mp hmade with rfl | hinner
    · exact ReadCall.sound_begun rfl rfl rfl hnone hleft
    · exact hsound made hinner

/-- Every call, given what is done inside it, which is inside calls that agree again. -/
theorem keeps_call (w : ω) (hagrees : Agrees enclosing r.active)
    (hinside : ∀ view r w, Agrees ((coordinator, view) :: enclosing) r.active →
      Keeps (body view) (inside view) r w) :
    Keeps (Reads.read start coordinator body) (watchCall start coordinator enclosing inside)
      r w := by
  cases hproject : r.project coordinator with
  | none => exact keeps_refused_call start hproject
  | some p =>
    cases hactive : r.active? coordinator with
    | some view =>
      exact keeps_shared_call start hagrees hproject hactive
        (hinside view r w (hagrees.shared hactive))
    | none =>
      rcases hstart : (start p).run w with ⟨e | view, w'⟩
      · exact keeps_failing_call start hagrees hproject hactive hstart
      · exact keeps_begun_call start hagrees hproject hactive hstart
          (hinside view (r.enter coordinator view) w' (hagrees.begun hactive))

end

/-- A whole program, by what it does first. -/
theorem keeps (program : ReadProgram π τ ν) {enclosing : List (Nat × τ)} {r : Reads π τ} (w : ω)
    (hagrees : Agrees enclosing r.active) :
    Keeps (program.run start) (program.watch start enclosing) r w := by
  -- On the program. A read changes what is active for its own body only.
  induction program generalizing enclosing r w with
  | done value =>
    refine ⟨value, [], r, w, rfl, rfl, ?_, nofun⟩
    intro begun
    rw [begunBy, List.flatMap_nil, List.append_nil]
    rfl
  | opening coordinator project next ih =>
    exact ih (r := r.openProject coordinator project) w hagrees
  | closing coordinator next ih =>
    exact ih (r := r.closeProject coordinator) w hagrees
  | reading coordinator inside next ihInside ihNext =>
    -- The read itself, by what its body keeps, and then the rest.
    have hcall : Keeps (Reads.read start coordinator fun view => (inside view).run start)
        (watchCall start coordinator enclosing fun view =>
          (inside view).watch start ((coordinator, view) :: enclosing)) r w :=
      keeps_call start w hagrees fun view _ w => ihInside view w
    have hnext : ∀ result r' w', r'.active = r.active →
        Keeps ((next result).run start) ((next result).watch start enclosing) r' w' :=
      fun result r' w' hactive => ihNext result w' (hactive ▸ hagrees)
    have hall := hcall.bind hnext
    exact hall

end ReadProgram

end

open ReadProgram in
/-- Nested reads share one transaction. Whatever a thread does, and however reads begin or fail to,
every call of a read goes as it should: it is refused exactly if its coordinator has no project
open; else it begins a read exactly if no call around it is of its coordinator, and if one is, it
shows what that one shows, whatever calls lie between and whatever has become of the project; and
when it is over, the same reads go on as before it. No read begins other than by a call, none goes
on in the end, and watching the calls changes nothing. -/
theorem nested_reads_share_one_transaction {π τ ν ω : Type}
    (start : π → StateM ω (Except Failure τ)) (program : ReadProgram π τ ν)
    (project : Nat → Option π) (w : ω) :
    ∃ value calls reads w',
      ((program.run start).run { project }).run w = ((value, reads), w') ∧
      ((program.watch start []).run { project }).run (w, []) =
        (((value, calls), reads), (w', begunBy calls)) ∧
      reads.active = [] ∧ ∀ call ∈ calls, call.Sound := by
  obtain ⟨value, calls, reads, w', hrun, hactive, hwatch, hsound⟩ :=
    keeps start program (r := { project }) w Agrees.nil
  exact ⟨value, calls, reads, w', hrun, hwatch [], hactive, hsound⟩

/-- Inside a read of coordinator 0 its project is replaced, and it is read again inside a read of
coordinator 1. Reads are numbered as they begin. -/
example :
    let start (_ : String) : StateM Nat (Except Failure Nat) := fun n => (.ok n, n + 1)
    let values (result : Except QueryError (List Nat)) : ReadProgram String Nat (List Nat) :=
      .done (result.toOption.getD [])
    let program : ReadProgram String Nat (List Nat) := .reading 0 (fun first => .opening 0 "new" <|
      .reading 1 (fun other => .reading 0 (fun again => .done [first, other, again]) values)
        values) values
    (((program.run start).run { project := fun _ => some "old" }).run 0).1.1 = [0, 1, 0] := rfl

end JavaAtlas
