import JavaAtlas.Host

namespace JavaAtlas

/-! # Checking one source file

The source file of a declaration is opened for analysis, an analysis is asked for, and when its
diagnostics have settled they are told. If the file is open already, its diagnostics are told as
they are. What goes wrong on the way is noted and does not stop the check, and diagnostics that do
not settle in time are told all the same, with a caveat.
-/

/-- How long the parts of a check take, in milliseconds. -/
structure CheckOptions where
  timeout : Nat
  /-- The pause after each look at the diagnostics. -/
  poll : Nat
  openDelay : Nat
  triggerDelay : Nat
deriving DecidableEq, Inhabited, Repr

/-- How a check has gone before its diagnostics are told. -/
structure CheckProgress where
  state : CheckState
  polls : Nat
  notes : List String
deriving DecidableEq, Inhabited, Repr

/-- The caveat of a check. -/
def CheckProgress.caveat (p : CheckProgress) (timeout : Nat) : Option String :=
  if p.state = .timedOut then
    some s!"analysis did not settle within {timeout} ms; results may be incomplete"
  else none

namespace Host

variable {σ : Type}

/-- Opens a source file and tells how that went. -/
def openUnit (h : Host σ) (options : CheckOptions) (path : String) : StateM σ String := do
  match ← h.requestOpen path with
  | .error e => return s!"open request failed: {e.text}; continuing best effort"
  | .ok () =>
    h.pause options.openDelay
    if ← h.isOpen path then return "opened unit"
    h.pause options.openDelay
    if ← h.isOpen path then return "opened unit after retry"
    return "open not confirmed; continuing best effort"

/-- Asks for an analysis and tells what went wrong. -/
def triggerAnalysis (h : Host σ) (options : CheckOptions) (path : String) :
    StateM σ (List String) := do
  let notes := match ← h.requestAnalysis path with
    | .ok () => []
    | .error e => [s!"analysis request failed: {e.text}"]
  h.pause options.triggerDelay
  return notes

/-- Reads the diagnostics of a source file once. -/
def readOnce (h : Host σ) (path : String) : StateM σ Look := do
  match ← h.read with
  | .error _ => return .unreadable
  | .ok view =>
    match ← h.markers view path with
    | .error _ => return .unreadable
    | .ok markers => return .reading markers.length

/-- Looks at the diagnostics of a source file once. -/
def look (h : Host σ) (path : String) : StateM σ Look := do
  if (← h.indexState) = some .building then return .building
  else if !(← h.isCommitted path) then return .uncommitted
  else h.readOnce path

/-- Brings the analysis of a source file as far as it gets. -/
def analyze (h : Host σ) (options : CheckOptions) (path : String) : StateM σ CheckProgress := do
  if ← h.isOpen path then
    return {
      state := .alreadyOpen
      polls := 0
      notes := ["unit already open; harvested current analysis"] }
  else
    let opened ← h.openUnit options path
    let triggered ← h.triggerAnalysis options path
    let rounds := roundsIn options.timeout options.poll
    let look := do
      let found ← h.look path
      h.pause options.poll
      return found
    let (state, polls) ← lookUntilSettled look rounds {}
    return { state, polls, notes := opened :: triggered }

/-- What the diagnostics of a source file come to, all of it from one read. -/
def harvest (h : Host σ) (path : String) (view : IndexView) : StateM σ Harvest := do
  match ← h.markers view path with
  | .ok markers =>
    return JavaAtlas.harvest markers (view.parseErrors path) (view.unitText path)
  | .error e =>
    let found := JavaAtlas.harvest [] (view.parseErrors path) (view.unitText path)
    return { found with notes := s!"reading markers failed: {e.text}" :: found.notes }

/-- Checks the source file of the declaration for which a name stands. -/
def check (h : Host σ) (options : CheckOptions) (input : String) : Query σ CheckReport := do
  h.ready
  let view ← ExceptT.mk h.read
  let d ← ExceptT.mk (pure (view.theDeclaration input))
  let progress ← h.analyze options d.unit.path
  let view ← ExceptT.mk h.read
  let found ← h.harvest d.unit.path view
  return {
    name := d.qualname
    fileName := d.unit.name
    path := d.unit.path
    state := progress.state
    errors := found.errors
    warningCount := found.warnings
    infoCount := found.infos
    notes := progress.notes ++ found.notes
    caveat := progress.caveat options.timeout
    polls := progress.polls }

end Host

end JavaAtlas
