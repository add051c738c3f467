import JavaAtlas.Check
import JavaAtlas.Classpath

namespace JavaAtlas

/-! # A host that answers by a script

The analysis of this host does nothing on its own. What it answers is written down beforehand, and
what it is asked for is kept.
-/

/-- What a read of diagnostics gives. -/
inductive ScriptedReading where
  | markers (markers : List Marker)
  | failure (text : String)
deriving DecidableEq, Inhabited, Repr

/-- What the analysis will answer. -/
structure Script where
  /-- The states of the index, one for each question; the last one stays. -/
  states : List IndexState := []
  isOpen : Bool := false
  /-- How many questions after a request to open a file still find it closed; none if all do. -/
  openAfter : Option Nat := some 0
  openFailure : Option String := none
  analysisFailure : Option String := none
  /-- How many questions find an edit that is not in the index. -/
  uncommitted : Nat := 0
  /-- What is read, one for each read; the last one stays. If nothing is written down the index
  is read. -/
  readings : List ScriptedReading := []
  /-- A request for an analysis drops the file from the index. -/
  vanishes : Bool := false
deriving DecidableEq, Inhabited, Repr

/-- The world of a scripted host. -/
structure ScriptedWorld where
  /-- What is left of the script. -/
  script : Script
  /-- What reads show; none if no project is open. -/
  view : Option IndexView
  classpath : Classpath
  openRequested : Bool := false
  log : List String := []
  markerReads : Nat := 0

/-- The next of some answers, and those after it. The last answer stays. -/
def nextAnswer {α : Type} (default : α) : List α → α × List α
  | [] => (default, [])
  | [last] => (last, [last])
  | first :: rest => (first, rest)

namespace ScriptedWorld

/-- The state of the index. -/
def indexState : StateM ScriptedWorld (Option IndexState) := do
  let w ← get
  let (state, states) := nextAnswer .ready w.script.states
  set { w with script := { w.script with states } }
  return if w.view.isSome then some state else none

/-- Whether the file is open. -/
def isOpen : StateM ScriptedWorld Bool := do
  let w ← get
  if w.script.isOpen then return true
  else if !w.openRequested then return false
  else
    match w.script.openAfter with
    | none => return false
    | some 0 => return true
    | some (n + 1) =>
      set { w with script := { w.script with openAfter := some n } }
      return false

/-- The outcome of a request. -/
def outcome : Option String → Except Failure Unit
  | none => .ok ()
  | some text => .error (.because text)

/-- Asks for a file to be opened. -/
def requestOpen (path : String) : StateM ScriptedWorld (Except Failure Unit) := do
  let w ← get
  set { w with log := w.log ++ [s!"open {path}"], openRequested := true }
  return outcome w.script.openFailure

/-- Asks for an analysis. -/
def requestAnalysis (path : String) : StateM ScriptedWorld (Except Failure Unit) := do
  let w ← get
  let view := w.view.map fun v =>
    if w.script.vanishes then { v with index := (v.index.deleteFile path).1 } else v
  set { w with log := w.log ++ [s!"analyze {path}"], view }
  return outcome w.script.analysisFailure

/-- Whether the index has the last edit. -/
def isCommitted : StateM ScriptedWorld Bool := do
  let w ← get
  match w.script.uncommitted with
  | 0 => return true
  | n + 1 =>
    set { w with script := { w.script with uncommitted := n } }
    return false

/-- Reads diagnostics. -/
def markers (view : IndexView) (path : String) :
    StateM ScriptedWorld (Except Failure (List Marker)) := do
  let w ← get
  let fromIndex := ScriptedReading.markers (view.markers path)
  let (reading, readings) := nextAnswer fromIndex w.script.readings
  set { w with script := { w.script with readings }, markerReads := w.markerReads + 1 }
  match reading with
  | .markers markers => return .ok markers
  | .failure text => return .error (.because text)

/-- The host. -/
def host : Host ScriptedWorld where
  indexState := indexState
  read := do
    match (← get).view with
    | some view => return .ok view
    | none => return .error .noProjectOpen
  artifact name := do
    let w ← get
    match w.view with
    | some view => return w.classpath.load view.disk name
    | none => return .ok none
  isOpen _ := isOpen
  requestOpen := requestOpen
  requestAnalysis := requestAnalysis
  isCommitted _ := isCommitted
  markers := markers
  pause _ := return ()

end ScriptedWorld

end JavaAtlas
