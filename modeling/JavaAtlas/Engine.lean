import JavaAtlas.Indexer

namespace JavaAtlas

/-! # The background worker

One worker changes the index; all others leave commands for it in a queue. Edited texts wait
beside the queue, the last one of each path, until the worker commits them. The worker does one
small step after the other, and others may leave commands and edits between any two of them.
-/

/-- What the worker is asked to do. -/
inductive Command where
  /-- Bring the index up to date; until that is done it counts as being built. -/
  | reindex
  /-- Bring the index up to date while it can be asked. -/
  | rescan
  | sync (paths : List String)
  | openUnit (path : String)
  | closeUnit (path : String)
  | analyze (path : String)
  /-- Look at the edits that wait. -/
  | edit (path : String)
  | stop
deriving DecidableEq, Inhabited, Repr

/-- An edited text that waits to be committed. -/
structure PendingEdit where
  path : String
  text : String
  /-- When it was left. -/
  queued : Nat
deriving DecidableEq, Inhabited, Repr

/-- What the worker does next. -/
inductive Phase where
  /-- It takes a command. -/
  | waiting
  /-- It builds the index. -/
  | building
  /-- It has built the index and analyzes the open source files. -/
  | built
  /-- It looks which edits are due. -/
  | handled
  /-- It commits the first of these edits. -/
  | committing (due : List PendingEdit)
  /-- It drops the edit that it has committed, unless a newer one has come. -/
  | committed (edit : PendingEdit) (due : List PendingEdit)
  | stopped
deriving DecidableEq, Inhabited, Repr

/-- The worker, what is left for it, and what it shares with others. -/
structure Engine where
  index : Index := {}
  building : Bool := false
  openUnits : List String := []
  /-- At most one edit for each path. -/
  pending : List PendingEdit := []
  queue : List Command := []
  phase : Phase := .waiting
  /-- The time in milliseconds. -/
  now : Nat := 0
  /-- How long an edit waits at least, in milliseconds. -/
  commitDelay : Nat := 0
deriving Inhabited

namespace Engine

/-! ## What others ask -/

/-- Whether the index can be asked. -/
def indexState (e : Engine) : IndexState := if e.building then .building else .ready

/-- Whether a source file is open. -/
def isOpen (e : Engine) (path : String) : Bool := e.openUnits.contains path

/-- Whether no edit of a source file waits. -/
def isCommitted (e : Engine) (path : String) : Bool := !e.pending.any (·.path == path)

/-- The open source files in ascending order. -/
def openPaths (e : Engine) : List String := e.openUnits.mergeSort fun a b => decide (a ≤ b)

/-! ## What others leave -/

/-- Leaves a command. A worker that has stopped takes none. -/
def submit (e : Engine) (c : Command) : Engine × Except Failure Unit :=
  if e.phase = .stopped then (e, .error .engineStopped)
  else ({ e with queue := e.queue ++ [c] }, .ok ())

/-- The index counts as being built from now on. -/
def markBuilding (e : Engine) : Engine := { e with building := true }

/-- Asks for the index to be built. -/
def requestReindex (e : Engine) : Engine × Except Failure Unit := e.markBuilding.submit .reindex

/-- Leaves an edited text in place of one that waits for the same path. -/
def leaveEdit (e : Engine) (path text : String) : Engine :=
  let waiting := e.pending.filter (·.path != path)
  { e with
    pending := waiting ++ [{ path, text, queued := e.now }]
    now := e.now + 1 }

/-- Leaves an edited text and lets the worker know. -/
def edit (e : Engine) (path text : String) : Engine × Except Failure Unit :=
  (e.leaveEdit path text).submit (.edit path)

/-- A worker of an empty index that is asked first of all to build it. -/
def start (commitDelay : Nat) : Engine :=
  { building := true, queue := [.reindex], commitDelay }

/-! ## What the worker does -/

/-- Analyzes a source file, if it is indexed. -/
def analyze (e : Engine) (path : String) : Engine :=
  match e.index.analyzePath path with
  | .ok (index, _) => { e with index }
  | .error _ => e

/-- Analyzes all open source files. -/
def analyzeOpen (e : Engine) : Engine := e.openUnits.foldl analyze e

/-- Builds the index, which then no longer counts as being built. Nothing else changes if the files
cannot be listed; otherwise the open source files are analyzed next. -/
def build (tree : SourceTree) (disk : Disk) (e : Engine) : Engine :=
  match e.index.reindex tree disk with
  | .ok (index, _) => { e with index, building := false, phase := .built }
  | .error _ => { e with building := false, phase := .handled }

/-- Brings the index up to date. Nothing changes if the files cannot be listed. -/
def rescan (tree : SourceTree) (disk : Disk) (e : Engine) : Engine :=
  match e.index.reindex tree disk with
  | .ok (index, _) => analyzeOpen { e with index }
  | .error _ => e

/-- Takes changed paths into the index. -/
def sync (tree : SourceTree) (disk : Disk) (paths : List String) (e : Engine) : Engine :=
  match e.index.sync tree disk paths with
  | (index, .ok stats) =>
    let e := { e with index }
    if stats.indexed > 0 ∨ stats.deleted > 0 then e.analyzeOpen else e
  | (index, .error _) => { e with index }

/-- Opens a source file, if it is indexed, and analyzes it. -/
def openUnit (e : Engine) (path : String) : Engine :=
  match e.index.file? path with
  | none => e
  | some _ =>
    let others := e.openUnits.filter (· != path)
    analyze { e with openUnits := others ++ [path] } path

/-- Handles a command, or takes it up if it is to build the index. What fails is given up. -/
def handle (tree : SourceTree) (disk : Disk) (e : Engine) : Command → Engine
  | .reindex => { e with building := true, phase := .building }
  | .rescan => e.rescan tree disk
  | .sync paths => e.sync tree disk paths
  | .openUnit path => e.openUnit path
  | .closeUnit path => { e with openUnits := e.openUnits.filter (· != path) }
  | .analyze path => if e.isCommitted path then e.analyze path else e
  | .edit _ | .stop => e

/-- The edits that have waited long enough. -/
def dueEdits (e : Engine) : List PendingEdit :=
  e.pending.filter fun p => p.queued + e.commitDelay ≤ e.now

/-- Takes an edited text into the index and analyzes it. -/
def commit (e : Engine) (p : PendingEdit) : Engine :=
  match e.index.indexText p.path p.text with
  | .ok (index, _) => analyze { e with index } p.path
  | .error _ => e

/-- Drops an edit that has been committed; one that came later for the same path stays. -/
def dropEdit (e : Engine) (p : PendingEdit) : Engine :=
  { e with pending := e.pending.filter fun q => !(q.path == p.path && q.queued == p.queued) }

/-- Takes the next command, or looks for edits if there is none. -/
def receive (tree : SourceTree) (disk : Disk) (e : Engine) : Engine :=
  match e.queue with
  | [] => if e.pending.isEmpty then e else { e with phase := .handled }
  | .stop :: rest => { e with queue := rest, phase := .stopped }
  | c :: rest => handle tree disk { e with queue := rest, phase := .handled } c

/-- The next step of the worker. -/
def step (tree : SourceTree) (disk : Disk) (e : Engine) : Engine :=
  match e.phase with
  | .waiting => e.receive tree disk
  | .building => e.build tree disk
  | .built => { e.analyzeOpen with phase := .handled }
  | .handled => { e with phase := .committing e.dueEdits }
  | .committing [] => { e with phase := .waiting }
  | .committing (p :: due) => { e.commit p with phase := .committed p due }
  | .committed p due => { e.dropEdit p with phase := .committing due }
  | .stopped => e

/-- The worker after so many steps. -/
def run (tree : SourceTree) (disk : Disk) : Nat → Engine → Engine
  | 0, e => e
  | steps + 1, e => run tree disk steps (e.step tree disk)

/-- How many edits the worker is about to commit. -/
def inHand : Phase → Nat
  | .committing due | .committed _ due => due.length + 1
  | .waiting | .building | .built | .handled | .stopped => 0

/-- The worker when it has done all that is left for it and some time has gone by. Each command
takes at most five steps, each edit two. -/
def settle (tree : SourceTree) (disk : Disk) (time : Nat) (e : Engine) : Engine :=
  let e := { e with now := e.now + time }
  e.run tree disk (5 * (e.queue.length + 2) + 2 * (e.pending.length + inHand e.phase))

end Engine

end JavaAtlas
