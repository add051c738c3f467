import JavaAtlas.Watch.Batch
import JavaAtlas.Watch.Filter

namespace JavaAtlas

/-! # Watching for changes

A watcher hands the changes of source files on to the worker. Where changes cannot be watched, it
has all files looked at from time to time instead, if that is allowed.
-/

namespace Watch

/-- Whether to watch. -/
inductive WatchMode where
  | off
  /-- Watch, or look at all files from time to time. -/
  | auto
  | on
deriving DecidableEq, Inhabited, Repr

/-- The modes in the order in which they are told. -/
def WatchMode.all : List WatchMode := [.off, .auto, .on]

/-- The written name. -/
def WatchMode.name : WatchMode → String
  | .off => "off"
  | .auto => "auto"
  | .on => "on"

/-- What is said about a mode. -/
def WatchMode.note : WatchMode → String
  | .off => "Never watch"
  | .auto => "Watch, falling back to periodic rescans when the platform watcher fails"
  | .on => "Watch or fail to start"

/-- Reads a written name. -/
def WatchMode.parse? (text : String) : Option WatchMode := WatchMode.all.find? (·.name == text)

/-- How to watch. Times are in milliseconds. -/
structure WatchConfig where
  mode : WatchMode := .auto
  /-- How long no change must have come. -/
  debounce : Nat := 300
  /-- The time between two looks at all files. -/
  fallbackScan : Nat := 300000
  maxBatch : Nat := 1000
  noIgnore : Bool := false
deriving DecidableEq, Inhabited, Repr

/-- Settings with a debounce time, which is never zero. -/
def WatchConfig.ofDebounce (mode : WatchMode) (debounce : Nat) (noIgnore : Bool) : WatchConfig :=
  { mode, debounce := max debounce 1, noIgnore }

/-- Where a watcher learns of changes. -/
inductive Source where
  | events
  /-- It does not; all files are looked at, last at this time. -/
  | polling (lastScan : Nat)
deriving DecidableEq, Inhabited, Repr

/-- What a watcher learns. -/
inductive Event where
  /-- These paths have changed. -/
  | changed (paths : List String)
  /-- Some changes have been missed. -/
  | missed
  /-- There will be no more events. -/
  | lost
deriving DecidableEq, Inhabited, Repr

/-- A watcher. -/
structure Watcher where
  config : WatchConfig
  filter : Filter
  source : Source
  batch : Batch

/-- How watching starts: not at all, or with a watcher. It fails if there is nothing to watch and
nothing else is allowed. -/
def start (disk : Disk) (root : String) (config : WatchConfig) (now : Nat) :
    Except Failure (Option Watcher) :=
  let root := match disk.canonical root with
    | .ok direct => direct
    | .error _ => root
  let watcher (source : Source) : Watcher :=
    { config
      filter := .load disk root config.noIgnore
      source
      batch := .ofLimit config.maxBatch }
  if config.mode = .off then .ok none
  else if disk.has root then .ok (some (watcher .events))
  else if config.mode = .on then .error (.because "No path was found.")
  else .ok (some (watcher (.polling now)))

namespace Watcher

/-- Takes in what has been learnt; none if nothing has come for a while. -/
def receive (w : Watcher) (disk : Disk) (now : Nat) : Option Event → Watcher
  | none =>
    match w.source with
    | .events => w
    | .polling lastScan =>
      if lastScan + w.config.fallbackScan ≤ now then
        { w with source := .polling now, batch := w.batch.overflow }
      else w
  | some (.changed paths) =>
    let counting := paths.filter (w.filter.passes disk)
    { w with batch := counting.foldl (fun b path => b.add now path) w.batch }
  | some .missed => { w with batch := w.batch.overflow }
  | some .lost => { w with source := .polling now, batch := w.batch.overflow }

/-- One round: takes in what has been learnt, and hands on what is due. -/
def round (w : Watcher) (disk : Disk) (now : Nat) (event : Option Event) :
    Watcher × Option Command :=
  let w := w.receive disk now event
  let (batch, command) := w.batch.due now w.config.debounce
  ({ w with batch }, command)

/-- Rounds one after the other, each at its time and with the disk as it is then; what is handed
on in them. -/
def run (w : Watcher) : List (Nat × Disk × Option Event) → List Command
  | [] => []
  | (now, disk, event) :: rest =>
    let (w, command) := w.round disk now event
    command.toList ++ w.run rest

end Watcher

end Watch

end JavaAtlas
