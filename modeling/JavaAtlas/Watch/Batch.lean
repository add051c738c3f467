import JavaAtlas.Engine

namespace JavaAtlas.Watch

/-! # Changes that are collected

Changed paths are collected until no more have come for a while, and then handed on together. If
too many come, or some may have been missed, all files are looked at instead.
-/

/-- By what components are ordered: a root comes first, then single dots, then double dots, and
last names in the order of their texts. -/
def componentKey : Path.Component → String
  | .root => "0"
  | .current => "1"
  | .parent => "2"
  | .normal name => "3" ++ name

/-- By what paths are ordered: by their components, one after the other. -/
def pathKey (path : String) : List String := (Path.components path).map componentKey

/-- Puts a path in its place among others, unless it is there. -/
def insertPath (path : String) : List String → List String
  | [] => [path]
  | p :: rest =>
    if pathKey path = pathKey p then p :: rest
    else if pathKey path < pathKey p then path :: p :: rest
    else p :: insertPath path rest

/-- The changes that have not been handed on. -/
structure Batch where
  /-- In the order of their components, each once. -/
  paths : List String := []
  lastChange : Option Nat := none
  /-- All files have to be looked at. -/
  rescan : Bool := false
  /-- So many paths are too many. -/
  limit : Nat
  limit_pos : 0 < limit

namespace Batch

/-- No changes yet. -/
def ofLimit (limit : Nat) : Batch := { limit := max limit 1, limit_pos := by omega }

/-- Drops the single paths, since all files are looked at. -/
def overflow (b : Batch) : Batch := { b with paths := [], rescan := true }

/-- Takes in a changed path. -/
def add (b : Batch) (now : Nat) (path : String) : Batch :=
  if b.rescan then b
  else
    let paths := insertPath path b.paths
    let b := { b with paths, lastChange := some now }
    if b.limit ≤ paths.length then b.overflow else b

/-- Whether there has been a change and none since for some time. -/
def isQuiet (b : Batch) (now quiet : Nat) : Bool :=
  match b.lastChange with
  | some time => time + quiet ≤ now
  | none => false

/-- What is to be handed on now, if anything, and what is left. -/
def due (b : Batch) (now quiet : Nat) : Batch × Option Command :=
  if b.rescan then ({ b with rescan := false, lastChange := none }, some .rescan)
  else if b.isQuiet now quiet && !b.paths.isEmpty then
    ({ b with paths := [], lastChange := none }, some (.sync b.paths))
  else (b, none)

end Batch

end JavaAtlas.Watch
