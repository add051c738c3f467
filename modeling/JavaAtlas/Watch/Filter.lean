import JavaAtlas.Scan

namespace JavaAtlas.Watch

/-! # Which changes count

The rules for files that are left out are read once, when watching starts.
-/

/-- The rules by which changes are left out. -/
structure Filter where
  root : String
  /-- Rules for files that are left out count. -/
  enabled : Bool
  /-- Those of shallower directories come first. -/
  sets : List Ignore.RuleSet

namespace Filter

/-- The name of the files that hold rules. -/
def rulesName : String := ".gitignore"

/-- The files with rules below a root that are reached from it, with their directories. -/
def ruleFiles (disk : Disk) (root : String) : List (String × String) :=
  (Scan.filesBelow disk false root).filterMap fun (names, _) =>
    let path := Scan.pathBelow root names
    if Path.lastName? path = some rulesName then
      (Path.parent? path).map (·, path)
    else none

/-- The number of components of a path. -/
def depth (path : String) : Nat := (Path.components path).length

/-- Reads the rules below a root. -/
def load (disk : Disk) (root : String) (noIgnore : Bool) : Filter :=
  if noIgnore then { root, enabled := false, sets := [] }
  else
    let files := (root, Path.join root ".git/info/exclude") :: ruleFiles disk root
    let sorted := files.mergeSort fun a b => decide (depth a.1 ≤ depth b.1)
    { root
      enabled := true
      sets := sorted.map fun (directory, file) => .read disk directory file }

/-- What the rules say in the end: each set may overturn those before it. -/
def verdict (sets : List Ignore.RuleSet) (path : String) (isDirectory : Bool) : Ignore.Verdict :=
  sets.foldl (fun verdict set => (set.verdictUpward? path isDirectory).getD verdict) .kept

/-- Whether changes of a path are left out. -/
def ignores (f : Filter) (disk : Disk) (path : String) : Bool :=
  match Path.below? f.root path with
  | none => true
  | some names =>
    names.any (fun c => Scan.internalNames.contains c.text) ||
      (f.enabled && verdict f.sets path (disk.isDirectory path) == .ignored)

/-- Whether changes of a path are handed on. -/
def passes (f : Filter) (disk : Disk) (path : String) : Bool :=
  Path.isSource path && !f.ignores disk path

end Filter

end JavaAtlas.Watch
