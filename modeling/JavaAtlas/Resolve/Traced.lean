import JavaAtlas.Resolve

namespace JavaAtlas

/-! # A list of declarations as an index

Look-ups are logged, and those that are said to fail do so. This shows which look-ups a
resolution makes and how it bears their failing.
-/

/-- The kinds of look-ups. -/
inductive Lookup where
  | qualified
  | simple
  | names
  | units
  | inUnit
deriving DecidableEq, Inhabited, Repr

/-- The name of a kind of look-up. -/
def Lookup.name : Lookup → String
  | .qualified => "qualified"
  | .simple => "simple"
  | .names => "names"
  | .units => "units"
  | .inUnit => "in_unit"

/-- Declarations, and what goes wrong with looking them up. -/
structure ListedIndex where
  declarations : List Declaration
  /-- Full names that are not found by their simple names. -/
  hidden : List String := []
  /-- Paths of files that cannot be read. -/
  brokenUnits : List String := []
  /-- Kinds of look-ups that fail, by name. -/
  failing : List String := []
deriving Inhabited

/-- Look-ups that may fail, with a log. -/
abbrev Traced := ExceptT String (StateM (List String))

/-- Logs a look-up, and fails if it is to. -/
def ListedIndex.log (index : ListedIndex) (kind : Lookup) (argument : String) : Traced Unit := do
  modify (· ++ [s!"{kind.name} {argument}"])
  if index.failing.contains kind.name then throw s!"{kind.name} failed"

/-- The texts in order, each once. -/
def sortedTexts (xs : List String) : List String :=
  (xs.mergeSort (· ≤ ·)).foldr (fun x rest => if rest.head? = some x then rest else x :: rest) []

/-- The index of a list. -/
def ListedIndex.symbols (index : ListedIndex) : SymbolIndex Traced where
  qualified name scope := do
    index.log .qualified name
    return index.declarations.find? fun d => d.qualname == name && scope.covers d.origin
  simple name scope := do
    index.log .simple name
    return index.declarations.filter fun d =>
      d.name == name && scope.covers d.origin && !index.hidden.contains d.qualname
  names := do
    index.log .names ""
    return sortedTexts (index.declarations.map (·.name))
  units name := do
    index.log .units name
    let named := index.declarations.filter (·.unit.name == name)
    return (sortedTexts (named.map (·.unit.path))).filterMap fun path =>
      (named.find? (·.unit.path == path)).map (·.unit)
  inUnit unit := do
    index.log .inUnit unit.path
    if index.brokenUnits.contains unit.path then throw "unreadable"
    return index.declarations.filter (·.unit.path == unit.path)

/-- Resolves a name; gives the result and the log. -/
def ListedIndex.resolve (index : ListedIndex) (input : String) :
    Except String Resolution × List String :=
  (JavaAtlas.resolve String index.symbols input).run.run []

end JavaAtlas
