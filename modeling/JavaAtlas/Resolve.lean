import JavaAtlas.Text.Blank
import JavaAtlas.Text.Lowercase
import JavaAtlas.Model.Symbols

namespace JavaAtlas

/-! # What a name stands for

A name is tried as a full name, as a simple name, as the name of a source file and, if all that
fails, as a part of a name in any case. The first of these that finds something decides.
-/

/-- Endings of source files. -/
def sourceEndings : List String := [".java", ".kt"]

/-- A name as it is looked up. -/
structure NameQuery where
  /-- The name without white space around it and without the ending of a source file. -/
  base : String
  /-- It had such an ending. -/
  hadSuffix : Bool
deriving DecidableEq, Inhabited, Repr

namespace NameQuery

/-- What is left of a text in front of an ending; none if it does not end so, or nothing is
left. -/
def withoutEnding? (text ending : String) : Option String :=
  if text.endsWith ending ∧ text ≠ ending then
    some (String.ofList (text.toList.take (text.length - ending.length)))
  else none

/-- Reads a name. -/
def parse (input : String) : NameQuery :=
  let trimmed := trim input
  match sourceEndings.findSome? (withoutEnding? trimmed) with
  | some base => { base, hadSuffix := true }
  | none => { base := trimmed, hadSuffix := false }

/-- Whether it can only be a full name. -/
def isQualified (q : NameQuery) : Bool := q.base.toList.contains '.'

end NameQuery

/-- What can be looked up in an index of declarations. Every look-up may fail. -/
structure SymbolIndex (m : Type → Type) where
  /-- The declaration with a full name. -/
  qualified : String → Scope → m (Option Declaration)
  /-- The declarations with a simple name. -/
  simple : String → Scope → m (List Declaration)
  /-- All simple names. -/
  names : m (List String)
  /-- The source files with a name. -/
  units : String → m (List SourceUnit)
  /-- The declarations of a source file. -/
  inUnit : SourceUnit → m (List Declaration)

/-- Puts a declaration in its place among those sorted by full name, unless there is one of that
name. -/
def insertByName (d : Declaration) : List Declaration → List Declaration
  | [] => [d]
  | e :: rest =>
    if d.qualname = e.qualname then e :: rest
    else if d.qualname < e.qualname then d :: e :: rest
    else e :: insertByName d rest

/-- Declarations sorted by full name, of each name the first. -/
def sortByName (ds : List Declaration) : List Declaration :=
  ds.foldl (fun sorted d => insertByName d sorted) []

/-- Whether `part` occurs in a text. -/
def occursIn (part : List Char) : List Char → Bool
  | [] => part.isEmpty
  | c :: rest => part.isPrefixOf (c :: rest) || occursIn part rest

section

variable {m : Type → Type} {ε : Type} [Monad m] [MonadExceptOf ε m]

/-- The result of a look-up, nothing if it fails. -/
def orNothing {α : Type} (ε : Type) [MonadExceptOf ε m] (lookup : m (List α)) : m (List α) :=
  tryCatchThe ε lookup fun _ => pure []

/-- The declarations of one name in source files called after it. What cannot be looked up
contributes nothing. -/
def inUnitsNamed (ε : Type) [MonadExceptOf ε m] (index : SymbolIndex m) (name : String) :
    m (List Declaration) := do
  let found ← sourceEndings.mapM fun ending => do
    let units ← orNothing ε (index.units (name ++ ending))
    let decls ← units.mapM fun unit => orNothing ε (index.inUnit unit)
    return decls.flatten.filter (·.name == name)
  return found.flatten

/-- The declarations of the project of whose simple name `name` is a part, whatever the case. -/
def byPartOfName (index : SymbolIndex m) (name : String) : m (List Declaration) := do
  let part := (toLowercase name).toList
  let names ← index.names
  let found ← (names.filter fun n => occursIn part (toLowercase n).toList).mapM fun n =>
    index.simple n .project
  return found.flatten

/-- All declarations for which a name may stand, sorted by full name. -/
def resolveAll (ε : Type) [MonadExceptOf ε m] (index : SymbolIndex m) (input : String) :
    m (List Declaration) := do
  let query := NameQuery.parse input
  if query.base = "" then return []
  let exact ← if query.isQualified then index.qualified query.base .all else pure none
  if let some d := exact then return [d]
  let simple ← index.simple query.base .all
  if !simple.isEmpty then return sortByName simple
  let named ← inUnitsNamed ε index query.base
  if !named.isEmpty then return sortByName named
  return sortByName (← byPartOfName index query.base)

/-- What a name stands for. -/
def Resolution.ofList : List Declaration → Resolution
  | [] => .notFound
  | [d] => .single d
  | ds => .ambiguous (ds.map (·.qualname))

/-- Resolves a name. -/
def resolve (ε : Type) [MonadExceptOf ε m] (index : SymbolIndex m) (input : String) :
    m Resolution := do
  return .ofList (← resolveAll ε index input)

end

end JavaAtlas
