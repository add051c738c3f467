import JavaAtlas.Describe
import JavaAtlas.Disk
import JavaAtlas.Index.Basic
import JavaAtlas.Java.Source
import JavaAtlas.Resolve

namespace JavaAtlas

/-! # Looking at an index

A view is one state of the index together with the disk, which tells of every file whether it is
still there. All questions that are asked of one view are answered from the same rows.
-/

/-- One state of the index, seen from the root of its project. -/
structure IndexView where
  index : Index
  disk : Disk
  root : String

/-- Puts values in the order of their keys; of equal keys the one that was added first comes
first. -/
def sortByKey {α β : Type} (le : β → β → Bool) (key : α → β) (values : List α) : List α :=
  values.mergeSort fun a b => le (key a) (key b)

/-- Fails on the first of the kinds of damage that a row has. -/
def checkDamage (kinds found : List Damage) : Except Failure Unit :=
  match kinds.find? found.contains with
  | some d => .error (.damaged d)
  | none => .ok ()

namespace IndexView

/-- Whether the file stored under a path is on disk. -/
def isOnDisk (v : IndexView) (path : String) : Bool := v.disk.has (Path.join v.root path)

/-! ## Declarations -/

/-- The rows of declarations with those of their files. -/
def declarationRows (v : IndexView) : List (DeclarationRow × FileRow) :=
  v.index.declarations.filterMap fun d => (v.index.fileOf? d.fileId).map (d, ·)

/-- Reads the row of a declaration. -/
def readDeclaration (v : IndexView) : DeclarationRow × FileRow → Except Failure Declaration
  | (d, f) => do
    checkDamage [.kind, .superclass] d.damage
    return {
      id := d.id
      qualname := d.symbol.qualname
      name := d.symbol.name
      kind := d.symbol.kind
      modifiers := d.symbol.modifiers
      package := d.package
      superclass := d.symbol.superclass
      interfaces := d.symbol.interfaces
      annotations := d.symbol.annotations
      outer := d.symbol.outer
      unit :=
        { path := f.path
          name := f.name
          onDisk := v.isOnDisk f.path }
      origin := f.origin
      startLine := d.symbol.range.startLine
      endLine := d.symbol.range.endLine }

/-- The order by full name, then by path. -/
def nameOrder (a b : String × String) : Bool :=
  decide (a.1 < b.1) || (a.1 == b.1 && decide (a.2 ≤ b.2))

/-- The rows of a scope that pass a test. -/
def declarationRowsWhere (v : IndexView) (scope : Scope) (test : DeclarationRow → Bool) :
    List (DeclarationRow × FileRow) :=
  v.declarationRows.filter fun (d, f) => scope.covers f.origin && test d

/-- The declaration with a full name; of several that whose file comes first. -/
def qualified (v : IndexView) (qualname : String) (scope : Scope) :
    Except Failure (Option Declaration) := do
  let rows := v.declarationRowsWhere scope (·.symbol.qualname == qualname)
  match (sortByKey (fun a b => decide (a ≤ b)) (·.2.path) rows).head? with
  | some row => return some (← v.readDeclaration row)
  | none => return none

/-- The declarations with a simple name. -/
def simple (v : IndexView) (name : String) (scope : Scope) : Except Failure (List Declaration) :=
  let rows := v.declarationRowsWhere scope (·.symbol.name == name)
  (sortByKey nameOrder (fun (d, f) => (d.symbol.qualname, f.path)) rows).mapM v.readDeclaration

/-- All declarations. -/
def declarations (v : IndexView) (scope : Scope) : Except Failure (List Declaration) :=
  let rows := v.declarationRowsWhere scope fun _ => true
  (sortByKey nameOrder (fun (d, f) => (d.symbol.qualname, f.path)) rows).mapM v.readDeclaration

/-- The simple names of all declarations. -/
def simpleNames (v : IndexView) : List String :=
  (sortByKey (fun a b => decide (a ≤ b)) id
    (v.declarationRows.map (·.1.symbol.name))).eraseDups

/-- The source files with a name. -/
def unitsNamed (v : IndexView) (name : String) : List SourceUnit :=
  let rows := v.index.files.filter (·.name == name)
  (sortByKey (fun a b => decide (a ≤ b)) (·.path) rows).map fun f =>
    { path := f.path
      name := f.name
      onDisk := v.isOnDisk f.path }

/-- The declarations of a source file in their order. -/
def inUnit (v : IndexView) (path : String) : Except Failure (List Declaration) :=
  let rows := v.declarationRows.filter fun (_, f) => f.path == path
  (sortByKey (fun a b => decide (a ≤ b)) (·.1.symbol.range.startByte) rows).mapM v.readDeclaration

/-- The types nested right in a declaration. -/
def nested (v : IndexView) (d : Declaration) : Except Failure (List Declaration) :=
  let rows := v.declarationRows.filter fun (n, f) =>
    n.symbol.outer == some d.qualname && f.path == d.unit.path
  (sortByKey (fun a b => decide (a ≤ b)) (·.1.symbol.range.startByte) rows).mapM v.readDeclaration

/-- The look-ups by which names are resolved. -/
def symbols (v : IndexView) : SymbolIndex (Except Failure) where
  qualified := v.qualified
  simple := v.simple
  names := .ok v.simpleNames
  units name := .ok (v.unitsNamed name)
  inUnit unit := v.inUnit unit.path

/-- What a name stands for. -/
def resolve (v : IndexView) (input : String) : Except Failure Resolution :=
  JavaAtlas.resolve Failure v.symbols input

/-- All declarations that a name may stand for. -/
def resolveAll (v : IndexView) (input : String) : Except Failure (List Declaration) :=
  JavaAtlas.resolveAll Failure v.symbols input

/-- The declarations of a scope, in short. -/
def listDeclarations (v : IndexView) (scope : Scope) : Except Failure (List DeclarationSummary) := do
  return (← v.declarations scope).map fun d =>
    { name := d.qualname
      package := d.package
      kind := d.kind
      file := d.unit.path }

/-! ## Members -/

/-- The rows of members with those of their declarations and files. -/
def memberRows (v : IndexView) : List (MemberRow × DeclarationRow × FileRow) :=
  v.index.members.filterMap fun m => do
    let d ← v.index.declarations.find? (·.id == m.declarationId)
    let f ← v.index.fileOf? m.fileId
    return (m, d, f)

/-- Reads the row of a member. -/
def readMember : MemberRow × DeclarationRow × FileRow → Except Failure Member
  | (m, d, f) => do
    checkDamage [.params] m.damage
    return {
      id := m.id
      kind := m.symbol.kind
      name := m.symbol.name
      owner := d.symbol.qualname
      type := m.symbol.type
      modifiers := m.symbol.modifiers
      params := m.symbol.params
      throws := m.symbol.throws
      annotations := m.symbol.annotations
      hasBody := m.symbol.hasBody
      hasInitializer := m.symbol.hasInitializer
      fileName := f.name
      startLine := m.symbol.range.startLine
      endLine := m.symbol.range.endLine }

/-- The members of a declaration in their order. -/
def members (v : IndexView) (d : Declaration) : Except Failure (List Member) :=
  let rows := v.memberRows.filter fun (m, _, _) => m.declarationId == d.id
  (sortByKey (fun a b => decide (a ≤ b)) (·.1.symbol.range.startByte) rows).mapM readMember

/-! ## Texts and diagnostics -/

/-- The text of a source file as it was indexed. -/
def unitText (v : IndexView) (path : String) : Except Failure String :=
  match v.index.file? path with
  | some f => .ok f.content
  | none => .error (.notIndexed path)

/-- The order of diagnostics by their places. -/
def markerOrder (a b : Marker) : Bool :=
  a.line < b.line || (a.line == b.line && a.startByte ≤ b.startByte)

/-- The diagnostics of a source file by their places. -/
def markers (v : IndexView) (path : String) : List Marker :=
  match v.index.file? path with
  | some f =>
    let own := v.index.markers.filter (·.fileId == f.id)
    (own.map (·.marker)).mergeSort markerOrder
  | none => []

/-- The syntax errors in the text of a source file. -/
def parseErrors (v : IndexView) (path : String) : Except Failure (List Marker) := do
  return Java.syntaxErrorsOf (← v.unitText path)

/-! ## Types -/

/-- How types are named in the index. -/
def typeNames : TypeNames where
  canonical t :=
    match t.resolved with
    | some name => .ok name
    | none => if Java.isPrimitive t.text then .ok t.text else .error (.unresolvedType t.text)
  presentable t :=
    let text := trim t.text
    if text.isEmpty then .error .emptyType else .ok (Java.presentableType text)

/-! ## Counts -/

/-- The number of files of an origin. -/
def countFiles (v : IndexView) (origin : Origin) : Nat := v.index.files.countP (·.origin == origin)

/-- The number of declarations in files of an origin. -/
def countDeclarations (v : IndexView) (origin : Origin) : Nat :=
  v.declarationRows.countP (·.2.origin == origin)

/-- The description of a declaration. -/
def describe (v : IndexView) (d : Declaration) : Except Failure TypeInfo := do
  let members ← v.members d
  let nested ← v.nested d
  return JavaAtlas.describe typeNames d members nested

end IndexView

end JavaAtlas
