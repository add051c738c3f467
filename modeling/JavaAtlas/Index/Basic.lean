import JavaAtlas.Failure
import JavaAtlas.Model.Reports
import JavaAtlas.Model.Symbols
import JavaAtlas.Path

namespace JavaAtlas

/-! # The index

The index keeps rows: of files, and of the declarations, members, references and diagnostics that
belong to a file. Rows stand in the order in which they were added. A row may be damaged; then
every query that has to read it fails.
-/

/-- What tells whether a file has changed since it was indexed. -/
inductive Digest where
  | ofContent (bytes : ByteArray)
  /-- It is to be indexed again in any case. -/
  | cleared
deriving Inhabited

/-- Digests are equal if they are of equal bytes, or both cleared. -/
instance : DecidableEq Digest
  | .ofContent a, .ofContent b =>
    match ByteArray.instDecidableEq a b with
    | isTrue h => isTrue (congrArg Digest.ofContent h)
    | isFalse h => isFalse fun e => h (Digest.ofContent.inj e)
  | .cleared, .cleared => isTrue rfl
  | .ofContent _, .cleared => isFalse nofun
  | .cleared, .ofContent _ => isFalse nofun

/-- A file. -/
structure FileRow where
  id : Nat
  path : String
  name : String
  origin : Origin
  digest : Digest
  size : Nat
  package : String
  wildcardImports : List String
  content : String
deriving DecidableEq, Inhabited

/-- A declaration of a file. -/
structure DeclarationRow where
  id : Nat
  fileId : Nat
  package : String
  symbol : FileDeclaration
  damage : List Damage := []
deriving DecidableEq, Inhabited, Repr

/-- A member of a declaration. -/
structure MemberRow where
  id : Nat
  fileId : Nat
  declarationId : Nat
  symbol : FileMember
  damage : List Damage := []
deriving DecidableEq, Inhabited, Repr

/-- A reference in a file. -/
structure ReferenceRow where
  id : Nat
  fileId : Nat
  symbol : FileReference
  damage : List Damage := []
deriving DecidableEq, Inhabited, Repr

/-- A diagnostic of a file. -/
structure MarkerRow where
  id : Nat
  fileId : Nat
  marker : Marker
deriving DecidableEq, Inhabited, Repr

/-- The version of the form in which the index is kept. -/
def schemaVersion : Int := 2

/-- The rows of an index, and numbers by their names. -/
structure Index where
  files : List FileRow := []
  declarations : List DeclarationRow := []
  members : List MemberRow := []
  references : List ReferenceRow := []
  markers : List MarkerRow := []
  facts : List (String × Int) := [("schema_version", schemaVersion)]
deriving DecidableEq, Inhabited

/-- A file that is about to be indexed. -/
structure FileInput where
  path : String
  origin : Origin
  digest : Digest
  size : Nat
  content : String

namespace Index

/-- An identity that is not among those given. -/
def freshId (ids : List Nat) : Nat := ids.foldl max 0 + 1

/-- Values with identities from `start` on. -/
def numbered {α β : Type} (start : Nat) (make : Nat → α → β) (values : List α) : List β :=
  values.zipIdx.map fun (value, i) => make (start + i) value

/-- The row of the file at a path. -/
def file? (ix : Index) (path : String) : Option FileRow := ix.files.find? (·.path == path)

/-- The row of the file with an identity. -/
def fileOf? (ix : Index) (id : Nat) : Option FileRow := ix.files.find? (·.id == id)

/-! ## Changes -/

/-- The identity of the file at a path: its own if it has one, else a fresh one. -/
def fileIdFor (ix : Index) (path : String) : Nat :=
  match ix.file? path with
  | some row => row.id
  | none => freshId (ix.files.map (·.id))

/-- The row of a file. -/
def FileRow.ofInput (id : Nat) (file : FileInput) (symbols : FileSymbols) : FileRow :=
  { id
    path := file.path
    name := Path.fileName file.path
    origin := file.origin
    digest := file.digest
    size := file.size
    package := symbols.package
    wildcardImports := symbols.wildcardImports
    content := file.content }

/-- The rows of files with one of them put in place of that at its path, or at the end. -/
def putFile (row : FileRow) (files : List FileRow) : List FileRow :=
  if files.any (·.path == row.path) then
    files.map fun f => if f.path == row.path then row else f
  else files ++ [row]

/-- The index without the rows that belong to a file, apart from the row of the file itself. -/
def withoutSymbols (ix : Index) (fileId : Nat) : Index :=
  { ix with
    declarations := ix.declarations.filter (·.fileId != fileId)
    members := ix.members.filter (·.fileId != fileId)
    references := ix.references.filter (·.fileId != fileId)
    markers := ix.markers.filter (·.fileId != fileId) }

/-- The index with the rows of a file added. -/
def addSymbols (ix : Index) (fileId : Nat) (symbols : FileSymbols) : Index :=
  let firstDeclaration := freshId (ix.declarations.map (·.id))
  { ix with
    declarations := ix.declarations ++ numbered firstDeclaration
      (fun id symbol => { id, fileId, symbol, package := symbols.package }) symbols.declarations
    members := ix.members ++ numbered (freshId (ix.members.map (·.id)))
      (fun id symbol => { id, fileId, symbol, declarationId := firstDeclaration + symbol.declIndex })
      symbols.members
    references := ix.references ++ numbered (freshId (ix.references.map (·.id)))
      (fun id symbol => { id, fileId, symbol }) symbols.references }

/-- How much of a file goes into the index. -/
def countsOf (symbols : FileSymbols) : FileCounts :=
  { declarations := symbols.declarations.length
    members := symbols.members.length
    references := symbols.references.length }

/-- Replaces all that is known of a file. Its diagnostics are dropped, because they are about
what it was before. Nothing changes if a member has no declaration. -/
def replaceFile (ix : Index) (file : FileInput) (symbols : FileSymbols) :
    Except Failure (Index × FileCounts) :=
  match symbols.members.find? fun m => symbols.declarations.length ≤ m.declIndex with
  | some m => .error (.orphanMember m.name)
  | none =>
    let fileId := ix.fileIdFor file.path
    let ix := { ix with files := putFile (FileRow.ofInput fileId file symbols) ix.files }
    .ok ((ix.withoutSymbols fileId).addSymbols fileId symbols, countsOf symbols)

/-- Drops a file with all that belongs to it, and tells whether there was one. -/
def deleteFile (ix : Index) (path : String) : Index × Bool :=
  match ix.file? path with
  | none => (ix, false)
  | some row =>
    ({ ix.withoutSymbols row.id with files := ix.files.filter (·.path != path) }, true)

/-- Replaces the diagnostics of a file. -/
def replaceMarkers (ix : Index) (path : String) (markers : List Marker) : Except Failure Index :=
  match ix.file? path with
  | none => .error (.noIndexedFile path)
  | some row =>
    let others := ix.markers.filter (·.fileId != row.id)
    let added := numbered (freshId (others.map (·.id)))
      (fun id marker => { id, fileId := row.id, marker }) markers
    .ok { ix with markers := others ++ added }

/-! ## Numbers by name -/

/-- The number under a name. -/
def fact? (ix : Index) (key : String) : Option Int := ix.facts.lookup key

/-- Sets the number under a name. -/
def setFact (ix : Index) (key : String) (value : Int) : Index :=
  { ix with facts := (key, value) :: ix.facts.filter (·.1 != key) }

/-- The name under which the time of the last change is kept. -/
def lastIndexedKey : String := "last_indexed"

/-- Notes that files have been indexed. Only that it happened can be seen. -/
def noteIndexed (ix : Index) : Index := ix.setFact lastIndexedKey 0

/-- Whether files have been indexed. -/
def isIndexed (ix : Index) : Bool := (ix.fact? lastIndexedKey).isSome

/-! ## Opening -/

/-- Brings an index of the first version to the present form: every file is to be indexed again,
since the references lack what the first version did not keep. -/
def upgrade (ix : Index) : Index :=
  let files := ix.files.map fun f => { f with digest := .cleared }
  Index.setFact { ix with files } "schema_version" schemaVersion

/-- Opens an index as it is stored. -/
def opened (ix : Index) : Except Failure Index :=
  match ix.fact? "schema_version" with
  | none => .ok (ix.setFact "schema_version" schemaVersion)
  | some version =>
    if version > schemaVersion then .error (.newerSchema version)
    else if version = 1 then .ok ix.upgrade
    else .ok ix

/-- The index as the first version would have kept it: without the ways to receivers. -/
def asFirstVersion (ix : Index) : Index :=
  let references := ix.references.map fun r =>
    { r with symbol := { r.symbol with receiverChain := none } }
  Index.setFact { ix with references } "schema_version" 1

/-! ## Damage -/

/-- Damages the rows of a name. -/
def spoil (ix : Index) (damage : Damage) (name : String) : Index :=
  match damage with
  | .superclass | .kind =>
    { ix with declarations := ix.declarations.map fun d =>
        if d.symbol.qualname == name then { d with damage := damage :: d.damage } else d }
  | .params =>
    { ix with members := ix.members.map fun m =>
        if m.symbol.name == name then { m with damage := damage :: m.damage } else m }
  | .receiverType =>
    { ix with references := ix.references.map fun r =>
        if r.symbol.name == name then { r with damage := damage :: r.damage } else r }

end Index

end JavaAtlas
