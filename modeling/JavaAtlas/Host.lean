import JavaAtlas.Callers
import JavaAtlas.Check.Harvest
import JavaAtlas.Check.Settling

namespace JavaAtlas

/-! # Queries to an open project

Queries are asked of a host: of the state of the index, of reads of it, and of the analysis that
runs beside it. The host may change between two questions; all that one read shows belongs
together.
-/

/-- What queries ask, in a world of states `σ`. -/
structure Host (σ : Type) where
  /-- Whether the index can be asked; none if no project is open. -/
  indexState : StateM σ (Option IndexState)
  /-- What a read of the index shows. -/
  read : StateM σ (Except QueryError IndexView)
  /-- The compiled class with a full name. -/
  artifact : String → StateM σ (Except Failure (Option ArtifactInfo))
  /-- Whether a source file is open in the analysis. -/
  isOpen : String → StateM σ Bool
  requestOpen : String → StateM σ (Except Failure Unit)
  requestAnalysis : String → StateM σ (Except Failure Unit)
  /-- Whether the index has the last edit of a source file. -/
  isCommitted : String → StateM σ Bool
  /-- The diagnostics of a source file, as a read shows them. -/
  markers : IndexView → String → StateM σ (Except Failure (List Marker))
  /-- Lets some milliseconds go by. -/
  pause : Nat → StateM σ Unit

/-- A query, which has an answer or fails. -/
abbrev Query (σ : Type) := ExceptT QueryError (StateM σ)

/-- The declaration for which a name stands, if there is just one. -/
def IndexView.theDeclaration (v : IndexView) (input : String) : Except QueryError Declaration := do
  match ← (v.resolve input).mapError .internal with
  | .single d => return d
  | .ambiguous names => throw (.ambiguous input names)
  | .notFound => throw (.notFound input)

/-- The description of the declaration for which a name stands; none if there is none. -/
def IndexView.describeNamed (v : IndexView) (input : String) :
    Except QueryError (Option TypeInfo) := do
  match ← (v.resolve input).mapError .internal with
  | .single d => return some (← (v.describe d).mapError .internal)
  | .ambiguous names => throw (.ambiguous input names)
  | .notFound => return none

namespace Host

variable {σ : Type}

/-- Fails unless a project is open and its index can be asked. -/
def ready (h : Host σ) : Query σ Unit := do
  match ← h.indexState with
  | none => throw .noProjectOpen
  | some .building => throw .indexBuilding
  | some .ready => return ()

/-- Describes the type for which a name stands: one in the index or, for a full name, a compiled
one. -/
def describe (h : Host σ) (input : String) : Query σ TypeInfo := do
  h.ready
  let view ← ExceptT.mk h.read
  match ← ExceptT.mk (pure (view.describeNamed input)) with
  | some info => return info
  | none =>
    let query := NameQuery.parse input
    if !query.isQualified then throw (.notFound input)
    match ← h.artifact query.base with
    | .ok (some artifact) => return artifact.describe
    | .ok none => throw (.notFound input)
    | .error e => throw (.internal e)

/-- The callers of the methods of a name. -/
def callers (h : Host σ) (input method : String) : Query σ CallReport := do
  h.ready
  let view ← ExceptT.mk h.read
  ExceptT.mk (pure (view.callers input method))

end Host

end JavaAtlas
