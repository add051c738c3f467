import JavaAtlas.Index.References
import JavaAtlas.Report.Text

namespace JavaAtlas

/-! # Callers of a method

All declarations that a name may stand for are searched for methods of a name, and the call sites
of each of these are told as lines of text. What cannot be searched or told is noted; it never
stops the rest.
-/

/-- Whether a member is asked for by a name: a method by its own, a constructor by that of its
type. -/
def isTarget (d : Declaration) (method : String) (m : Member) : Bool :=
  match m.kind with
  | .method => m.name == method
  | .constructor => d.name == method
  | .field => false

namespace IndexView

/-- The call site at a reference. -/
def callSite (v : IndexView) (s : ReferenceSite) : Except Failure CallSite := do
  match ← v.enclosingDeclaration s with
  | none => throw .noEnclosingType
  | some caller =>
    let member ← v.enclosingMember s
    return {
      caller := caller.qualname
      member := member.map (·.name)
      file := s.fileName
      line := s.line
      callText := s.callText
      unresolvedReceiver := s.unresolvedReceiver }

/-- The line that tells of a reference. -/
def siteLine (v : IndexView) (s : ReferenceSite) : String :=
  match v.callSite s with
  | .ok site => Report.callSiteLine site
  | .error e => s!"could not describe reference at {s.fileName}:{s.line}: {e.text}"

/-- The lines that tell of the callers of a member, each once. -/
def callerLines (v : IndexView) (m : Member) : List String :=
  match v.references m .project with
  | .ok sites => (sites.map v.siteLine).eraseDups
  | .error e => [s!"reference search failed: {e.text}"]

/-- The callers of the methods of a name in one declaration. -/
def classCallers (v : IndexView) (method : String) (d : Declaration) : ClassCallers :=
  match v.members d with
  | .ok members =>
    let targets := members.filter (isTarget d method)
    { name := d.qualname
      methodFound := !targets.isEmpty
      overloads := targets.map fun m =>
        { signature := signature typeNames m, callers := v.callerLines m } }
  | .error e =>
    { name := d.qualname, note := some s!"could not search {d.qualname}: {e.text}" }

/-- The callers of the methods of a name in all declarations that `input` may stand for. -/
def callers (v : IndexView) (input method : String) : Except QueryError CallReport := do
  let found ← (v.resolveAll input).mapError .internal
  if found.isEmpty then throw (.notFound input)
  let classes := found.map (v.classCallers method)
  return {
    input
    method
    matched := found.map (·.qualname)
    classes
    foundAnyMethod := classes.any fun c => c.methodFound || c.note.isSome }

end IndexView

end JavaAtlas
