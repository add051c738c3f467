import JavaAtlas.Index.Supertypes

namespace JavaAtlas

/-! # References to members

A reference is found for a member if its name, kind and number of arguments fit and what it is
called on is of a type that has the member. Where that type cannot be told, the reference is still
found and marked.
-/

/-- What a reference has to do with a member. -/
inductive SiteVerdict where
  | unrelated
  | resolved
  /-- The name and the number of arguments fit, but what it is called on is not known. -/
  | unresolved
deriving DecidableEq, Inhabited, Repr

/-- A verdict for a question that has a plain answer. -/
def SiteVerdict.when (answer : Bool) : SiteVerdict := if answer then .resolved else .unrelated

/-- A reference with what its file says about names. -/
structure Candidate where
  symbol : FileReference
  package : String
  wildcards : List String
  site : ReferenceSite
deriving DecidableEq, Inhabited, Repr

/-- Whether parameters take so many arguments. -/
def takesArgs (params : List Param) (count : Int) : Bool :=
  let declared : Int := params.length
  count == declared || ((params.getLast?.map (·.varargs)).getD false && declared - 1 ≤ count)

/-- Methods of containers that give an element, whose type is the last type argument. -/
def elementAccessors : List String :=
  ["get", "getFirst", "getLast", "first", "last", "next", "previous", "peek", "peekFirst",
    "peekLast", "poll", "pollFirst", "pollLast", "pop", "remove", "removeFirst", "removeLast",
    "element", "take", "orElse", "orElseGet", "orElseThrow", "getValue", "join"]

/-- What a lambda parameter stands for: with as many type arguments as parameters the one at its
place, a single parameter the last. -/
def lambdaParamType (args : List String) (index arity : Nat) : Option String :=
  let arg :=
    if args.length = arity then args[index]?
    else if arity = 1 then args.getLast?
    else none
  arg.bind Java.boundOf?

namespace IndexView

/-! ## Following a chain -/

/-- The rows of the members of types with a full name, by kind and name, in their order. -/
def membersNamed (v : IndexView) (owner : String) (kind : MemberKind) (name : String) :
    List (MemberRow × DeclarationRow × FileRow) :=
  let rows := v.memberRows.filter fun (m, d, _) =>
    d.symbol.qualname == owner && m.symbol.kind == kind && m.symbol.name == name
  sortByKey (fun a b => decide (a ≤ b)) (·.1.symbol.range.startByte) rows

/-- The type of the first of the members that takes so many arguments and has a type. Rows are
read only up to that one. -/
def firstType (v : IndexView) (args : Option Int) :
    List (MemberRow × DeclarationRow × FileRow) → Except Failure (Option String)
  | [] => .ok none
  | (m, _, f) :: rest => do
    checkDamage [.params] m.damage
    if (args.map (takesArgs m.symbol.params)).getD true then
      match m.symbol.type with
      | some t => return v.typeTextIn t f.package f.wildcardImports
      | none => v.firstType args rest
    else v.firstType args rest

/-- The type of a field or the result of a method that a type itself declares. -/
def memberType (v : IndexView) (owner : String) : ChainStep → Except Failure (Option String)
  | .field name => v.firstType none (v.membersNamed owner .field name)
  | .call name args => v.firstType (some args) (v.membersNamed owner .method name)
  | .lambdaParam _ _ => .ok none

/-- The type that the first of the owners gives for a step. -/
def firstMemberType (v : IndexView) (step : ChainStep) :
    List String → Except Failure (Option String)
  | [] => .ok none
  | owner :: rest => do
    match ← v.memberType owner step with
    | some found => return some found
    | none => v.firstMemberType step rest

/-- A type before its supertypes, and these in the order of their names. -/
def ownersInOrder (base : String) (names : List String) : List String :=
  names.filter (· == base) ++
    sortByKey (fun a b => decide (a ≤ b)) id (names.filter (· != base))

/-- The type of what a step leads to from a value of a type. -/
def stepType (v : IndexView) (current : String) (step : ChainStep) : Search (Option String) := do
  let args := Java.typeArgs current
  match step with
  | .lambdaParam index arity => return lambdaParamType args index arity
  | _ =>
    let base := Java.erase current
    if !v.hasQualname base then
      match step with
      | .call name _ =>
        return if elementAccessors.contains name then args.getLast?.bind Java.boundOf? else none
      | _ => return none
    else
      let owners := ownersInOrder base (← v.ancestors base)
      match v.firstMemberType step owners with
      | .ok found => return found
      | .error e => throw e

/-- The type that a step leads to from the first of the types from which it leads anywhere. -/
def firstStepType (v : IndexView) (step : ChainStep) : List String → Search (Option String)
  | [] => return none
  | scope :: rest => do
    match ← v.stepType scope step with
    | some found => return some found
    | none => v.firstStepType step rest

/-- Follows steps from a value of a type that may be unknown. -/
def walkSteps (v : IndexView) : Option String → List ChainStep → Search (Option String)
  | current, [] => return current
  | none, _ :: _ => return none
  | some current, step :: rest => do v.walkSteps (← v.stepType current step) rest

/-- The type of what a chain leads to, with its type arguments. -/
def walkChain (v : IndexView) (c : Candidate) (chain : ReceiverChain) :
    Search (Option String) := do
  match chain.root with
  | .typed t => v.walkSteps (v.typeTextIn t c.package c.wildcards) chain.steps
  | .this => v.walkSteps c.symbol.callerClass chain.steps
  | .implicit =>
    match c.symbol.callerClass, chain.steps with
    | some caller, first :: rest =>
      v.walkSteps (← v.firstStepType first (v.outerChain caller)) rest
    | _, _ => return none

/-! ## Verdicts -/

/-- Whether a type is a type variable or something else that is neither indexed nor qualified. -/
def isUnknown (v : IndexView) (qualname : String) : Bool :=
  !qualname.toList.contains '.' && !v.hasQualname qualname

/-- Whether one of the types is or inherits from the owner. -/
def anyInherits (v : IndexView) (owner : String) : List String → Search Bool
  | [] => return false
  | scope :: rest => do
    if (← v.ancestors scope).contains owner then return true else v.anyInherits owner rest

/-- The verdict for a reference that is called on a value of a type. -/
def judgeTarget (v : IndexView) (owner target : String) : Search SiteVerdict := do
  if v.isUnknown target then return .unresolved
  else return .when ((← v.ancestors target).contains owner)

/-- The verdict for a reference that is called on something of a written or a followed type. -/
def judgeReceiver (v : IndexView) (owner : String) (c : Candidate) : Search SiteVerdict := do
  match c.symbol.receiverType, c.symbol.receiverChain with
  | some t, _ =>
    match v.typeIn t c.package c.wildcards with
    | some target => v.judgeTarget owner target
    | none => return .unrelated
  | none, some chain =>
    match ← v.walkChain c chain with
    | some target => v.judgeTarget owner (Java.erase target)
    | none => return .unresolved
  | none, none => return .unresolved

/-- The verdict for a reference whose name and kind fit. -/
def judge (v : IndexView) (m : Member) (c : Candidate) : Search SiteVerdict := do
  if !((c.symbol.argCount.map (takesArgs m.params)).getD true) then return .unrelated
  else if c.symbol.kind == .new then
    let created := c.symbol.receiverType.bind fun t => v.typeIn t c.package c.wildcards
    return .when (created == some m.owner)
  else
    match c.symbol.receiver, c.symbol.callerClass with
    | .implicit, some caller => return .when (← v.anyInherits m.owner (v.outerChain caller))
    | .this, some caller => return .when (← v.anyInherits m.owner [caller])
    | .super, some caller =>
      return .when (caller != m.owner && (← v.ancestors caller).contains m.owner)
    | .implicit, none | .this, none | .super, none => return .unrelated
    | .type, _ | .expr, _ => v.judgeReceiver m.owner c

/-! ## The search -/

/-- The name under which references to a member stand, and of which kinds they are. -/
def soughtAs (m : Member) : Option (String × List RefKind) :=
  match m.kind with
  | .field => none
  | .method => some (m.name, [.call, .methodRef])
  | .constructor => some (Java.simpleName m.owner, [.new])

/-- Reads the row of a reference. -/
def readReference (r : ReferenceRow) (f : FileRow) : Except Failure Candidate := do
  checkDamage [.receiverType] r.damage
  return {
    symbol := r.symbol
    package := f.package
    wildcards := f.wildcardImports
    site :=
      { id := r.id
        kind := r.symbol.kind
        path := f.path
        fileName := f.name
        line := r.symbol.line
        startByte := r.symbol.startByte
        endByte := r.symbol.endByte
        callText := r.symbol.callText
        unresolvedReceiver := false } }

/-- The order by path, then by place. -/
def siteOrder (a b : String × Int) : Bool :=
  decide (a.1 < b.1) || (a.1 == b.1 && a.2 ≤ b.2)

/-- The references whose name, kind and scope fit, by file and place. -/
def candidates (v : IndexView) (m : Member) (scope : Scope) : Except Failure (List Candidate) :=
  match soughtAs m with
  | none => .ok []
  | some (name, kinds) =>
    let rows := v.index.references.filterMap fun r => (v.index.fileOf? r.fileId).map (r, ·)
    let fitting := rows.filter fun (r, f) =>
      r.symbol.name == name && kinds.contains r.symbol.kind && scope.covers f.origin
    (sortByKey siteOrder (fun (r, f) => (f.path, r.symbol.startByte)) fitting).mapM fun (r, f) =>
      readReference r f

/-- The site of a reference, if it has to do with the member. -/
def siteOf (c : Candidate) : SiteVerdict → Option ReferenceSite
  | .unrelated => none
  | .resolved => some c.site
  | .unresolved => some { c.site with unresolvedReceiver := true }

/-- Judges one reference after the other. Those that cannot be judged are left out. -/
def judgeAll (v : IndexView) (m : Member) : List Candidate → SupertypeCache → List ReferenceSite
  | [], _ => []
  | c :: rest, cache =>
    let (verdict, cache) := (v.judge m c).run.run cache
    let site := match verdict with
      | .ok verdict => siteOf c verdict
      | .error _ => none
    site.toList ++ v.judgeAll m rest cache

/-- The references to a member, by file and place. -/
def references (v : IndexView) (m : Member) (scope : Scope) :
    Except Failure (List ReferenceSite) := do
  return v.judgeAll m (← v.candidates m scope) []

/-! ## What is around a reference -/

/-- Whether a range holds a site. -/
def holdsSite (r : SourceRange) (s : ReferenceSite) : Bool :=
  r.startByte ≤ s.startByte && s.endByte ≤ r.endByte

/-- The length of a range in bytes. -/
def rangeLength (r : SourceRange) : Int := r.endByte - r.startByte

/-- The smallest method or constructor around a site. -/
def enclosingMember (v : IndexView) (s : ReferenceSite) : Except Failure (Option Member) := do
  let rows := v.memberRows.filter fun (m, _, f) =>
    f.path == s.path && m.symbol.kind != .field && holdsSite m.symbol.range s
  match (sortByKey (fun a b => decide (a ≤ b)) (rangeLength ·.1.symbol.range) rows).head? with
  | some row => return some (← readMember row)
  | none => return none

/-- The smallest declaration around a site. -/
def enclosingDeclaration (v : IndexView) (s : ReferenceSite) :
    Except Failure (Option Declaration) := do
  let rows := v.declarationRows.filter fun (d, f) =>
    f.path == s.path && holdsSite d.symbol.range s
  match (sortByKey (fun a b => decide (a ≤ b)) (rangeLength ·.1.symbol.range) rows).head? with
  | some row => return some (← v.readDeclaration row)
  | none => return none

end IndexView

end JavaAtlas
