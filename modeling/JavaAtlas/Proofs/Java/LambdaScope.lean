import Mathlib.Logic.Relation
import JavaAtlas.Proofs.Java.CallSites

namespace JavaAtlas.Java

/-! # What the parameters of a lambda stand for

In the body of a lambda its parameters hide all other variables of their names. What is recorded of
a call on such a parameter must come from the lambda alone: the type that it writes for the
parameter, or the object that it is handed to. Whether it does depends on whether the lambda enters
its parameters when the walk goes into it; otherwise the name is looked up further out.

* `CodePlace`, `CodePlace.Enters`: the places in a piece of code with the lambdas around them;
* `mem_references_iff`: the references are those made at these places, by induction on the tree;
* `receiver_identifier`: what is recorded of a call on a name;
* `comesFrom_iff`: and of a call on a parameter of a lambda, by what the lambda has entered;
* `lambda_parameter_receiver_iff`: both for the body of a method.
-/

/-! ## Places in code -/

/-- A lambda with the nodes around it, nearest first. -/
structure LambdaAt where
  node : Tree
  around : List Tree

/-- A node in a piece of code with the nodes around it, nearest first. -/
structure CodePlace where
  node : Tree
  around : List Tree := []
  /-- The lambdas in whose bodies it is, innermost first. -/
  lambdas : List LambdaAt := []

namespace CodePlace

/-- A node right below one that is not a lambda. -/
def child (p : CodePlace) (c : Tree) : CodePlace :=
  { p with
    node := c
    around := p.node :: p.around }

/-- The body of a lambda. -/
def body (p : CodePlace) (c : Tree) : CodePlace :=
  { node := c
    around := p.node :: p.around
    lambdas := ⟨p.node, p.around⟩ :: p.lambdas }

/-- One step down. -/
inductive Enters : CodePlace → CodePlace → Prop where
  | child {p : CodePlace} {c : Tree} (code : p.node.kind ≠ "lambda_expression")
      (mem : c ∈ p.node.children) (named : c.info.named = true) : Enters p (p.child c)
  | body {p : CodePlace} {c : Tree} (lambda : p.node.kind = "lambda_expression")
      (body : p.node.field? "body" = some c) : Enters p (p.body c)

/-- Any number of steps down. -/
def Reaches : CodePlace → CodePlace → Prop := Relation.ReflTransGen Enters

end CodePlace

/-- The variables in the bodies of lambdas, given those around them. -/
def Env.inLambdas (env : Env) (vars : Variables) : List LambdaAt → Variables
  | [] => vars
  | l :: outer =>
    let before := env.inLambdas vars outer
    before.inLambda (env.lambdaParams before l.around l.node)

section References

variable {env : Env} {vars : Variables} {around : List Tree} {t : Tree} {r : FileReference}

/-- The references in a lambda are those in its body, among its parameters. -/
theorem references_lambda (h : t.kind = "lambda_expression") : env.references vars around t =
    ((t.field? "body").map
      (env.references (vars.inLambda (env.lambdaParams vars around t)) (t :: around))).getD [] := by
  obtain ⟨info, children⟩ := t
  have hkind : info.kind = "lambda_expression" := h
  rw [Env.references, if_pos (beq_iff_eq.mpr hkind), referencesOfBody_eq]
  rfl

/-- The references in a node that is no lambda are its own, and those of its named children. -/
theorem references_code (h : t.kind ≠ "lambda_expression") : env.references vars around t =
    (env.reference? vars around t).toList ++
      t.children.flatMap fun c =>
        if c.info.named then env.references vars (t :: around) c else [] := by
  obtain ⟨info, children⟩ := t
  have hkind : ¬ (info.kind == "lambda_expression") = true := fun heq => h (beq_iff_eq.mp heq)
  rw [Env.references, if_neg hkind, referencesOfAll_eq]
  rfl

/-- A lambda makes no reference itself. -/
theorem reference?_lambda (h : t.kind = "lambda_expression") :
    env.reference? vars around t = none := by
  unfold Env.reference?
  rw [h]
  rfl

/-- The references at a place are those that are made at the places which it leads to. -/
theorem mem_references_iff (p : CodePlace) :
    r ∈ env.references (env.inLambdas vars p.lambdas) p.around p.node ↔
      ∃ q, p.Reaches q ∧
        env.reference? (env.inLambdas vars q.lambdas) q.around q.node = some r := by
  obtain ⟨t, around, lambdas⟩ := p
  induction t using Tree.induction generalizing around lambdas with
  | h t ih =>
    dsimp only at ih ⊢
    by_cases hkind : t.kind = "lambda_expression"
    · rw [references_lambda hkind]
      constructor
      · intro hr
        cases hbody : t.field? "body" with
        | none =>
          rw [hbody] at hr
          cases hr
        | some c =>
          rw [hbody] at hr
          obtain ⟨q, hq, hmade⟩ := (ih c (Tree.mem_children_of_field? hbody) (t :: around)
            (⟨t, around⟩ :: lambdas)).mp hr
          exact ⟨q, .head (.body hkind hbody) hq, hmade⟩
      · rintro ⟨q, hq, hmade⟩
        -- a way is over here, or goes one step down first
        rcases Relation.ReflTransGen.cases_head_iff.mp hq with rfl | ⟨p, hstep, hq⟩
        · rw [reference?_lambda hkind] at hmade
          cases hmade
        · cases hstep with
          | child code => exact absurd hkind code
          | @body c _ hbody =>
            rw [show t.field? "body" = some c from hbody]
            exact (ih c (Tree.mem_children_of_field? hbody) (t :: around)
              (⟨t, around⟩ :: lambdas)).mpr ⟨q, hq, hmade⟩
    · rw [references_code hkind, List.mem_append, Option.mem_toList, List.mem_flatMap]
      constructor
      · rintro (hmade | ⟨c, hc, hr⟩)
        · exact ⟨_, .refl, hmade⟩
        · split at hr
          next hnamed =>
            obtain ⟨q, hq, hmade⟩ := (ih c hc (t :: around) lambdas).mp hr
            exact ⟨q, .head (.child hkind hc hnamed) hq, hmade⟩
          next => cases hr
      · rintro ⟨q, hq, hmade⟩
        rcases Relation.ReflTransGen.cases_head_iff.mp hq with rfl | ⟨p, hstep, hq⟩
        · exact .inl hmade
        · cases hstep with
          | @child c _ hc hnamed =>
            refine .inr ⟨c, hc, ?_⟩
            rw [if_pos hnamed]
            exact (ih c hc (t :: around) lambdas).mpr ⟨q, hq, hmade⟩
          | body hlambda => exact absurd hlambda hkind

end References

/-! ## Calls on a name -/

/-- What a call or a method reference is made on. -/
def receiverNode? (t : Tree) : Option Tree :=
  match t.kind with
  | "method_invocation" => t.field? "object"
  | "method_reference" => t.firstNamed?
  | _ => none

section Receiver

variable {env : Env} {vars : Variables} {around : List Tree} {t object : Tree}
  {r : FileReference}

/-- A call and a method reference record what they are made on alike, but what stands in front of
`::new` is always the name of a type. -/
theorem receiver_of_reference (hobject : receiverNode? t = some object)
    (hr : env.reference? vars around t = some r) :
    (r.receiver, r.receiverType, r.receiverChain) =
      if r.kind = .new then (.type, some (env.typeRef object), none)
      else env.receiver vars object := by
  unfold receiverNode? at hobject
  split at hobject
  next hcall =>
    unfold Env.reference? at hr
    rw [hcall] at hr
    obtain ⟨name, -, hr⟩ := Option.bind_eq_some_iff.mp hr
    rw [hobject] at hr
    cases hr
    rfl
  next hmethod =>
    unfold Env.reference? at hr
    rw [hmethod] at hr
    obtain ⟨target, htarget, hr⟩ := Option.bind_eq_some_iff.mp hr
    -- a method reference is made on its first part
    rw [hobject, Option.some.injEq] at htarget
    obtain ⟨last, -, hr⟩ := Option.bind_eq_some_iff.mp hr
    rw [htarget]
    dsimp only at hr
    split at hr
    next =>
      cases hr
      rfl
    next =>
      split at hr
      next =>
        cases hr
        rfl
      next => cases hr
  next => cases hobject

/-- What a name is as a receiver is told by its text. -/
theorem receiverOf_identifier (h : object.kind = "identifier") :
    env.receiverOf vars object = env.receiverNamed vars (object.text env.source) := by
  rw [Env.receiverOf, h]
  rfl

/-- The chain of a name is told by its text. -/
theorem chainOf_identifier (h : object.kind = "identifier") :
    env.chainOf vars object = some (env.chainNamed vars (object.text env.source)) := by
  rw [Env.chainOf, h]
  rfl

/-- What a name is, used as a receiver: a parameter of a lambda around, a variable, a type, or
something that is inherited. -/
theorem receiver_identifier (h : object.kind = "identifier") {x : String}
    (hx : object.text env.source = x) :
    env.receiver vars object =
      match vars.lambdaParam? x with
      | some chain => (.expr, none, some chain)
      | none =>
        match env.variableType? vars x with
        | some type => (.expr, some type, none)
        | none =>
          if startsUppercase x then (.type, some (env.typeNamed x), none)
          else (.expr, none, some { root := .implicit, steps := [.field x] }) := by
  unfold Env.receiver
  rw [receiverOf_identifier h, chainOf_identifier h, hx]
  unfold Env.receiverNamed Env.chainNamed
  cases vars.lambdaParam? x with
  | some chain => rfl
  | none =>
    cases env.variableType? vars x with
    | some type => rfl
    | none =>
      dsimp only
      cases startsUppercase x with
      | true => rfl
      | false => rfl

end Receiver

/-! ## Parameters of lambdas -/

/-- The names of the parameters of a lambda, in their order. -/
def Env.lambdaNames (env : Env) (lambda : Tree) : List String :=
  match lambda.field? "parameters" with
  | some list =>
    if list.kind == "formal_parameters" then (env.parameters list).map (·.name)
    else env.inferredNames list
  | none => []

/-- The types that a lambda writes for its parameters; the first of a name counts. -/
def Env.writtenTypes (env : Env) (lambda : Tree) : List (String × TypeRef) :=
  match lambda.field? "parameters" with
  | some list =>
    if list.kind == "formal_parameters" then
      ((env.parameters list).map fun p => (p.name, p.type)).reverse
    else []
  | none => []

/-- The chain of the object that a lambda is handed to, if it is handed to one that has a chain. -/
def Env.handedTo? (env : Env) (vars : Variables) (l : LambdaAt) : Option ReceiverChain :=
  (argumentOf? l.around).bind (env.chainOf vars)

section Lookup

variable {env : Env} {vars : Variables} {l : LambdaAt} {x : String}

/-- A name without an entry is not found. -/
theorem lookup_eq_none_of_not_mem {α : Type} {entries : List (String × α)}
    (h : x ∉ entries.map (·.1)) : entries.lookup x = none := by
  rw [List.lookup_eq_none_iff]
  intro entry hentry
  exact bne_iff_ne.mpr fun heq => h (heq ▸ List.mem_map_of_mem hentry)

/-- Changing the values of entries changes what is found. -/
theorem lookup_map_value {α β : Type} (f : α → β) (entries : List (String × α)) :
    (entries.map fun entry => (entry.1, f entry.2)).lookup x = (entries.lookup x).map f := by
  induction entries with
  | nil => rfl
  | cons entry entries ih =>
    rw [List.map_cons, List.lookup_cons, List.lookup_cons, ih]
    cases x == entry.1 with
    | true => rfl
    | false => rfl

/-- The entries for parameters with written types. -/
def writtenEntries (types : List (String × TypeRef)) : List (String × ReceiverChain) :=
  types.map fun entry => (entry.1, { root := .typed entry.2 })

/-- A parameter stands for the type that is written for it. -/
theorem lookup_writtenEntries (types : List (String × TypeRef)) :
    (writtenEntries types).lookup x = (types.lookup x).map fun type => { root := .typed type } :=
  lookup_map_value (fun type => ({ root := .typed type } : ReceiverChain)) types

/-- The entries for parameters without types, if the lambda is handed to an object with a chain. -/
def inferredEntries (base : ReceiverChain) (names : List String) : List (String × ReceiverChain) :=
  (names.zipIdx.map fun (name, i) => (name, base.andThen (.lambdaParam i names.length))).reverse

/-- A parameter without a type stands for what its place gives. -/
theorem exists_lookup_inferredEntries {base : ReceiverChain} {names : List String} (h : x ∈ names) :
    ∃ i, names[i]? = some x ∧
      (inferredEntries base names).lookup x =
        some (base.andThen (.lambdaParam i names.length)) := by
  cases hlookup : (inferredEntries base names).lookup x with
  | none =>
    obtain ⟨i, hi⟩ := List.mem_iff_getElem?.mp h
    have hentry : (x, base.andThen (.lambdaParam i names.length)) ∈ inferredEntries base names :=
      List.mem_reverse.mpr (List.mem_map.mpr ⟨(x, i), List.mem_zipIdx_iff_getElem?.mpr hi, rfl⟩)
    have hne := List.lookup_eq_none_iff.mp hlookup _ hentry
    exact absurd rfl (bne_iff_ne.mp hne)
  | some chain =>
    -- of two parameters with one name the last counts, so only some place is known
    obtain ⟨before, after, hsplit, -⟩ := List.lookup_eq_some_iff.mp hlookup
    have hentry : (x, chain) ∈ inferredEntries base names := by
      rw [hsplit]
      exact List.mem_append_right _ List.mem_cons_self
    obtain ⟨⟨name, i⟩, hname, heq⟩ := List.mem_map.mp (List.mem_reverse.mp hentry)
    cases heq
    exact ⟨i, List.mem_zipIdx_iff_getElem?.mp hname, rfl⟩

/-- No other names are entered without types. -/
theorem lookup_inferredEntries_eq_none {base : ReceiverChain} {names : List String}
    (h : x ∉ names) : (inferredEntries base names).lookup x = none := by
  refine lookup_eq_none_of_not_mem fun hmem => h ?_
  rw [inferredEntries, List.map_reverse, List.map_map, List.mem_reverse] at hmem
  obtain ⟨⟨name, i⟩, hname, rfl⟩ := List.mem_map.mp hmem
  exact List.mem_of_getElem? (List.mem_zipIdx_iff_getElem?.mp hname)

/-- A lambda enters its parameters with the types that it writes for them, or as what the object
gives that it is handed to, or not at all. -/
inductive EntersAs (env : Env) (vars : Variables) (l : LambdaAt) : Prop where
  | written (names : ∀ x, x ∈ env.lambdaNames l.node ↔ x ∈ (env.writtenTypes l.node).map (·.1))
      (entries : env.lambdaParams vars l.around l.node = writtenEntries (env.writtenTypes l.node))
  | handed {base : ReceiverChain} (untyped : env.writtenTypes l.node = [])
      (handed : env.handedTo? vars l = some base)
      (entries : env.lambdaParams vars l.around l.node =
        inferredEntries base (env.lambdaNames l.node))
  | nothing (untyped : env.writtenTypes l.node = []) (handed : env.handedTo? vars l = none)
      (entries : env.lambdaParams vars l.around l.node = [])

/-- There are no other ways for a lambda to enter its parameters. -/
theorem entersAs (env : Env) (vars : Variables) (l : LambdaAt) : EntersAs env vars l := by
  cases hlist : l.node.field? "parameters" with
  | none =>
    refine .written ?_ ?_
    · simp [Env.lambdaNames, Env.writtenTypes, hlist]
    · simp [Env.lambdaParams, Env.writtenTypes, writtenEntries, hlist]
  | some list =>
    by_cases hkind : list.kind = "formal_parameters"
    · refine .written ?_ ?_
      · simp [Env.lambdaNames, Env.writtenTypes, hlist, hkind]
      · simp [Env.lambdaParams, Env.writtenTypes, writtenEntries, hlist, hkind]
    · have hformal : ¬ (list.kind == "formal_parameters") = true := by simpa using hkind
      -- no types are written, so it depends on the object
      have huntyped : env.writtenTypes l.node = [] := by
        simp only [Env.writtenTypes, hlist, if_neg hformal]
      have hnames : env.lambdaNames l.node = env.inferredNames list := by
        simp only [Env.lambdaNames, hlist, if_neg hformal]
      cases hbase : env.handedTo? vars l with
      | none =>
        refine .nothing huntyped hbase ?_
        unfold Env.handedTo? at hbase
        simp only [Env.lambdaParams, hlist, if_neg hformal, hbase]
      | some base =>
        refine .handed huntyped hbase ?_
        unfold Env.handedTo? at hbase
        simp only [Env.lambdaParams, hlist, if_neg hformal, hbase, hnames]
        rfl

/-- Where a lambda writes a type for a parameter, that is what it enters. -/
theorem lookup_lambdaParams_of_written {type : TypeRef}
    (h : (env.writtenTypes l.node).lookup x = some type) :
    (env.lambdaParams vars l.around l.node).lookup x = some { root := .typed type } := by
  cases entersAs env vars l with
  | written _ hentries => rw [hentries, lookup_writtenEntries, h, Option.map_some]
  | handed huntyped => simp [huntyped] at h
  | nothing huntyped => simp [huntyped] at h

/-- Where a lambda is handed to an object, it enters what that gives. -/
theorem lookup_lambdaParams_of_handed (h : (env.writtenTypes l.node).lookup x = none)
    (hx : x ∈ env.lambdaNames l.node) {base : ReceiverChain}
    (hbase : env.handedTo? vars l = some base) :
    ∃ i, (env.lambdaNames l.node)[i]? = some x ∧
      (env.lambdaParams vars l.around l.node).lookup x =
        some (base.andThen (.lambdaParam i (env.lambdaNames l.node).length)) := by
  cases entersAs env vars l with
  | written hnames _ =>
    obtain ⟨entry, hentry, rfl⟩ := List.mem_map.mp ((hnames x).mp hx)
    exact absurd rfl (bne_iff_ne.mp (List.lookup_eq_none_iff.mp h entry hentry))
  | handed _ hhanded hentries =>
    rw [hbase, Option.some.injEq] at hhanded
    rw [hentries, hhanded]
    exact exists_lookup_inferredEntries hx
  | nothing _ hhanded =>
    rw [hbase] at hhanded
    cases hhanded

/-- Where a lambda says nothing of a parameter, it enters nothing. -/
theorem lookup_lambdaParams_of_unhanded (h : (env.writtenTypes l.node).lookup x = none)
    (hbase : env.handedTo? vars l = none) :
    (env.lambdaParams vars l.around l.node).lookup x = none := by
  cases entersAs env vars l with
  | written _ hentries => rw [hentries, lookup_writtenEntries, h, Option.map_none]
  | handed _ hhanded =>
    rw [hbase] at hhanded
    cases hhanded
  | nothing _ _ hentries => rw [hentries, List.lookup_nil]

/-- A lambda enters no other names than those of its parameters. -/
theorem lookup_lambdaParams_of_not_mem (hx : x ∉ env.lambdaNames l.node) :
    (env.lambdaParams vars l.around l.node).lookup x = none := by
  cases entersAs env vars l with
  | written hnames hentries =>
    rw [hentries, lookup_writtenEntries, Option.map_eq_none_iff]
    exact lookup_eq_none_of_not_mem fun hmem => hx ((hnames x).mpr hmem)
  | handed _ _ hentries =>
    rw [hentries]
    exact lookup_inferredEntries_eq_none hx
  | nothing _ _ hentries => rw [hentries, List.lookup_nil]

/-- The innermost lambda is asked first. -/
theorem lambdaParam?_inLambdas_cons {outer : List LambdaAt} :
    (env.inLambdas vars (l :: outer)).lambdaParam? x =
      ((env.lambdaParams (env.inLambdas vars outer) l.around l.node).lookup x).or
        ((env.inLambdas vars outer).lambdaParam? x) := by
  unfold Variables.lambdaParam?
  rw [Env.inLambdas, Variables.inLambda, List.findSome?_cons]
  cases (env.lambdaParams (env.inLambdas vars outer) l.around l.node).lookup x with
  | some chain => rfl
  | none => rfl

/-- Lambdas without such a parameter do not count. -/
theorem lambdaParam?_inLambdas_append {inner rest : List LambdaAt}
    (h : ∀ k ∈ inner, x ∉ env.lambdaNames k.node) :
    (env.inLambdas vars (inner ++ rest)).lambdaParam? x =
      (env.inLambdas vars rest).lambdaParam? x := by
  induction inner with
  | nil => rfl
  | cons k inner ih =>
    obtain ⟨hk, hinner⟩ := List.forall_mem_cons.mp h
    rw [List.cons_append, lambdaParam?_inLambdas_cons, lookup_lambdaParams_of_not_mem hk,
      Option.none_or]
    exact ih hinner

/-- Lambdas leave the variables of the method as they are. -/
@[simp]
theorem locals_inLambdas (env : Env) (vars : Variables) (ls : List LambdaAt) :
    (env.inLambdas vars ls).locals = vars.locals := by
  induction ls with
  | nil => rfl
  | cons l ls ih => exact ih

/-- Lambdas leave the types of variables as they are. -/
@[simp]
theorem variableType?_inLambdas (env : Env) (vars : Variables) (ls : List LambdaAt) (x : String) :
    env.variableType? (env.inLambdas vars ls) x = env.variableType? vars x := by
  unfold Env.variableType?
  rw [locals_inLambdas]

end Lookup

/-! ## Where the receiver comes from -/

/-- What is recorded of a call on a parameter of a lambda comes from the lambda: it is not the type
of a variable of the same name, and the chain begins with the type written for the parameter, if
that is not `var`, or leads from the object that the lambda is handed to to the parameter. -/
structure ComesFrom (env : Env) (vars : Variables) (l : LambdaAt) (x : String)
    (r : FileReference) : Prop where
  type : ∀ type, env.variableType? vars x = some type → r.receiverType ≠ some type
  chain : r.receiverChain = none ∨
    (∃ type, (env.writtenTypes l.node).lookup x = some type ∧ type.text ≠ "var" ∧
      r.receiverChain = some { root := .typed type }) ∨
    ∃ base i, env.handedTo? vars l = some base ∧ (env.lambdaNames l.node)[i]? = some x ∧
      r.receiverChain =
        some (base.andThen (.lambdaParam i (env.lambdaNames l.node).length))

/-- A lambda tells what its parameter is, or there is nothing else that the name could be but a
type. -/
inductive Told (env : Env) (vars : Variables) (l : LambdaAt) (x : String) : Prop where
  | written {type : TypeRef} (written : (env.writtenTypes l.node).lookup x = some type)
      (told : type.text ≠ "var")
  | handed {base : ReceiverChain} (untyped : (env.writtenTypes l.node).lookup x = none)
      (handed : env.handedTo? vars l = some base)
  | alone (untyped : (env.writtenTypes l.node).lookup x = none)
      (unhanded : env.handedTo? vars l = none) (unbound : vars.lambdaParam? x = none)
      (undeclared : env.variableType? vars x = none) (named : startsUppercase x = true)

section ComesFrom

variable {env : Env} {vars : Variables} {l : LambdaAt} {x : String} {r : FileReference}
  {type : TypeRef} {base : ReceiverChain}

/-- A chain with a step is not a type alone. -/
theorem andThen_ne_typed (base : ReceiverChain) (step : ChainStep) (type : TypeRef) :
    base.andThen step ≠ { root := .typed type } := by
  intro heq
  have hsteps : base.steps ++ [step] = [] := congrArg (·.steps) heq
  simp at hsteps

/-- With a written type the parameter is told unless the type is `var`. -/
theorem comesFrom_iff_of_written (hwritten : (env.writtenTypes l.node).lookup x = some type)
    (htype : r.receiverType = none) (hchain : r.receiverChain = some { root := .typed type }) :
    ComesFrom env vars l x r ↔ Told env vars l x := by
  constructor
  · rintro ⟨-, hnone | ⟨type', htype', htold, -⟩ | ⟨base, i, -, -, hbase⟩⟩
    · rw [hchain] at hnone
      cases hnone
    · exact .written htype' htold
    · -- a chain of one value is none that goes on from an object
      rw [hchain, Option.some.injEq] at hbase
      exact absurd hbase.symm (andThen_ne_typed base _ type)
  · intro htold
    cases htold with
    | written hlookup htold =>
      rw [hwritten, Option.some.injEq] at hlookup
      refine ⟨fun _ _ => by simp [htype], .inr (.inl ⟨type, hwritten, ?_, hchain⟩)⟩
      rw [hlookup]
      exact htold
    | handed huntyped => simp [hwritten] at huntyped
    | alone huntyped => simp [hwritten] at huntyped

/-- A parameter that the object gives is told, and comes from the lambda. -/
theorem comesFrom_iff_of_handed (huntyped : (env.writtenTypes l.node).lookup x = none)
    (hbase : env.handedTo? vars l = some base) {i : Nat}
    (hi : (env.lambdaNames l.node)[i]? = some x) (htype : r.receiverType = none)
    (hchain : r.receiverChain =
      some (base.andThen (.lambdaParam i (env.lambdaNames l.node).length))) :
    ComesFrom env vars l x r ↔ Told env vars l x :=
  iff_of_true ⟨fun _ _ => by simp [htype], .inr (.inr ⟨base, i, hbase, hi, hchain⟩)⟩
    (.handed huntyped hbase)

/-- If a lambda says nothing of its parameter, only no chain at all comes from it. -/
theorem comesFrom_iff_of_unhanded (huntyped : (env.writtenTypes l.node).lookup x = none)
    (hbase : env.handedTo? vars l = none) :
    ComesFrom env vars l x r ↔ r.receiverChain = none ∧
      ∀ type, env.variableType? vars x = some type → r.receiverType ≠ some type := by
  constructor
  · rintro ⟨htype, hnone | ⟨type, hwritten, -⟩ | ⟨base, i, hhanded, -⟩⟩
    · exact ⟨hnone, htype⟩
    · simp [huntyped] at hwritten
    · simp [hbase] at hhanded
  · rintro ⟨hnone, htype⟩
    exact ⟨htype, .inl hnone⟩

/-- Without a type and an object, a parameter is told only if it looks like a type and is nothing
else. -/
theorem told_iff_of_unhanded (huntyped : (env.writtenTypes l.node).lookup x = none)
    (hbase : env.handedTo? vars l = none) :
    Told env vars l x ↔ vars.lambdaParam? x = none ∧ env.variableType? vars x = none ∧
      startsUppercase x = true := by
  constructor
  · intro htold
    cases htold with
    | written hwritten => simp [huntyped] at hwritten
    | handed _ hhanded => simp [hbase] at hhanded
    | alone _ _ hunbound hundeclared hnamed => exact ⟨hunbound, hundeclared, hnamed⟩
  · rintro ⟨hunbound, hundeclared, hnamed⟩
    exact .alone huntyped hbase hunbound hundeclared hnamed

/-- A call on a parameter of a lambda is recorded as one that comes from the lambda exactly if the
lambda tells what the parameter is. -/
theorem comesFrom_iff {inner outer : List LambdaAt} {object : Tree}
    (hkind : object.kind = "identifier") (hx : object.text env.source = x)
    (hinner : ∀ k ∈ inner, x ∉ env.lambdaNames k.node) (hbound : x ∈ env.lambdaNames l.node)
    (hr : (r.receiver, r.receiverType, r.receiverChain) =
      env.receiver (env.inLambdas vars (inner ++ l :: outer)) object) :
    ComesFrom env (env.inLambdas vars outer) l x r ↔
      Told env (env.inLambdas vars outer) l x := by
  rw [receiver_identifier hkind hx, lambdaParam?_inLambdas_append hinner,
    lambdaParam?_inLambdas_cons, variableType?_inLambdas] at hr
  cases hwritten : (env.writtenTypes l.node).lookup x with
  | some type =>
    -- the lambda is asked first, and answers
    rw [lookup_lambdaParams_of_written hwritten, Option.some_or, Prod.mk.injEq, Prod.mk.injEq] at hr
    exact comesFrom_iff_of_written hwritten hr.2.1 hr.2.2
  | none =>
    cases hbase : env.handedTo? (env.inLambdas vars outer) l with
    | some base =>
      obtain ⟨i, hi, hlookup⟩ := lookup_lambdaParams_of_handed hwritten hbound hbase
      rw [hlookup, Option.some_or, Prod.mk.injEq, Prod.mk.injEq] at hr
      exact comesFrom_iff_of_handed hwritten hbase hi hr.2.1 hr.2.2
    | none =>
      rw [comesFrom_iff_of_unhanded hwritten hbase, told_iff_of_unhanded hwritten hbase,
        variableType?_inLambdas]
      rw [lookup_lambdaParams_of_unhanded hwritten hbase, Option.none_or] at hr
      -- the name is looked up further out, and only a type leaves no trace of another variable
      cases hlambda : (env.inLambdas vars outer).lambdaParam? x with
      | some chain =>
        rw [hlambda, Prod.mk.injEq, Prod.mk.injEq] at hr
        simp [hr.2.2]
      | none =>
        rw [hlambda] at hr
        cases hvariable : env.variableType? vars x with
        | some type =>
          rw [hvariable, Prod.mk.injEq, Prod.mk.injEq] at hr
          simp [hr.2.1]
        | none =>
          rw [hvariable] at hr
          dsimp only at hr
          by_cases hupper : startsUppercase x = true
          · rw [if_pos hupper, Prod.mk.injEq, Prod.mk.injEq] at hr
            simp [hr.2.2, hupper]
          · rw [if_neg hupper, Prod.mk.injEq, Prod.mk.injEq] at hr
            simp [hr.2.2, hupper]

end ComesFrom

/-- The references in the body of a method are those made at the places in it. Of a call or a method
reference on a name that is a parameter of a lambda around it, the innermost with such a parameter,
what is recorded comes from that lambda exactly if the lambda tells what the parameter is: it writes
a type other than `var` for it, or writes none and is handed to an object with a chain. Otherwise
the name is looked up further out, which does no harm only if it is nothing there but looks like a
type. In front of `::new` a name is that of a type and is recorded so, whatever variables there
are. -/
theorem lambda_parameter_receiver_iff (env : Env) (params : List Param) (body : Tree) :
    (∀ r, r ∈ env.bodyReferences params (some body) ↔
      ∃ p, CodePlace.Reaches { node := body } p ∧
        env.reference? (env.inLambdas (env.variablesOf params body) p.lambdas) p.around p.node =
          some r) ∧
    ∀ p, CodePlace.Reaches { node := body } p → ∀ object r,
      receiverNode? p.node = some object →
      env.reference? (env.inLambdas (env.variablesOf params body) p.lambdas) p.around p.node =
        some r →
        (r.kind = .new →
          (r.receiver, r.receiverType, r.receiverChain) =
            (.type, some (env.typeRef object), none)) ∧
        (r.kind ≠ .new → object.kind = "identifier" →
          ∀ x inner l outer, object.text env.source = x → p.lambdas = inner ++ l :: outer →
            (∀ k ∈ inner, x ∉ env.lambdaNames k.node) → x ∈ env.lambdaNames l.node →
              (ComesFrom env (env.inLambdas (env.variablesOf params body) outer) l x r ↔
                Told env (env.inLambdas (env.variablesOf params body) outer) l x)) := by
  refine ⟨fun r => mem_references_iff { node := body }, ?_⟩
  intro p _ object r hobject hr
  have hreceiver := receiver_of_reference hobject hr
  constructor
  · intro hnew
    rw [hreceiver, if_pos hnew]
  · intro hnew hkind x inner l outer hx hlambdas hinner hbound
    rw [if_neg hnew, hlambdas] at hreceiver
    exact comesFrom_iff hkind hx hinner hbound hreceiver

/-! A class with a field `w`, and in a method two lambdas with a parameter `w`, of which one is
handed to a parameter of the method and the other to a method without an object. -/

/-- The text of the class. -/
def hidingSource : String := "class A{W w;void m(B b){b.run(w->w.go());run(w->w.go());}}"

/-- The call on the parameter, in the body of a lambda. -/
def goNode (startByte : Nat) : Tree :=
  namedNode "method_invocation" startByte (startByte + 6) (some "body")
    [namedNode "identifier" startByte (startByte + 1) (some "object"),
      namedNode "identifier" (startByte + 2) (startByte + 4) (some "name"),
      namedNode "argument_list" (startByte + 4) (startByte + 6) (some "arguments")]

/-- A lambda. -/
def goLambda (startByte : Nat) : Tree :=
  namedNode "lambda_expression" startByte (startByte + 9) none
    [namedNode "identifier" startByte (startByte + 1) (some "parameters"), goNode (startByte + 3)]

/-- A lambda as an argument. -/
def goArguments (startByte : Nat) : Tree :=
  namedNode "argument_list" startByte (startByte + 11) (some "arguments") [goLambda (startByte + 1)]

/-- The first statement. -/
def runOnObject : Tree :=
  namedNode "expression_statement" 24 41 none
    [namedNode "method_invocation" 24 40 none
      [namedNode "identifier" 24 25 (some "object"), namedNode "identifier" 26 29 (some "name"),
        goArguments 29]]

/-- The second statement. -/
def runAlone : Tree :=
  namedNode "expression_statement" 41 56 none
    [namedNode "method_invocation" 41 55 none
      [namedNode "identifier" 41 44 (some "name"), goArguments 44]]

/-- The body of the method. -/
def hidingBody : Tree := namedNode "block" 23 57 (some "body") [runOnObject, runAlone]

/-- The names in the class. -/
def hidingEnv : Env :=
  { file :=
      { source := hidingSource
        package := ""
        imports := []
        known := [("A", "A")] }
    types :=
      [{ qualname := "A"
         kind := .ofClass
         typeParams := []
         fields := [("w", { text := "W", resolved := some "W" })] }] }

/-- The parameter of the method. -/
def hidingParam : Param := { name := "b", type := { text := "B" } }

/-- The variables in the method, outside of its lambdas. -/
def hidingVars : Variables := hidingEnv.variablesOf [hidingParam] hidingBody

/-- The lambda in a statement of the method. -/
def lambdaIn (statement : Tree) (startByte : Nat) : LambdaAt :=
  { node := goLambda (startByte + 1)
    around := [goArguments startByte, statement.children.head!, statement, hidingBody] }

/-- The call in the body of that lambda. -/
def callIn (statement : Tree) (startByte : Nat) : CodePlace :=
  { node := goNode (startByte + 4)
    around := goLambda (startByte + 1) :: (lambdaIn statement startByte).around
    lambdas := [lambdaIn statement startByte] }

/-- The first call is in the body of the lambda that is handed to an object. -/
theorem reaches_callIn_object : CodePlace.Reaches { node := hidingBody } (callIn runOnObject 29) :=
  .head (.child (by decide) (.head _) rfl) <|
    .head (.child (by decide) (.head _) rfl) <|
      .head (.child (by decide) (.tail _ (.tail _ (.head _))) rfl) <|
        .head (.child (by decide) (.head _) rfl) (.single (.body rfl rfl))

/-- The second call is in the body of the other lambda. -/
theorem reaches_callIn_alone : CodePlace.Reaches { node := hidingBody } (callIn runAlone 44) :=
  .head (.child (by decide) (.tail _ (.head _)) rfl) <|
    .head (.child (by decide) (.head _) rfl) <|
      .head (.child (by decide) (.tail _ (.head _)) rfl) <|
        .head (.child (by decide) (.head _) rfl) (.single (.body rfl rfl))

/-- The call in the lambda that is handed to an object comes from the lambda. -/
theorem lambda_parameter_receiver_on_object :
    ((hidingEnv.variableType? hidingVars "w").map (·.text)) = some "W" ∧
      ∃ r ∈ hidingEnv.bodyReferences [hidingParam] (some hidingBody),
        r.kind = .call ∧ r.name = "go" ∧
          ComesFrom hidingEnv hidingVars (lambdaIn runOnObject 29) "w" r := by
  obtain ⟨hmade, hreceiver⟩ := lambda_parameter_receiver_iff hidingEnv [hidingParam] hidingBody
  obtain ⟨r, hr⟩ : ∃ r, hidingEnv.reference?
      (hidingEnv.inLambdas hidingVars [lambdaIn runOnObject 29])
      (callIn runOnObject 29).around (goNode 33) = some r := ⟨_, rfl⟩
  have hkind : r.kind = .call := by
    cases hr
    rfl
  have hname : r.name = "go" := by
    cases hr
    show (namedNode "identifier" 35 37 (some "name")).text hidingSource = "go"
    decide
  have hnames : "w" ∈ hidingEnv.lambdaNames (goLambda 30) := by decide
  have htold : Told hidingEnv hidingVars (lambdaIn runOnObject 29) "w" := by
    refine .handed rfl (?_ : _ = some (hidingEnv.chainNamed hidingVars "b"))
    have hobject : (namedNode "identifier" 24 25 (some "object")).text hidingEnv.source = "b" := by
      decide
    rw [← hobject]
    exact chainOf_identifier rfl
  refine ⟨by decide, r, (hmade r).mpr ⟨_, reaches_callIn_object, hr⟩, hkind, hname, ?_⟩
  have hnew : r.kind ≠ .new := by
    rw [hkind]
    exact nofun
  obtain ⟨-, hcomes⟩ := hreceiver _ reaches_callIn_object _ r rfl hr
  exact (hcomes hnew rfl "w" [] _ [] (by decide) rfl (by simp) hnames).mpr htold

/-- The call in the other lambda is recorded as one on the field. -/
theorem field_taken_for_parameter :
    ∃ p, CodePlace.Reaches { node := hidingBody } p ∧
      p.lambdas = [lambdaIn runAlone 44] ∧ "w" ∈ hidingEnv.lambdaNames (goLambda 45) ∧
      ∃ r ∈ hidingEnv.bodyReferences [hidingParam] (some hidingBody),
        hidingEnv.reference? (hidingEnv.inLambdas hidingVars p.lambdas) p.around p.node = some r ∧
          r.receiverType.map (·.text) = some "W" ∧
          r.receiverType = hidingEnv.variableType? hidingVars "w" ∧
          ¬ ComesFrom hidingEnv hidingVars (lambdaIn runAlone 44) "w" r := by
  obtain ⟨r, hr⟩ : ∃ r, hidingEnv.reference?
      (hidingEnv.inLambdas hidingVars (callIn runAlone 44).lambdas)
      (callIn runAlone 44).around (callIn runAlone 44).node = some r := ⟨_, rfl⟩
  have hkind : r.kind ≠ .new := by
    cases hr
    exact nofun
  have hobject : (namedNode "identifier" 48 49 (some "object")).text hidingEnv.source = "w" := by
    decide
  have hunbound :
      (hidingEnv.inLambdas hidingVars (callIn runAlone 44).lambdas).lambdaParam? "w" = none := rfl
  have hfield : hidingEnv.variableType? hidingVars "w" =
      some { text := "W", resolved := some "W" } := by
    decide
  have hreceiver := receiver_of_reference (t := goNode 48) rfl hr
  rw [if_neg hkind, receiver_identifier rfl hobject, hunbound, variableType?_inLambdas, hfield,
    Prod.mk.injEq, Prod.mk.injEq] at hreceiver
  refine ⟨_, reaches_callIn_alone, rfl, by decide, r,
    (mem_references_iff { node := hidingBody }).mpr ⟨_, reaches_callIn_alone, hr⟩, hr, ?_,
    hreceiver.2.1.trans hfield.symm, fun hfrom => hfrom.type _ hfield hreceiver.2.1⟩
  rw [hreceiver.2.1]
  rfl

end JavaAtlas.Java
