import JavaAtlas.Proofs.Java.LambdaScope

namespace JavaAtlas

/-! # Direct receivers and the chains that begin with them

What a call is made on is told from its text where that is possible, and else kept as a chain from a
beginning that can be told. An expression means the same in both places: if its type can be told
where it is a receiver, that type is where a chain through it begins.

* `chainOf_of_typed`: an expression whose type can be told is the beginning of its own chain;
* `ChainBegins`: all beginnings of chains;
* `StandsAround.chainOf`, `StandsAround.receiverOf`: what one node around an expression does to its
  chain and to its type;
* `BuiltOn.chainOf`, `BuiltOn.receiverOf`: what any number of nodes around it do;
* `chainOf_eq_some_iff`: the chain of an expression begins somewhere inside and goes on from there;
* `exists_typed_begin`: where a chain begins with a type;
* `typed_receiver_roots_chain`: what follows for the receivers that are recorded.
-/

/-- A chain that goes on by more steps. -/
def ReceiverChain.followedBy (c : ReceiverChain) (steps : List ChainStep) : ReceiverChain :=
  { c with steps := c.steps ++ steps }

/-- No steps change nothing. -/
@[simp]
theorem ReceiverChain.followedBy_nil (c : ReceiverChain) : c.followedBy [] = c := by
  unfold ReceiverChain.followedBy
  rw [List.append_nil]

/-- Steps and then more of them are all of them. -/
@[simp]
theorem ReceiverChain.followedBy_append (c : ReceiverChain) (steps more : List ChainStep) :
    (c.followedBy steps).followedBy more = c.followedBy (steps ++ more) := by
  unfold ReceiverChain.followedBy
  rw [List.append_assoc]

namespace Java

/-- The step that a call of a method takes. -/
def Env.callStep (env : Env) (t name : Tree) : ChainStep :=
  .call (name.text env.source) (argCount (t.field? "arguments"))

section Kinds

variable {env : Env} {vars : Variables} {t : Tree}

/-! ## One kind of node after the other -/

/-- This object is a receiver of its own kind. -/
theorem receiverOf_this (h : t.kind = "this") : env.receiverOf vars t = (.this, none) := by
  rw [Env.receiverOf, h]
  rfl

/-- The receiver that an access to a field is. -/
theorem receiverOf_access (h : t.kind = "field_access") :
    env.receiverOf vars t = env.receiverOfAccess t := by
  rw [Env.receiverOf, h]
  rfl

/-- The type of a call cannot be told. -/
theorem receiverOf_call (h : t.kind = "method_invocation") :
    env.receiverOf vars t = (.expr, none) := by
  rw [Env.receiverOf, h]
  rfl

/-- Parentheses are the receiver that is in them. -/
theorem receiverOf_parenthesized (h : t.kind = "parenthesized_expression") :
    env.receiverOf vars t = (t.firstNamed?.map (env.receiverOf vars)).getD (.expr, none) := by
  rw [Env.receiverOf, h]
  cases t.firstNamed? <;> rfl

/-- The chain of this object has no steps. -/
theorem chainOf_this (h : t.kind = "this") : env.chainOf vars t = some { root := .this } := by
  rw [Env.chainOf, h]
  rfl

/-- The chain of an access is its type, if that can be told, or goes on from the object. -/
theorem chainOf_access (h : t.kind = "field_access") :
    env.chainOf vars t =
      match (env.receiverOfAccess t).2 with
      | some type => some { root := .typed type }
      | none =>
        match t.field? "object", t.field? "field" with
        | some object, some field =>
          (env.chainOf vars object).map (·.andThen (.field (field.text env.source)))
        | _, _ => none := by
  rw [Env.chainOf, h]
  cases (env.receiverOfAccess t).2 with
  | some type => rfl
  | none => cases t.field? "object" <;> cases t.field? "field" <;> rfl

/-- The chain of a call goes on from the object, or begins with the call. -/
theorem chainOf_call (h : t.kind = "method_invocation") :
    env.chainOf vars t =
      match t.field? "name" with
      | none => none
      | some name =>
        match t.field? "object" with
        | some object => (env.chainOf vars object).map (·.andThen (env.callStep t name))
        | none => some { root := .implicit, steps := [env.callStep t name] } := by
  rw [Env.chainOf, h]
  cases t.field? "name" with
  | none => rfl
  | some name => cases t.field? "object" <;> rfl

/-- The chain of parentheses is that of what is in them. -/
theorem chainOf_parenthesized (h : t.kind = "parenthesized_expression") :
    env.chainOf vars t = t.firstNamed?.bind (env.chainOf vars) := by
  rw [Env.chainOf, h]
  cases t.firstNamed? <;> rfl

/-- The chain of any other expression is its type, if that can be told. -/
theorem chainOf_other (hthis : t.kind ≠ "this") (hidentifier : t.kind ≠ "identifier")
    (haccess : t.kind ≠ "field_access") (hcall : t.kind ≠ "method_invocation")
    (hparentheses : t.kind ≠ "parenthesized_expression") :
    env.chainOf vars t = (env.receiverOf vars t).2.map fun type => { root := .typed type } := by
  rw [Env.chainOf]
  split
  all_goals first | contradiction | rfl

end Kinds

section Chains

variable {env : Env} {vars : Variables} {t u : Tree} {type : TypeRef} {chain : ReceiverChain}

/-! ## Where a chain begins -/

/-- The chain of a name: that of a parameter of a lambda, or else the type of the name as a
receiver, or else an inherited field. -/
theorem chainNamed_eq (env : Env) (vars : Variables) (name : String) :
    env.chainNamed vars name =
      (vars.lambdaParam? name).getD
        (match (env.receiverNamed vars name).2 with
        | some type => { root := .typed type }
        | none => { root := .implicit, steps := [.field name] }) := by
  unfold Env.chainNamed Env.receiverNamed
  cases vars.lambdaParam? name with
  | some chain => rfl
  | none =>
    cases env.variableType? vars name with
    | some type => rfl
    | none => cases hupper : startsUppercase name <;> simp

/-- A name with a type as a receiver is not the parameter of a lambda. -/
theorem lambdaParam?_of_typed {name : String} (h : (env.receiverNamed vars name).2 = some type) :
    vars.lambdaParam? name = none := by
  unfold Env.receiverNamed at h
  split at h
  · cases h
  · next hnot => exact Option.not_isSome_iff_eq_none.mp hnot

/-- An expression whose type can be told is where its chain begins. -/
theorem chainOf_of_typed (t : Tree) (h : (env.receiverOf vars t).2 = some type) :
    env.chainOf vars t = some { root := .typed type } := by
  by_cases hthis : t.kind = "this"
  · rw [receiverOf_this hthis] at h
    cases h
  by_cases hidentifier : t.kind = "identifier"
  · rw [receiverOf_identifier hidentifier] at h
    -- the parameters of lambdas come first, but they have no type as receivers
    rw [chainOf_identifier hidentifier, chainNamed_eq, lambdaParam?_of_typed h, h]
    rfl
  by_cases haccess : t.kind = "field_access"
  · rw [receiverOf_access haccess] at h
    rw [chainOf_access haccess, h]
  by_cases hcall : t.kind = "method_invocation"
  · rw [receiverOf_call hcall] at h
    cases h
  by_cases hparentheses : t.kind = "parenthesized_expression"
  · rw [receiverOf_parenthesized hparentheses] at h
    rw [chainOf_parenthesized hparentheses]
    cases hinner : t.firstNamed? with
    | none =>
      rw [hinner] at h
      cases h
    | some inner =>
      rw [hinner] at h
      exact chainOf_of_typed inner h
  · rw [chainOf_other hthis hidentifier haccess hcall hparentheses, h]
    rfl
termination_by sizeOf t
decreasing_by exact Tree.sizeOf_lt_of_firstNamed? hinner

/-- A chain begins at an expression: with its type, with this object, as the chain of a parameter of
a lambda, with a field that is inherited, or with a call on no object. -/
inductive ChainBegins (env : Env) (vars : Variables) : Tree → ReceiverChain → Prop
  | typed {t : Tree} {type : TypeRef} : (env.receiverOf vars t).2 = some type →
      ChainBegins env vars t { root := .typed type }
  | this {t : Tree} : t.kind = "this" → ChainBegins env vars t { root := .this }
  | lambdaParam {t : Tree} {chain : ReceiverChain} : t.kind = "identifier" →
      vars.lambdaParam? (t.text env.source) = some chain → ChainBegins env vars t chain
  | inherited {t : Tree} : t.kind = "identifier" →
      vars.lambdaParam? (t.text env.source) = none → (env.receiverOf vars t).2 = none →
      ChainBegins env vars t { root := .implicit, steps := [.field (t.text env.source)] }
  | call {t name : Tree} : t.kind = "method_invocation" → t.field? "name" = some name →
      t.field? "object" = none →
      ChainBegins env vars t { root := .implicit, steps := [env.callStep t name] }

/-- Where a chain begins, this is the chain of the expression. -/
theorem ChainBegins.chainOf (h : ChainBegins env vars t chain) :
    env.chainOf vars t = some chain := by
  cases h with
  | typed h => exact chainOf_of_typed t h
  | this hkind => exact chainOf_this hkind
  | lambdaParam hkind hparam =>
    rw [chainOf_identifier hkind, chainNamed_eq, hparam]
    rfl
  | inherited hkind hparam huntyped =>
    rw [receiverOf_identifier hkind] at huntyped
    rw [chainOf_identifier hkind, chainNamed_eq, hparam, huntyped]
    rfl
  | call hkind hname hobject => rw [chainOf_call hkind, hname, hobject]

/-! ## How it goes on -/

/-- A node stands around another one and takes steps from it: parentheses none, an access to a field
or a call one. The type of the field must not be told otherwise. -/
inductive StandsAround (env : Env) (vars : Variables) : Tree → Tree → List ChainStep → Prop
  | parentheses {u inner : Tree} : u.kind = "parenthesized_expression" →
      u.firstNamed? = some inner → StandsAround env vars inner u []
  | access {u object field : Tree} : u.kind = "field_access" → (env.receiverOf vars u).2 = none →
      u.field? "object" = some object → u.field? "field" = some field →
      StandsAround env vars object u [.field (field.text env.source)]
  | call {u object name : Tree} : u.kind = "method_invocation" → u.field? "name" = some name →
      u.field? "object" = some object → StandsAround env vars object u [env.callStep u name]

variable {inner : Tree} {steps : List ChainStep}

/-- What stands around an expression is larger. -/
theorem StandsAround.sizeOf_lt (h : StandsAround env vars inner u steps) :
    sizeOf inner < sizeOf u := by
  cases h with
  | parentheses _ hinner => exact Tree.sizeOf_lt_of_firstNamed? hinner
  | access _ _ hobject _ => exact Tree.sizeOf_lt_of_field? hobject
  | call _ _ hobject => exact Tree.sizeOf_lt_of_field? hobject

/-- The chain of what stands around goes on by its steps. -/
theorem StandsAround.chainOf (h : StandsAround env vars inner u steps) :
    env.chainOf vars u = (env.chainOf vars inner).map (·.followedBy steps) := by
  cases h with
  | parentheses hkind hinner =>
    rw [chainOf_parenthesized hkind, hinner]
    simp only [ReceiverChain.followedBy_nil, Option.map_id_fun', id_eq]
    rfl
  | access hkind huntyped hobject hfield =>
    rw [receiverOf_access hkind] at huntyped
    rw [chainOf_access hkind, huntyped, hobject, hfield]
    rfl
  | call hkind hname hobject =>
    rw [chainOf_call hkind, hname, hobject]
    rfl

/-- An access whose type cannot be told is an expression like any other. -/
theorem receiverOfAccess_of_untyped (h : (env.receiverOfAccess t).2 = none) :
    env.receiverOfAccess t = (.expr, none) := by
  unfold Env.receiverOfAccess at h ⊢
  generalize (if ((t.field? "object").map (·.kind)) == some "this" then t.field? "field"
    else none) = ownField at h ⊢
  cases ownField with
  | some field => exact Prod.ext rfl h
  | none =>
    dsimp only at h ⊢
    split at h
    · cases h
    · next hdotted => rw [if_neg hdotted]

/-- Parentheses change nothing about a receiver, and after a step its type cannot be told. -/
theorem StandsAround.receiverOf (h : StandsAround env vars inner u steps) :
    env.receiverOf vars u = if steps = [] then env.receiverOf vars inner else (.expr, none) := by
  cases h with
  | parentheses hkind hinner =>
    rw [receiverOf_parenthesized hkind, hinner]
    rfl
  | access hkind huntyped _ _ =>
    rw [receiverOf_access hkind] at huntyped
    rw [receiverOf_access hkind, receiverOfAccess_of_untyped huntyped, if_neg (by simp)]
  | call hkind _ _ => rw [receiverOf_call hkind, if_neg (by simp)]

/-- A chain begins at an expression, or comes from one inside of it. -/
theorem chainBegins_or_standsAround (h : env.chainOf vars u = some chain) :
    ChainBegins env vars u chain ∨ ∃ inner steps, StandsAround env vars inner u steps := by
  by_cases hthis : u.kind = "this"
  · rw [chainOf_this hthis] at h
    cases h
    exact .inl (.this hthis)
  -- where the type can be told there is nothing more to look for
  by_cases htyped : ∃ type, (env.receiverOf vars u).2 = some type
  · obtain ⟨type, htype⟩ := htyped
    rw [chainOf_of_typed u htype] at h
    cases h
    exact .inl (.typed htype)
  have htype : (env.receiverOf vars u).2 = none :=
    Option.eq_none_iff_forall_ne_some.mpr fun type htype => htyped ⟨type, htype⟩
  by_cases hidentifier : u.kind = "identifier"
  · have hnamed := htype
    rw [receiverOf_identifier hidentifier] at hnamed
    rw [chainOf_identifier hidentifier, chainNamed_eq, hnamed] at h
    cases hparam : vars.lambdaParam? (u.text env.source) with
    | some base =>
      rw [hparam] at h
      cases h
      exact .inl (.lambdaParam hidentifier hparam)
    | none =>
      rw [hparam] at h
      cases h
      exact .inl (.inherited hidentifier hparam htype)
  by_cases haccess : u.kind = "field_access"
  · rw [chainOf_access haccess, ← receiverOf_access haccess, htype] at h
    dsimp only at h
    split at h
    · next object field hobject hfield =>
      exact .inr ⟨object, _, .access haccess htype hobject hfield⟩
    · cases h
  by_cases hcall : u.kind = "method_invocation"
  · rw [chainOf_call hcall] at h
    split at h
    · cases h
    · next name hname =>
      split at h
      · next object hobject => exact .inr ⟨object, _, .call hcall hname hobject⟩
      · next hobject =>
        cases h
        exact .inl (.call hcall hname hobject)
  by_cases hparentheses : u.kind = "parenthesized_expression"
  · rw [chainOf_parenthesized hparentheses] at h
    obtain ⟨inner, hinner, -⟩ := Option.bind_eq_some_iff.mp h
    exact .inr ⟨inner, [], .parentheses hparentheses hinner⟩
  · rw [chainOf_other hthis hidentifier haccess hcall hparentheses, htype] at h
    cases h

/-- An expression is built on another one: one node after the other stands around it, and all take
their steps. -/
inductive BuiltOn (env : Env) (vars : Variables) (t : Tree) : Tree → List ChainStep → Prop
  | self : BuiltOn env vars t t []
  | around {inner u : Tree} {steps more : List ChainStep} : BuiltOn env vars t inner steps →
      StandsAround env vars inner u more → BuiltOn env vars t u (steps ++ more)

/-- The chain of what is built on an expression goes on by all steps. -/
theorem BuiltOn.chainOf (h : BuiltOn env vars t u steps) :
    env.chainOf vars u = (env.chainOf vars t).map (·.followedBy steps) := by
  induction h with
  | self => simp only [ReceiverChain.followedBy_nil, Option.map_id_fun', id_eq]
  | around _ haround ih =>
    rw [haround.chainOf, ih, Option.map_map]
    simp only [Function.comp_def, ReceiverChain.followedBy_append]

/-- Only in parentheses is what is built on an expression the same receiver. -/
theorem BuiltOn.receiverOf (h : BuiltOn env vars t u steps) :
    env.receiverOf vars u = if steps = [] then env.receiverOf vars t else (.expr, none) := by
  induction h with
  | self => rw [if_pos rfl]
  | @around inner u steps more _ haround ih =>
    rw [haround.receiverOf, ih]
    by_cases hmore : more = []
    · rw [if_pos hmore, hmore, List.append_nil]
    · rw [if_neg hmore, if_neg (by simp [hmore])]

/-- The chain of an expression begins somewhere inside and goes on from there. -/
theorem chainOf_eq_some_iff (u : Tree) {chain : ReceiverChain} :
    env.chainOf vars u = some chain ↔ ∃ t base steps, ChainBegins env vars t base ∧
      BuiltOn env vars t u steps ∧ chain = base.followedBy steps := by
  constructor
  · intro h
    rcases chainBegins_or_standsAround h with hbegins | ⟨inner, more, haround⟩
    · exact ⟨u, chain, [], hbegins, .self, chain.followedBy_nil.symm⟩
    · have hinside := h
      rw [haround.chainOf] at hinside
      obtain ⟨before, hbefore, rfl⟩ := Option.map_eq_some_iff.mp hinside
      -- by induction on the size: what is inside is smaller
      have hlt := haround.sizeOf_lt
      obtain ⟨t, base, steps, hbegins, hbuilt, rfl⟩ := (chainOf_eq_some_iff inner).mp hbefore
      exact ⟨t, base, _, hbegins, .around hbuilt haround, base.followedBy_append steps more⟩
  · rintro ⟨t, base, steps, hbegins, hbuilt, rfl⟩
    rw [hbuilt.chainOf, hbegins.chainOf]
    rfl
termination_by sizeOf u

/-! ## What is recorded -/

/-- A receiver whose type can be told is recorded by it, and without a chain. -/
theorem receiver_of_typed (h : (env.receiverOf vars t).2 = some type) :
    env.receiver vars t = ((env.receiverOf vars t).1, some type, none) := by
  unfold Env.receiver
  split
  · next heq =>
    rw [heq] at h
    cases h
  · next kind found _ heq =>
    rw [heq] at h ⊢
    cases h
    rfl

/-- A receiver that goes on from a type is recorded by the chain from there. -/
theorem BuiltOn.receiver (hbuilt : BuiltOn env vars t u steps)
    (h : (env.receiverOf vars t).2 = some type) :
    env.receiver vars u =
      if steps = [] then env.receiver vars t
      else (.expr, none, some { root := .typed type, steps }) := by
  have hreceiver := hbuilt.receiverOf
  by_cases hsteps : steps = []
  · -- only parentheses stand around it
    rw [if_pos hsteps] at hreceiver ⊢
    rw [receiver_of_typed h, receiver_of_typed (hreceiver ▸ h), hreceiver]
  · -- after a step the type cannot be told, so that the chain is recorded
    rw [if_neg hsteps] at hreceiver ⊢
    unfold Env.receiver
    rw [hreceiver, hbuilt.chainOf, chainOf_of_typed t h]
    rfl

/-- A chain that begins with a type begins where that type can be told, or with a parameter of a
lambda that stands for such a chain. -/
theorem exists_typed_begin (h : env.chainOf vars u = some { root := .typed type, steps }) :
    ∃ t rest, BuiltOn env vars t u rest ∧
      ((env.receiverOf vars t).2 = some type ∧ rest = steps ∨
        ∃ before, t.kind = "identifier" ∧
          vars.lambdaParam? (t.text env.source) = some { root := .typed type, steps := before } ∧
          steps = before ++ rest) := by
  obtain ⟨t, base, rest, hbegins, hbuilt, hchain⟩ := (chainOf_eq_some_iff u).mp h
  refine ⟨t, rest, hbuilt, ?_⟩
  cases hbegins with
  | typed htype =>
    cases hchain
    exact .inl ⟨htype, rfl⟩
  | lambdaParam hkind hparam =>
    obtain ⟨root, before⟩ := base
    cases hchain
    exact .inr ⟨before, hkind, hparam, rfl⟩
  -- the other beginnings are not types
  | this | inherited | call => cases hchain

end Chains

/-- An expression is understood in the same way as the receiver of a call and as the beginning of a
chain, for every expression, all variables and all types around.

If its type can be told, its own chain is that type and no step. As a receiver it is recorded by
that type and without a chain, and so it is in any number of parentheses. A receiver that goes on
from it by fields and calls, with parentheses anywhere, is recorded by the chain that begins with
that type and takes these steps. And a chain begins with a type nowhere else, but for the parameters
of lambdas, which stand for chains. -/
theorem typed_receiver_roots_chain (env : Env) (vars : Variables) :
    (∀ t type, (env.receiverOf vars t).2 = some type →
      env.chainOf vars t = some { root := .typed type } ∧
      env.receiver vars t = ((env.receiverOf vars t).1, some type, none) ∧
      ∀ u steps, BuiltOn env vars t u steps →
        env.chainOf vars u = some { root := .typed type, steps } ∧
        env.receiver vars u =
          if steps = [] then env.receiver vars t
          else (.expr, none, some { root := .typed type, steps })) ∧
    ∀ u type steps, env.chainOf vars u = some { root := .typed type, steps } →
      ∃ t rest, BuiltOn env vars t u rest ∧
        ((env.receiverOf vars t).2 = some type ∧ rest = steps ∨
          ∃ before, t.kind = "identifier" ∧
            vars.lambdaParam? (t.text env.source) = some { root := .typed type, steps := before } ∧
            steps = before ++ rest) := by
  refine ⟨?_, fun u type steps => exists_typed_begin⟩
  intro t type h
  have hchain := chainOf_of_typed t h
  refine ⟨hchain, receiver_of_typed h, ?_⟩
  intro u steps hbuilt
  refine ⟨?_, hbuilt.receiver h⟩
  rw [hbuilt.chainOf, hchain]
  rfl

/-! A call on what a field of a cast holds. -/

/-- The text of the call. -/
def castSource : String := "((T)x).f.g()"

/-- The cast. -/
def castNode : Tree :=
  namedNode "cast_expression" 1 5 none
    [namedNode "type_identifier" 2 3 (some "type"), namedNode "identifier" 4 5 (some "value")]

/-- The cast in its parentheses. -/
def castInParentheses : Tree :=
  namedNode "parenthesized_expression" 0 6 (some "object") [castNode]

/-- An access to a field of that. -/
def castFieldNode : Tree :=
  namedNode "field_access" 0 8 (some "object")
    [castInParentheses, namedNode "identifier" 7 8 (some "field")]

/-- The call. -/
def castCallNode : Tree :=
  namedNode "method_invocation" 0 12 none
    [castFieldNode, namedNode "identifier" 9 10 (some "name"),
      namedNode "argument_list" 10 12 (some "arguments")]

/-- The names in a file with that text. -/
def castEnv : Env := { file := FileNames.ofTree castSource castCallNode }

/-- The type of the cast can be told. -/
theorem receiverOf_castNode :
    castEnv.receiverOf {} castNode = (.expr, some { text := "T", resolved := some "T" }) := by
  have htype : castEnv.typeRef (namedNode "type_identifier" 2 3 (some "type")) =
      { text := "T", resolved := some "T" } := by
    unfold Env.typeRef
    rw [Env.canonical]
    decide +kernel
  rw [Env.receiverOf, ← htype]
  rfl

/-- The call is built on the cast by parentheses, an access and itself. -/
theorem builtOn_castCallNode :
    BuiltOn castEnv {} castNode castCallNode [.field "f", .call "g" 0] := by
  have hlower : startsUppercase (simpleName (castFieldNode.squeezed castEnv.source)) = false := by
    decide +kernel
  have huntyped : (castEnv.receiverOf {} castFieldNode).2 = none := by
    rw [receiverOf_access rfl]
    unfold Env.receiverOfAccess
    simp only [hlower, Bool.and_false]
    rfl
  have hfield : (namedNode "identifier" 7 8 (some "field")).text castEnv.source = "f" := by
    decide +kernel
  have hcall : castEnv.callStep castCallNode (namedNode "identifier" 9 10 (some "name")) =
      .call "g" 0 := by
    decide +kernel
  have hinParentheses : StandsAround castEnv {} castNode castInParentheses [] :=
    .parentheses rfl rfl
  have haccess : StandsAround castEnv {} castInParentheses castFieldNode
      [.field ((namedNode "identifier" 7 8 (some "field")).text castEnv.source)] :=
    .access rfl huntyped rfl rfl
  have hinvocation : StandsAround castEnv {} castFieldNode castCallNode
      [castEnv.callStep castCallNode (namedNode "identifier" 9 10 (some "name"))] :=
    .call rfl rfl rfl
  rw [hfield] at haccess
  rw [hcall] at hinvocation
  exact ((BuiltOn.self.around hinParentheses).around haccess).around hinvocation

/-- The cast is recorded by its type, the call by the chain that begins there. -/
theorem typed_receiver_roots_chain_cast :
    castEnv.receiver {} castNode = (.expr, some { text := "T", resolved := some "T" }, none) ∧
    castEnv.receiver {} castCallNode =
      (.expr, none,
        some
          { root := .typed { text := "T", resolved := some "T" }
            steps := [.field "f", .call "g" 0] }) := by
  obtain ⟨htyped, -⟩ := typed_receiver_roots_chain castEnv {}
  obtain ⟨-, hreceiver, hlonger⟩ := htyped castNode _ (congrArg Prod.snd receiverOf_castNode)
  rw [receiverOf_castNode] at hreceiver
  exact ⟨hreceiver, (hlonger castCallNode _ builtOn_castCallNode).2⟩

end Java

end JavaAtlas
