import JavaAtlas.Proofs.Java.LambdaScope

namespace JavaAtlas.Java

/-! # Which declaration a name in a body refers to

Of a call on a variable the type is recorded that is told for its name. That should be the type of
the declaration that the name refers to: the innermost one around the call, in front of it. The
scopes of declarations are said here along the way that leads into the body: each step brings in
the variables that are declared in front of where it goes.

What is looked up instead is one list of all variables of the body, wherever they are declared.

* `ScopedPlace.Enters`: the places in a body with the variables in scope there;
* `TypeTold`: the type that is told for a name;
* `receiverType_eq_some_iff`: it is recorded unless a lambda around has entered the name;
* `Scoped.of_reaches`: what the variables in scope are, by induction on the way into the body;
* `local_receiver_type_iff`: when the recorded type is one of the declaration that the name
  refers to.
-/

/-! ## Variables and their scopes -/

/-- A variable with the types that its declaration tells: none for `var` without a creation, and
several in a catch clause for several types. -/
structure LocalVariable where
  name : String
  types : List TypeRef

namespace Env

/-- The type of the object that a declarator creates. -/
def createdType? (env : Env) (d : Tree) : Option TypeRef :=
  (d.field? "value").bind fun value =>
    if value.kind == "object_creation_expression" then (value.field? "type").map env.typeRef
    else none

/-- The types that are told by a written type for what it is written for, given what is created
for this. -/
def typesTold (env : Env) (type d : Tree) (created : Option TypeRef) : List TypeRef :=
  if (env.typeRef type).text == "var" then created.toList
  else [withDimensions env.source (env.typeRef type) d]

/-- The types between which a catch clause does not distinguish. -/
def alternatives (env : Env) (list : Tree) : List TypeRef :=
  if list.namedChildren.any fun c => (env.typeRef c).text == "var" then []
  else list.parts.map env.typeRef

/-- The variables of declarators behind the type of a node. -/
def declaratorVariables (env : Env) (t : Tree) (declarators : List Tree) : List LocalVariable :=
  match t.field? "type" with
  | none => []
  | some type => declarators.filterMap fun d =>
      (d.field? "name").map fun name =>
        { name := name.text env.source
          types := env.typesTold type d (env.createdType? d) }

/-- The variable of a loop over elements or of a catch clause. -/
def boundVariable (env : Env) (t : Tree) : List LocalVariable :=
  match (t.field? "type").orElse fun _ => t.namedOf? "catch_type", t.field? "name" with
  | some type, some name =>
    [{ name := name.text env.source
       types :=
        if type.kind == "catch_type" then env.alternatives type else env.typesTold type t none }]
  | _, _ => []

/-- The variables that a node declares, in their order. -/
def variablesAt (env : Env) (t : Tree) : List LocalVariable :=
  match t.kind with
  | "local_variable_declaration" => env.declaratorVariables t (t.fields "declarator")
  | "resource" => env.declaratorVariables t [t]
  | "enhanced_for_statement" | "catch_formal_parameter" => env.boundVariable t
  | _ => []

/-- The variables that those among some nodes declare that are of a kind. -/
def declaredBy (env : Env) (kind : String) (nodes : List Tree) : List LocalVariable :=
  (nodes.filter fun t => t.info.named && t.kind == kind).flatMap env.variablesAt

/-- The variables that are parameters. -/
def parameterVariables (params : List Param) : List LocalVariable :=
  params.map fun p => { name := p.name, types := [p.type] }

/-- The parameters of a lambda as variables. -/
def lambdaVariables (env : Env) (lambda : Tree) : List LocalVariable :=
  (env.lambdaNames lambda).map fun x =>
    { name := x
      types := (((env.writtenTypes lambda).lookup x).filter (·.text != "var")).toList }

/-- The parameters of a lambda, or of a method or constructor in a body. -/
def ownParameters (env : Env) (t : Tree) : List LocalVariable :=
  match t.kind with
  | "lambda_expression" => env.lambdaVariables t
  | "method_declaration" | "constructor_declaration" =>
    parameterVariables (((t.field? "parameters").map env.parameters).getD [])
  | _ => []

/-- The variables of a node that are in scope in one of its children, given the children in front
of this one. A declaration is in scope in its own initializers; what is declared in one group of a
`switch` is in scope in those that follow. -/
def broughtIn (env : Env) (t : Tree) (before : List Tree) (c : Tree) : List LocalVariable :=
  match t.kind with
  | "block" | "constructor_body" | "switch_block_statement_group" | "for_statement" =>
    env.declaredBy "local_variable_declaration" before
  | "switch_block" =>
    env.declaredBy "local_variable_declaration"
      ((before.filter (·.info.named)).flatMap (·.children))
  | "local_variable_declaration" =>
    env.declaratorVariables t ((before ++ [c]).filter (·.info.field == some "declarator"))
  | "resource_specification" => env.declaredBy "resource" (before ++ [c])
  | "try_with_resources_statement" =>
    if c.info.field == some "body" then
      env.declaredBy "resource" ((before.filter (·.info.named)).flatMap (·.children))
    else []
  | "enhanced_for_statement" => if c.info.field == some "body" then env.variablesAt t else []
  | "catch_clause" => env.declaredBy "catch_formal_parameter" before
  | "method_declaration" | "constructor_declaration" =>
    if c.info.field == some "body" then env.ownParameters t else []
  | _ => []

end Env

/-- A place in a piece of code with the variables in scope there, those declared last first. -/
structure ScopedPlace where
  place : CodePlace
  scope : List LocalVariable

namespace ScopedPlace

/-- One step down, with the variables that come into scope by it. -/
inductive Enters (env : Env) : ScopedPlace → ScopedPlace → Prop where
  | child {p : ScopedPlace} (before : List Tree) (c : Tree) (after : List Tree)
      (code : p.place.node.kind ≠ "lambda_expression")
      (children : p.place.node.children = before ++ c :: after) (named : c.info.named = true) :
      Enters env p
        { place := p.place.child c
          scope := (env.broughtIn p.place.node before c).reverse ++ p.scope }
  | body {p : ScopedPlace} {c : Tree} (lambda : p.place.node.kind = "lambda_expression")
      (body : p.place.node.field? "body" = some c) :
      Enters env p
        { place := p.place.body c
          scope := (env.ownParameters p.place.node).reverse ++ p.scope }

/-- Any number of steps down. -/
def Reaches (env : Env) : ScopedPlace → ScopedPlace → Prop := Relation.ReflTransGen (Enters env)

/-- The body of a method with its parameters in scope. -/
def ofBody (params : List Param) (body : Tree) : ScopedPlace where
  place := { node := body }
  scope := (Env.parameterVariables params).reverse

/-- The declaration that a name refers to: that of the innermost variable in scope with this
name. -/
def declarationOf? (p : ScopedPlace) (x : String) : Option LocalVariable :=
  p.scope.find? (·.name == x)

variable {env : Env} {p q : ScopedPlace}

/-- A step that keeps track of scopes is a step of the walk. -/
theorem Enters.place (h : Enters env p q) : p.place.Enters q.place := by
  cases h with
  | child before c after code children named =>
    refine .child code ?_ named
    rw [children]
    exact List.mem_append_right _ List.mem_cons_self
  | body lambda body => exact .body lambda body

/-- A place reached with its scopes is one that the walk reaches. -/
theorem Reaches.place (h : Reaches env p q) : p.place.Reaches q.place := by
  induction h with
  | refl => exact .refl
  | tail _ hstep ih => exact ih.tail hstep.place

/-- Every place in a piece of code is reached with some variables in scope. -/
theorem exists_reaches {place : CodePlace} (h : p.place.Reaches place) :
    ∃ scope, Reaches env p { place, scope } := by
  induction h with
  | refl => exact ⟨p.scope, .refl⟩
  | tail _ hstep ih =>
    obtain ⟨scope, hreaches⟩ := ih
    cases hstep with
    | child code mem named =>
      obtain ⟨before, after, hchildren⟩ := List.append_of_mem mem
      exact ⟨_, hreaches.tail (.child before _ after code hchildren named)⟩
    | body lambda body => exact ⟨_, hreaches.tail (.body lambda body)⟩

end ScopedPlace

/-! ## The type that is told for a name -/

mutual

/-- The named nodes of a tree, a node before what is below it. -/
def namedNodes : Tree → List Tree
  | .node info children => .node info children :: namedNodesOf children

/-- The named nodes of those among some trees that are named. -/
def namedNodesOf : List Tree → List Tree
  | [] => []
  | t :: rest => (if t.info.named then namedNodes t else []) ++ namedNodesOf rest

end

mutual

/-- The locals of a body are those of its named nodes, one after the other. -/
theorem localsIn_eq (env : Env) : ∀ t, env.localsIn t = (namedNodes t).flatMap env.ownLocals
  | .node info children => by
    rw [Env.localsIn, namedNodes, List.flatMap_cons, localsInAll_eq env children]

/-- The same of several trees. -/
theorem localsInAll_eq (env : Env) :
    ∀ ts, env.localsInAll ts = (namedNodesOf ts).flatMap env.ownLocals
  | [] => rfl
  | t :: rest => by
    rw [Env.localsInAll, namedNodesOf, List.flatMap_append, localsInAll_eq env rest]
    split
    · rw [localsIn_eq env t]
    · rfl

end

/-- The typed variables of a method: its parameters, then the variables of its body in their order,
wherever they are declared. -/
def Env.typedVariables (env : Env) (params : List Param) (body : Tree) : List (String × TypeRef) :=
  params.map (fun p => (p.name, p.type)) ++ (namedNodes body).flatMap env.ownLocals

/-- The last entry of a name. -/
def LastOf {α : Type} (entries : List (String × α)) (x : String) (a : α) : Prop :=
  ∃ before after, entries = before ++ (x, a) :: after ∧ ∀ e ∈ after, e.1 ≠ x

/-- A lookup from the back finds the last entry of the name. -/
theorem lookup_reverse_eq_some_iff {α : Type} {entries : List (String × α)} {x : String} {a : α} :
    entries.reverse.lookup x = some a ↔ LastOf entries x a := by
  rw [List.lookup_eq_some_iff]
  constructor
  · rintro ⟨after, before, hentries, hafter⟩
    rw [List.reverse_eq_append_iff, List.reverse_cons, List.append_assoc] at hentries
    refine ⟨before.reverse, after.reverse, hentries, ?_⟩
    intro e he
    exact (bne_iff_ne.mp (hafter e (List.mem_reverse.mp he))).symm
  · rintro ⟨before, after, rfl, hafter⟩
    refine ⟨after.reverse, before.reverse, by simp, ?_⟩
    intro e he
    exact bne_iff_ne.mpr (hafter e (List.mem_reverse.mp he)).symm

/-- A lookup finds nothing exactly if no entry has the name. -/
theorem lookup_reverse_eq_none_iff {α : Type} {entries : List (String × α)} {x : String} :
    entries.reverse.lookup x = none ↔ ∀ e ∈ entries, e.1 ≠ x := by
  rw [List.lookup_eq_none_iff]
  simp only [List.mem_reverse, bne_iff_ne, ne_comm]

/-- The type that is told for a name: that of the last variable of this name that has a type, or
else of a field, or the type of this name. -/
inductive TypeTold (env : Env) (params : List Param) (body : Tree) (x : String) :
    TypeRef → Prop where
  | typed {type : TypeRef} (last : LastOf (env.typedVariables params body) x type) :
      TypeTold env params body x type
  | field {type : TypeRef} (untyped : ∀ e ∈ env.typedVariables params body, e.1 ≠ x)
      (field : env.fieldType? x = some type) : TypeTold env params body x type
  | type (untyped : ∀ e ∈ env.typedVariables params body, e.1 ≠ x)
      (noField : env.fieldType? x = none) (named : startsUppercase x = true) :
      TypeTold env params body x (env.typeNamed x)

section Told

variable {env : Env} {params : List Param} {body object : Tree} {lambdas : List LambdaAt}
  {x : String} {type : TypeRef} {r : FileReference}

/-- The variables of a body are looked up from the last one on. -/
theorem lookup_locals (env : Env) (params : List Param) (body : Tree) :
    (env.variablesOf params body).locals = (env.typedVariables params body).reverse := by
  rw [Env.variablesOf, Env.typedVariables, localsIn_eq]

/-- What is looked up for a name that no lambda has entered. -/
theorem typeTold_iff :
    TypeTold env params body x type ↔
      env.variableType? (env.variablesOf params body) x = some type ∨
        env.variableType? (env.variablesOf params body) x = none ∧ startsUppercase x = true ∧
          type = env.typeNamed x := by
  rw [Env.variableType?, lookup_locals]
  -- A variable of the body hides the field and the type of its name, even in a block that is left.
  cases hlookup : (env.typedVariables params body).reverse.lookup x with
  | some found =>
    have hlast := lookup_reverse_eq_some_iff.mp hlookup
    have hsome : ¬ ∀ e ∈ env.typedVariables params body, e.1 ≠ x := by
      rw [← lookup_reverse_eq_none_iff, hlookup]
      exact nofun
    simp only [Option.orElse_some, Option.some.injEq, reduceCtorEq, false_and, or_false]
    constructor
    · rintro (hlast' | ⟨huntyped, -⟩ | ⟨huntyped, -, -⟩)
      · have hsame := (lookup_reverse_eq_some_iff.mpr hlast').symm.trans hlookup
        exact (Option.some.inj hsame).symm
      · exact absurd huntyped hsome
      · exact absurd huntyped hsome
    · rintro rfl
      exact .typed hlast
  | none =>
    have huntyped := lookup_reverse_eq_none_iff.mp hlookup
    have hnone : ¬ LastOf (env.typedVariables params body) x type := by
      rw [← lookup_reverse_eq_some_iff, hlookup]
      exact nofun
    simp only [Option.orElse_none]
    constructor
    · rintro (hlast | ⟨-, hfield⟩ | ⟨-, hnoField, hupper⟩)
      · exact absurd hlast hnone
      · exact Or.inl hfield
      · exact Or.inr ⟨hnoField, hupper, rfl⟩
    · rintro (hfield | ⟨hnoField, hupper, rfl⟩)
      · exact .field huntyped hfield
      · exact .type huntyped hnoField hupper

/-- Of a call on a name the type is recorded that is told for it, unless a lambda around has
entered the name. -/
theorem receiverType_eq_some_iff (hkind : object.kind = "identifier")
    (hx : object.text env.source = x)
    (hr : (r.receiver, r.receiverType, r.receiverChain) =
      env.receiver (env.inLambdas (env.variablesOf params body) lambdas) object) :
    r.receiverType = some type ↔
      (env.inLambdas (env.variablesOf params body) lambdas).lambdaParam? x = none ∧
        TypeTold env params body x type := by
  rw [receiver_identifier hkind hx, variableType?_inLambdas] at hr
  rw [typeTold_iff]
  -- A lambda's parameter comes first, then a variable with a type, then the name of a type.
  cases hbound : (env.inLambdas (env.variablesOf params body) lambdas).lambdaParam? x with
  | some chain =>
    rw [hbound, Prod.mk.injEq, Prod.mk.injEq] at hr
    simp [hr.2.1]
  | none =>
    cases hvariable : env.variableType? (env.variablesOf params body) x with
    | some found =>
      rw [hbound, hvariable, Prod.mk.injEq, Prod.mk.injEq] at hr
      simp [hr.2.1]
    | none =>
      rw [hbound, hvariable] at hr
      dsimp only at hr
      by_cases hupper : startsUppercase x = true
      · rw [if_pos hupper, Prod.mk.injEq, Prod.mk.injEq] at hr
        simp [hr.2.1, hupper, eq_comm]
      · rw [if_neg hupper, Prod.mk.injEq, Prod.mk.injEq] at hr
        simp [hr.2.1, hupper]

end Told

/-! ## Where the variables in scope are declared -/

section Nodes

variable {t c body : Tree}

/-- A node is one of its own named nodes. -/
@[simp]
theorem self_mem_namedNodes (t : Tree) : t ∈ namedNodes t := by
  obtain ⟨info, children⟩ := t
  exact List.mem_cons_self

/-- The named nodes of several trees are those of the named ones among them. -/
@[simp]
theorem mem_namedNodesOf {ts : List Tree} :
    t ∈ namedNodesOf ts ↔ ∃ c ∈ ts, c.info.named = true ∧ t ∈ namedNodes c := by
  induction ts with
  | nil => simp [namedNodesOf]
  | cons c ts ih =>
    rw [namedNodesOf, List.mem_append, ih, List.exists_mem_cons_iff]
    by_cases hnamed : c.info.named = true
    · simp [hnamed]
    · simp [hnamed]

/-- A named node is the body itself or lies below a named child of it. -/
theorem mem_namedNodes_iff : t ∈ namedNodes body ↔
    t = body ∨ ∃ c ∈ body.children, c.info.named = true ∧ t ∈ namedNodes c := by
  obtain ⟨info, children⟩ := body
  rw [namedNodes, List.mem_cons, mem_namedNodesOf]
  rfl

/-- Named children of named nodes are named nodes. -/
theorem mem_namedNodes_of_child (ht : t ∈ namedNodes body) (hc : c ∈ t.children)
    (hnamed : c.info.named = true) : c ∈ namedNodes body := by
  induction body using Tree.induction with
  | h body ih =>
    rw [mem_namedNodes_iff] at ht ⊢
    obtain rfl | ⟨b, hb, hbnamed, hbelow⟩ := ht
    · exact .inr ⟨c, hc, hnamed, self_mem_namedNodes c⟩
    · exact .inr ⟨b, hb, hbnamed, ih b hb hbelow⟩

end Nodes

section Declared

variable {env : Env} {t type d : Tree} {v : LocalVariable}

/-- A declaration records each of its names with the written type, or with the created one if that
is `var`. -/
theorem mem_declaredLocals_iff (htype : t.field? "type" = some type) {x : String}
    {recorded : TypeRef} : (x, recorded) ∈ env.declaredLocals t ↔
      ∃ d ∈ if t.kind == "resource" then [t] else t.fields "declarator",
        ∃ name, d.field? "name" = some name ∧ name.text env.source = x ∧
          (if (env.typeRef type).text == "var" then env.createdType? d
            else some (env.typeRef type)) = some recorded := by
  unfold Env.declaredLocals
  rw [htype, List.mem_filterMap]
  refine exists_congr fun d => and_congr_right fun _ => ?_
  unfold Env.createdType?
  cases d.field? "name" with
  | none => simp
  | some name =>
    -- With `var` the type is that of the object created, if there is one.
    by_cases hvar : ((env.typeRef type).text == "var") = true
    · cases d.field? "value" with
      | none => simp [hvar]
      | some value =>
        cases hcreated : value.field? "type" with
        | none => simp [hvar, hcreated]
        | some created => simp [hvar, hcreated, and_left_comm]
    · simp [hvar]

/-- For a declarator for which a type is told, one is recorded. -/
theorem exists_declaredType (h : env.typesTold type d (env.createdType? d) ≠ []) :
    ∃ recorded, (if (env.typeRef type).text == "var" then env.createdType? d
      else some (env.typeRef type)) = some recorded := by
  unfold Env.typesTold at h
  split at h
  next hvar =>
    rw [if_pos hvar]
    cases hcreated : env.createdType? d with
    | none =>
      rw [hcreated] at h
      exact absurd rfl h
    | some created => exact ⟨created, rfl⟩
  next hvar => exact ⟨_, if_neg hvar⟩

/-- A declaration puts each of its names in scope with its types. -/
theorem mem_declaratorVariables_iff {declarators : List Tree} :
    v ∈ env.declaratorVariables t declarators ↔
      ∃ type, t.field? "type" = some type ∧ ∃ d ∈ declarators, ∃ name, d.field? "name" = some name ∧
        { name := name.text env.source
          types := env.typesTold type d (env.createdType? d) } = v := by
  unfold Env.declaratorVariables
  cases t.field? "type" with
  | none => simp
  | some type => simp

/-- With more declarators no variable is lost. -/
theorem mem_declaratorVariables_of_subset {declarators wider : List Tree}
    (hsub : declarators ⊆ wider) (hv : v ∈ env.declaratorVariables t declarators) :
    v ∈ env.declaratorVariables t wider := by
  obtain ⟨type, htype, d, hd, hname⟩ := mem_declaratorVariables_iff.mp hv
  exact mem_declaratorVariables_iff.mpr ⟨type, htype, d, hsub hd, hname⟩

/-- For a variable for which a declarator tells a type, one is recorded. -/
theorem exists_of_declaratorVariables
    (hv : v ∈ env.declaratorVariables t
      (if t.kind == "resource" then [t] else t.fields "declarator"))
    (htypes : v.types ≠ []) : ∃ recorded, (v.name, recorded) ∈ env.declaredLocals t := by
  obtain ⟨type, htype, d, hd, name, hname, rfl⟩ := mem_declaratorVariables_iff.mp hv
  obtain ⟨recorded, hrecorded⟩ := exists_declaredType htypes
  exact ⟨recorded, (mem_declaredLocals_iff htype).mpr ⟨d, hd, name, hname, rfl, hrecorded⟩⟩

/-- The first of the alternatives between which a catch clause does not distinguish is taken. -/
theorem exists_firstNamed?_of_alternatives {list : Tree} (h : env.alternatives list ≠ []) :
    ∃ c, list.firstNamed? = some c ∧ (env.typeRef c).text ≠ "var" := by
  unfold Env.alternatives at h
  split at h
  next => exact absurd rfl h
  next htold =>
    unfold Tree.firstNamed?
    cases hchildren : list.namedChildren with
    | nil => simp [Tree.parts, hchildren] at h
    | cons c rest =>
      refine ⟨c, rfl, ?_⟩
      intro hvar
      refine htold (List.any_eq_true.mpr ⟨c, ?_, beq_iff_eq.mpr hvar⟩)
      rw [hchildren]
      exact List.mem_cons_self

/-- A variable bound by a pattern is recorded if it has a type. -/
theorem exists_of_boundVariable (hv : v ∈ env.boundVariable t) (htypes : v.types ≠ []) :
    ∃ recorded, (v.name, recorded) ∈ (env.boundLocal t).toList := by
  unfold Env.boundVariable at hv
  split at hv
  next type name htype hname =>
    rw [List.mem_singleton] at hv
    subst hv
    dsimp only at htypes ⊢
    have hbound : env.boundLocal t =
        (if type.kind == "catch_type" then type.firstNamed? else some type).bind fun u =>
          if (env.typeRef u).text == "var" then none
          else some (name.text env.source, env.typeRef u) := by
      unfold Env.boundLocal
      rw [htype, hname]
      -- A catch parameter has several types, of which only the first is recorded.
      by_cases hcatch : type.kind = "catch_type"
      · simp [hcatch]
      · simp [hcatch]
    rw [hbound]
    by_cases hcatch : (type.kind == "catch_type") = true
    · rw [if_pos hcatch] at htypes
      obtain ⟨c, hc, hnotVar⟩ := exists_firstNamed?_of_alternatives htypes
      refine ⟨env.typeRef c, ?_⟩
      rw [if_pos hcatch, hc, Option.bind_some, if_neg (by simpa using hnotVar)]
      exact List.mem_singleton_self _
    · rw [if_neg hcatch] at htypes
      have hnotVar : ¬ ((env.typeRef type).text == "var") = true := by
        intro hvar
        rw [Env.typesTold, if_pos hvar] at htypes
        exact htypes rfl
      refine ⟨env.typeRef type, ?_⟩
      rw [if_neg hcatch, Option.bind_some, if_neg hnotVar]
      exact List.mem_singleton_self _
  next => cases hv

/-- Of a variable for which its declaration tells a type, one is recorded. -/
theorem exists_ownLocals (hv : v ∈ env.variablesAt t) (htypes : v.types ≠ []) :
    ∃ recorded, (v.name, recorded) ∈ env.ownLocals t := by
  unfold Env.variablesAt at hv
  split at hv
  next hkind =>
    -- Declarations and resources record what they declare.
    have hown : env.ownLocals t = env.declaredLocals t := by simp only [Env.ownLocals, hkind]
    rw [hown]
    exact exists_of_declaratorVariables (by rwa [hkind]) htypes
  next hkind =>
    have hown : env.ownLocals t = env.declaredLocals t := by simp only [Env.ownLocals, hkind]
    rw [hown]
    exact exists_of_declaratorVariables (by rwa [hkind]) htypes
  next hkind =>
    -- Patterns and catch parameters record the one variable that they bind.
    have hown : env.ownLocals t = (env.boundLocal t).toList := by simp only [Env.ownLocals, hkind]
    rw [hown]
    exact exists_of_boundVariable hv htypes
  next hkind =>
    have hown : env.ownLocals t = (env.boundLocal t).toList := by simp only [Env.ownLocals, hkind]
    rw [hown]
    exact exists_of_boundVariable hv htypes
  next => cases hv

end Declared

/-- What a variable in scope at a place is: one for which no type is told, or else one for which
a type is recorded, or a parameter of a lambda or of a method in the body. -/
inductive Origin (env : Env) (params : List Param) (body : Tree) (p : CodePlace)
    (v : LocalVariable) : Prop where
  | untold (untold : v.types = [])
  | typed {type : TypeRef} (entry : (v.name, type) ∈ env.typedVariables params body)
  | ofLambda {l : LambdaAt} (inside : l ∈ p.lambdas) (param : v ∈ env.lambdaVariables l.node)
  | ofMethod {t : Tree} (inside : t ∈ p.around) (callable : Env.isCallable t.kind = true)
      (param : v ∈ env.ownParameters t)

/-- A place in a body: its node is a token or one whose variables are looked at, and of the
variables in scope it is known what they are. -/
structure Scoped (env : Env) (params : List Param) (body : Tree) (p : ScopedPlace) : Prop where
  grammatical : p.place.node.Grammatical
  node : p.place.node.children = [] ∨ p.place.node ∈ namedNodes body
  scope : ∀ v ∈ p.scope, Origin env params body p.place v

section Origin

variable {env : Env} {params : List Param} {body t c : Tree} {p q : CodePlace} {v : LocalVariable}

/-- Where a variable comes from does not change further down. -/
theorem Origin.mono (h : Origin env params body p v) (hlambdas : p.lambdas ⊆ q.lambdas)
    (haround : p.around ⊆ q.around) : Origin env params body q v := by
  cases h with
  | untold huntold => exact .untold huntold
  | typed hentry => exact .typed hentry
  | ofLambda hinside hparam => exact .ofLambda (hlambdas hinside) hparam
  | ofMethod hinside hcallable hparam => exact .ofMethod (haround hinside) hcallable hparam

/-- A variable put in scope at a named node comes from the body. -/
theorem Origin.of_variablesAt (ht : t ∈ namedNodes body) (hv : v ∈ env.variablesAt t) :
    Origin env params body p v := by
  by_cases htypes : v.types = []
  · exact .untold htypes
  · obtain ⟨type, hentry⟩ := exists_ownLocals hv htypes
    exact .typed (List.mem_append_right _ (List.mem_flatMap.mpr ⟨t, ht, hentry⟩))

/-- So does one that is declared by the nodes of a list. -/
theorem Origin.of_declaredBy {kind : String} {nodes : List Tree}
    (hnodes : ∀ u ∈ nodes, u.info.named = true → u ∈ namedNodes body)
    (hv : v ∈ env.declaredBy kind nodes) : Origin env params body p v := by
  obtain ⟨u, hu, hv⟩ := List.mem_flatMap.mp hv
  obtain ⟨hu, hnamed⟩ := List.mem_filter.mp hu
  rw [Bool.and_eq_true] at hnamed
  exact .of_variablesAt (hnodes u hu hnamed.1) hv

/-- The parameters of a lambda come from a lambda around its body. -/
theorem Origin.of_ownParameters (hcallable : Env.isCallable p.node.kind = true)
    (hv : v ∈ if c.info.field == some "body" then env.ownParameters p.node else []) :
    Origin env params body (p.child c) v := by
  split at hv
  · exact .ofMethod List.mem_cons_self hcallable hv
  · cases hv

/-- What comes into scope by a step down is declared in front of it. -/
theorem Origin.of_broughtIn {before after : List Tree} (ht : p.node ∈ namedNodes body)
    (hchildren : p.node.children = before ++ c :: after)
    (hv : v ∈ env.broughtIn p.node before c) : Origin env params body (p.child c) v := by
  have hbefore : ∀ u ∈ before, u ∈ p.node.children := fun u hu => by
    rw [hchildren]
    exact List.mem_append_left _ hu
  have hupTo : ∀ u ∈ before ++ [c], u ∈ p.node.children := fun u hu => by
    rw [hchildren, List.append_cons]
    exact List.mem_append_left _ hu
  have hchild : ∀ u ∈ p.node.children, u.info.named = true → u ∈ namedNodes body :=
    fun u hu hnamed => mem_namedNodes_of_child ht hu hnamed
  -- A switch brings in what stands in its earlier groups, two levels down.
  have hgrandchild : ∀ u ∈ (before.filter (·.info.named)).flatMap (·.children),
      u.info.named = true → u ∈ namedNodes body := by
    intro u hu hnamed
    obtain ⟨s, hs, hu⟩ := List.mem_flatMap.mp hu
    obtain ⟨hs, hsnamed⟩ := List.mem_filter.mp hs
    exact mem_namedNodes_of_child (hchild s (hbefore s hs) hsnamed) hu hnamed
  -- One case to every kind of node that brings variables in.
  unfold Env.broughtIn at hv
  split at hv
  · exact .of_declaredBy (fun u hu => hchild u (hbefore u hu)) hv
  · exact .of_declaredBy (fun u hu => hchild u (hbefore u hu)) hv
  · exact .of_declaredBy (fun u hu => hchild u (hbefore u hu)) hv
  · exact .of_declaredBy (fun u hu => hchild u (hbefore u hu)) hv
  · exact .of_declaredBy hgrandchild hv
  next hkind =>
    refine .of_variablesAt ht (?_ : v ∈ env.variablesAt p.node)
    unfold Env.variablesAt
    rw [hkind]
    refine mem_declaratorVariables_of_subset (fun d hd => ?_) hv
    obtain ⟨hd, hfield⟩ := List.mem_filter.mp hd
    exact List.mem_filter.mpr ⟨hupTo d hd, hfield⟩
  · exact .of_declaredBy (fun u hu => hchild u (hupTo u hu)) hv
  · split at hv
    · exact .of_declaredBy hgrandchild hv
    · cases hv
  · split at hv
    · exact .of_variablesAt ht hv
    · cases hv
  · exact .of_declaredBy (fun u hu => hchild u (hbefore u hu)) hv
  next hkind => exact .of_ownParameters (by rw [hkind]; rfl) hv
  next hkind => exact .of_ownParameters (by rw [hkind]; rfl) hv
  · cases hv

/-- At the body itself only the parameters are in scope. -/
theorem Scoped.ofBody (hbody : body.Grammatical) :
    Scoped env params body (.ofBody params body) where
  grammatical := hbody
  node := .inr (self_mem_namedNodes body)
  scope := by
    intro v hv
    obtain ⟨p, hp, rfl⟩ := List.mem_map.mp (List.mem_reverse.mp hv)
    exact .typed (List.mem_append_left _ (List.mem_map.mpr ⟨p, hp, rfl⟩))

/-- Every step of the walk keeps the scopes in order. -/
theorem Scoped.enters {p q : ScopedPlace} (h : Scoped env params body p)
    (hstep : ScopedPlace.Enters env p q) : Scoped env params body q := by
  cases hstep with
  | child before c after code hchildren hnamed =>
    -- New variables come from the node or from siblings before the child.
    have hc : c ∈ p.place.node.children := by
      rw [hchildren]
      exact List.mem_append_right _ List.mem_cons_self
    have hnode : p.place.node ∈ namedNodes body :=
      h.node.resolve_left (List.ne_nil_of_mem hc)
    refine ⟨h.grammatical.child hc, .inr (mem_namedNodes_of_child hnode hc hnamed), ?_⟩
    intro v hv
    rcases List.mem_append.mp hv with hv | hv
    · exact .of_broughtIn hnode hchildren (List.mem_reverse.mp hv)
    · exact (h.scope v hv).mono (fun _ hl => hl) (fun _ ht => List.mem_cons_of_mem _ ht)
  | @body c lambda hbody =>
    -- New variables are the parameters of the lambda.
    have hc : c ∈ p.place.node.children := Tree.mem_children_of_field? hbody
    have hnode : p.place.node ∈ namedNodes body :=
      h.node.resolve_left (List.ne_nil_of_mem hc)
    have hgrammatical : c.Grammatical := h.grammatical.child hc
    refine ⟨hgrammatical, ?_, ?_⟩
    · by_cases hnamed : c.info.named = true
      · exact .inr (mem_namedNodes_of_child hnode hc hnamed)
      · exact .inl (hgrammatical.shaped.token (by simpa using hnamed))
    · intro v hv
      rcases List.mem_append.mp hv with hv | hv
      · refine .ofLambda List.mem_cons_self ?_
        unfold Env.ownParameters at hv
        rw [lambda] at hv
        exact List.mem_reverse.mp hv
      · exact (h.scope v hv).mono (fun _ hl => List.mem_cons_of_mem _ hl)
          (fun _ ht => List.mem_cons_of_mem _ ht)

/-- At every place in a body it is known what the variables in scope are. -/
theorem Scoped.of_reaches {p : ScopedPlace} (hbody : body.Grammatical)
    (h : ScopedPlace.Reaches env (.ofBody params body) p) : Scoped env params body p := by
  induction h with
  | refl => exact .ofBody hbody
  | tail _ hstep ih => exact ih.enters hstep

end Origin

/-! ## The recorded type -/

/-- A lambda enters each parameter for which it writes a type. -/
theorem lambdaParam?_inLambdas_of_written {env : Env} {vars : Variables} {lambdas : List LambdaAt}
    {l : LambdaAt} {x : String} {type : TypeRef} (hl : l ∈ lambdas)
    (hwritten : (env.writtenTypes l.node).lookup x = some type) :
    ((env.inLambdas vars lambdas).lambdaParam? x).isSome := by
  -- On the lambdas around, from the inside out.
  induction lambdas with
  | nil => cases hl
  | cons k outer ih =>
    rw [lambdaParam?_inLambdas_cons, Option.isSome_or, Bool.or_eq_true]
    rcases List.mem_cons.mp hl with rfl | hl
    · rw [lookup_lambdaParams_of_written hwritten]
      exact .inl rfl
    · exact .inr (ih hl)

/-- For a parameter of a lambda for which a type is told, one is written. -/
theorem exists_written_of_lambdaVariables {env : Env} {lambda : Tree} {v : LocalVariable}
    (hv : v ∈ env.lambdaVariables lambda) (htypes : v.types ≠ []) :
    ∃ type, (env.writtenTypes lambda).lookup v.name = some type := by
  obtain ⟨x, -, rfl⟩ := List.mem_map.mp hv
  cases hwritten : (env.writtenTypes lambda).lookup x with
  | none => simp [hwritten] at htypes
  | some type => exact ⟨type, rfl⟩

/-- What is told for a name that is declared with a type, other than a parameter of a method in the
body, is the type of the last variable of this name with a type, if no lambda has entered it. -/
theorem Origin.lastOf {env : Env} {params : List Param} {body : Tree} {p : CodePlace}
    {v : LocalVariable} {type : TypeRef} (h : Origin env params body p v) (htypes : v.types ≠ [])
    (houter : ∀ t ∈ p.around, Env.isCallable t.kind = true → v ∉ env.ownParameters t)
    (hunbound :
      (env.inLambdas (env.variablesOf params body) p.lambdas).lambdaParam? v.name = none)
    (htold : TypeTold env params body v.name type) :
    LastOf (env.typedVariables params body) v.name type := by
  cases h with
  | untold huntold => exact absurd huntold htypes
  | typed hentry =>
    -- A field or a type of the name decides only where the body has no variable of it.
    cases htold with
    | typed hlast => exact hlast
    | field huntyped => exact absurd rfl (huntyped _ hentry)
    | type huntyped => exact absurd rfl (huntyped _ hentry)
  | ofLambda hinside hparam =>
    obtain ⟨written, hwritten⟩ := exists_written_of_lambdaVariables hparam htypes
    have hbound :
        ((env.inLambdas (env.variablesOf params body) p.lambdas).lambdaParam? v.name).isSome :=
      lambdaParam?_inLambdas_of_written hinside hwritten
    rw [hunbound] at hbound
    cases hbound
  | ofMethod hinside hcallable hparam => exact absurd hparam (houter _ hinside hcallable)

/-- The references of a body are those made at its places, each reached with some variables in
scope. -/
theorem mem_bodyReferences_iff {env : Env} {params : List Param} {body : Tree} {r : FileReference} :
    r ∈ env.bodyReferences params (some body) ↔
      ∃ p, ScopedPlace.Reaches env (.ofBody params body) p ∧
        env.reference? (env.inLambdas (env.variablesOf params body) p.place.lambdas)
          p.place.around p.place.node = some r := by
  have hplaces : r ∈ env.bodyReferences params (some body) ↔
      ∃ place, CodePlace.Reaches { node := body } place ∧
        env.reference? (env.inLambdas (env.variablesOf params body) place.lambdas) place.around
          place.node = some r :=
    mem_references_iff { node := body }
  rw [hplaces]
  constructor
  · rintro ⟨place, hplace, hmade⟩
    obtain ⟨scope, hreaches⟩ :
        ∃ scope, ScopedPlace.Reaches env (.ofBody params body) { place, scope } :=
      ScopedPlace.exists_reaches hplace
    exact ⟨_, hreaches, hmade⟩
  · rintro ⟨p, hreaches, hmade⟩
    exact ⟨p.place, hreaches.place, hmade⟩

/-- The references in the body of a method are those made at the places in it, each reached with
the variables in scope there. Of a call or a method reference on a name that refers to one of them,
what is recorded is a type that this one's declaration tells, or no type, exactly if a lambda around
has entered the name or the type told for it is such a type. If the declaration tells any type and
is not that of a parameter of a method in the body, what is recorded is the type of the last
variable of this name in the whole body, in scope or not, and never that of a field. -/
theorem local_receiver_type_iff (env : Env) (params : List Param) (body : Tree) :
    (∀ r, r ∈ env.bodyReferences params (some body) ↔
      ∃ p, ScopedPlace.Reaches env (.ofBody params body) p ∧
        env.reference? (env.inLambdas (env.variablesOf params body) p.place.lambdas)
          p.place.around p.place.node = some r) ∧
    ∀ p, ScopedPlace.Reaches env (.ofBody params body) p → ∀ object r,
      receiverNode? p.place.node = some object →
      env.reference? (env.inLambdas (env.variablesOf params body) p.place.lambdas)
        p.place.around p.place.node = some r →
      r.kind ≠ .new → object.kind = "identifier" →
      ∀ x d, object.text env.source = x → p.declarationOf? x = some d →
        ((∀ type, r.receiverType = some type → type ∈ d.types) ↔
          ((env.inLambdas (env.variablesOf params body) p.place.lambdas).lambdaParam? x).isSome ∨
            ∀ type, TypeTold env params body x type → type ∈ d.types) ∧
        (body.Grammatical → d.types ≠ [] →
          (∀ t ∈ p.place.around, Env.isCallable t.kind = true → d ∉ env.ownParameters t) →
            ∀ type, r.receiverType = some type →
              LastOf (env.typedVariables params body) x type) := by
  refine ⟨fun r => mem_bodyReferences_iff, ?_⟩
  intro p hreaches object r hobject hmade hnew hkind x d hx hdeclared
  have hreceiver := receiver_of_reference hobject hmade
  rw [if_neg hnew] at hreceiver
  simp only [receiverType_eq_some_iff hkind hx hreceiver]
  constructor
  · cases (env.inLambdas (env.variablesOf params body) p.place.lambdas).lambdaParam? x with
    | some chain => simp
    | none => simp
  · rintro hbody htypes houter type ⟨hunbound, htold⟩
    obtain rfl : d.name = x := by simpa using List.find?_some hdeclared
    have horigin := (Scoped.of_reaches hbody hreaches).scope d
      (List.mem_of_find?_eq_some hdeclared)
    exact horigin.lastOf htypes houter hunbound htold

/-! A method with two blocks, each with a variable `x` and a call on it. -/

/-- The text of the class. -/
def blocksSource : String := "class A{void m(){{B x=null;x.go();}{C x=null;x.go();}}}"

/-- The names in the class. -/
def blocksEnv : Env :=
  { file :=
      { source := blocksSource
        package := ""
        imports := []
        known := [("A", "A")] }
    types :=
      [{ qualname := "A"
         kind := .ofClass
         typeParams := []
         fields := [] }] }

/-- The type of a variable. -/
def typeNode (startByte : Nat) : Tree :=
  namedNode "type_identifier" startByte (startByte + 1) (some "type")

/-- The declaration of a variable. -/
def declarationNode (startByte : Nat) : Tree :=
  namedNode "local_variable_declaration" startByte (startByte + 9) none
    [typeNode startByte,
      namedNode "variable_declarator" (startByte + 2) (startByte + 8) (some "declarator")
        [namedNode "identifier" (startByte + 2) (startByte + 3) (some "name"),
          namedNode "null_literal" (startByte + 4) (startByte + 8) (some "value")]]

/-- The call on it. -/
def callOnVariable (startByte : Nat) : Tree :=
  namedNode "method_invocation" startByte (startByte + 6) none
    [namedNode "identifier" startByte (startByte + 1) (some "object"),
      namedNode "identifier" (startByte + 2) (startByte + 4) (some "name"),
      namedNode "argument_list" (startByte + 4) (startByte + 6) (some "arguments")]

/-- The statement of the call. -/
def statementNode (startByte : Nat) : Tree :=
  namedNode "expression_statement" startByte (startByte + 7) none [callOnVariable startByte]

/-- One of the blocks. -/
def blockNode (startByte : Nat) : Tree :=
  namedNode "block" startByte (startByte + 18) none
    [declarationNode (startByte + 1), statementNode (startByte + 10)]

/-- The body of the method. -/
def blocksBody : Tree := namedNode "block" 16 54 (some "body") [blockNode 17, blockNode 35]

/-- The variable of a block. -/
def blockVariable (startByte : Nat) : LocalVariable where
  name := "x"
  types := [blocksEnv.typeRef (typeNode (startByte + 1))]

/-- The call in a block, with the variable of this block in scope. -/
def callInBlock (startByte : Nat) : ScopedPlace where
  place :=
    { node := callOnVariable (startByte + 10)
      around := [statementNode (startByte + 10), blockNode startByte, blocksBody] }
  scope := [blockVariable startByte]

/-- The walk reaches the call in the first block. -/
theorem reaches_callInBlock_first :
    ScopedPlace.Reaches blocksEnv (.ofBody [] blocksBody) (callInBlock 17) :=
  .head (.child [] (blockNode 17) [blockNode 35] (by decide) rfl rfl) <|
    .head (.child [declarationNode 18] (statementNode 27) [] (by decide) rfl rfl) <|
      .single (.child [] (callOnVariable 27) [] (by decide) rfl rfl)

/-- The walk reaches the call in the last block. -/
theorem reaches_callInBlock_last :
    ScopedPlace.Reaches blocksEnv (.ofBody [] blocksBody) (callInBlock 35) :=
  .head (.child [blockNode 17] (blockNode 35) [] (by decide) rfl rfl) <|
    .head (.child [declarationNode 36] (statementNode 45) [] (by decide) rfl rfl) <|
      .single (.child [] (callOnVariable 45) [] (by decide) rfl rfl)

/-- Whichever block a call is in, the type of the variable of the last one is told. -/
theorem typeTold_blocks_iff {type : TypeRef} :
    TypeTold blocksEnv [] blocksBody "x" type ↔ type = blocksEnv.typeRef (typeNode 36) := by
  have hlookup : blocksEnv.variableType? (blocksEnv.variablesOf [] blocksBody) "x" =
      some (blocksEnv.typeRef (typeNode 36)) := rfl
  rw [typeTold_iff, hlookup]
  constructor
  · rintro (htype | ⟨hnone, -⟩)
    · exact (Option.some.inj htype).symm
    · cases hnone
  · rintro rfl
    exact .inl rfl

/-- The call in a block is recorded with that type. -/
theorem exists_recorded_inBlock (startByte : Nat)
    (hobject : (namedNode "identifier" (startByte + 10) (startByte + 11) (some "object")).text
      blocksSource = "x") :
    ∃ r, blocksEnv.reference? (blocksEnv.variablesOf [] blocksBody)
        (callInBlock startByte).place.around (callInBlock startByte).place.node = some r ∧
      r.kind = .call ∧ r.receiverType = some (blocksEnv.typeRef (typeNode 36)) := by
  obtain ⟨r, hr⟩ : ∃ r, blocksEnv.reference? (blocksEnv.variablesOf [] blocksBody)
      (callInBlock startByte).place.around (callInBlock startByte).place.node = some r := ⟨_, rfl⟩
  have hkind : r.kind = .call := by
    cases hr
    rfl
  have hreceiverNode : receiverNode? (callOnVariable (startByte + 10)) =
      some (namedNode "identifier" (startByte + 10) (startByte + 11) (some "object")) := rfl
  have hreceiver := receiver_of_reference hreceiverNode hr
  have hnew : r.kind ≠ .new := by
    rw [hkind]
    exact nofun
  rw [if_neg hnew] at hreceiver
  have htype : r.receiverType = some (blocksEnv.typeRef (typeNode 36)) ↔
      (blocksEnv.inLambdas (blocksEnv.variablesOf [] blocksBody) []).lambdaParam? "x" = none ∧
        TypeTold blocksEnv [] blocksBody "x" (blocksEnv.typeRef (typeNode 36)) :=
    receiverType_eq_some_iff rfl hobject hreceiver
  exact ⟨r, hr, hkind, htype.mpr ⟨rfl, typeTold_blocks_iff.mpr rfl⟩⟩

/-- The call in the last block is recorded with the type of the variable of this block, which is
also the last one of its name. -/
theorem local_receiver_type_last_block :
    ∃ r ∈ blocksEnv.bodyReferences [] (some blocksBody), r.kind = .call ∧
      (callInBlock 35).declarationOf? "x" = some (blockVariable 35) ∧
      (∀ type, r.receiverType = some type → type ∈ (blockVariable 35).types) ∧
      ∃ type, r.receiverType = some type ∧ type.text = "C" ∧
        LastOf (blocksEnv.typedVariables [] blocksBody) "x" type := by
  obtain ⟨hreferences, hreceiver⟩ := local_receiver_type_iff blocksEnv [] blocksBody
  have hobject : (namedNode "identifier" 45 46 (some "object")).text blocksSource = "x" := by
    decide
  obtain ⟨r, hr, hkind, htype⟩ := exists_recorded_inBlock 35 hobject
  have hnew : r.kind ≠ .new := by
    rw [hkind]
    exact nofun
  obtain ⟨hverdict, hlast⟩ := hreceiver _ reaches_callInBlock_last _ r rfl hr hnew rfl "x"
    (blockVariable 35) hobject rfl
  refine ⟨r, (hreferences r).mpr ⟨_, reaches_callInBlock_last, hr⟩, hkind, rfl, ?_, _, htype,
    by decide, ?_⟩
  · refine hverdict.mpr (.inr fun type htold => ?_)
    rw [typeTold_blocks_iff.mp htold]
    exact List.mem_singleton_self _
  · have houter : ∀ t ∈ (callInBlock 35).place.around, Env.isCallable t.kind = false := by decide
    refine hlast (by decide) (List.cons_ne_nil _ _) ?_ _ htype
    intro t ht hcallable
    rw [houter t ht] at hcallable
    cases hcallable

/-- The call in the first block, whose variable is another one, is recorded with the type of the
variable of the last block, too. -/
theorem sibling_block_decides :
    ∃ p, ScopedPlace.Reaches blocksEnv (.ofBody [] blocksBody) p ∧
      ∃ d, p.declarationOf? "x" = some d ∧ d.types.map (·.text) = ["B"] ∧
        ∃ r ∈ blocksEnv.bodyReferences [] (some blocksBody),
          blocksEnv.reference? (blocksEnv.inLambdas (blocksEnv.variablesOf [] blocksBody)
              p.place.lambdas) p.place.around p.place.node = some r ∧
            ∃ object, receiverNode? p.place.node = some object ∧ object.kind = "identifier" ∧
              object.text blocksEnv.source = "x" ∧ r.receiverType.map (·.text) = some "C" := by
  have hobject : (namedNode "identifier" 27 28 (some "object")).text blocksSource = "x" := by
    decide
  obtain ⟨r, hr, -, htype⟩ := exists_recorded_inBlock 17 hobject
  refine ⟨_, reaches_callInBlock_first, blockVariable 17, rfl, by decide, r,
    mem_bodyReferences_iff.mpr ⟨_, reaches_callInBlock_first, hr⟩, hr, _, rfl, rfl, hobject, ?_⟩
  rw [htype]
  decide

end JavaAtlas.Java
