import JavaAtlas.Proofs.Index.Enclosing
import JavaAtlas.Proofs.Java.Visits

namespace JavaAtlas.Java

/-! # Every call is found once

The references of a file are told apart by the nodes that make them: calls, creations of objects,
method references, calls of another constructor, and constants of an enum. Each of them makes
exactly one reference if it stands in code, and nothing else makes one, although the walk goes
through types, members and code by different ways.

* `reference?_makes`: a node of code makes the one reference that it should, or none;
* `matches_code`, `matches_memberOf`: the same for a piece of code and for a member;
* `matches_symbols`: and for a type, by induction on its nodes;
* `references_at_sites`: the references of a file are those of its sites, in the order of the tree;
* `call_beside_body_lost`: of a lambda only the body is gone through, even if it has more.
-/

/-! ## Sites -/

/-- A node of code makes a reference, where `owner` is the recorded type around it. -/
def refers (owner t : Tree) : Bool :=
  match t.kind with
  | "method_invocation" => (t.field? "name").isSome
  | "object_creation_expression" => (t.field? "type").isSome
  | "method_reference" =>
    t.children.getLast?.any fun last => last.kind == "new" || last.kind == "identifier"
  | "explicit_constructor_invocation" =>
    (t.field? "constructor").any fun keyword =>
      keyword.kind == "this" || keyword.kind == "super" && owner.writesSuperclass
  | _ => false

/-- A node makes a reference by itself: it is a constant of an enum, or a node of code that does. -/
def Visit.isSite (v : Visit) : Bool :=
  match v.role with
  | .member _ => v.node.kind == "enum_constant"
  | .code owner => refers owner v.node
  | _ => false

/-- The nodes of a file that make references, in the order of the tree. -/
def sites (inside : Tree → Nat → Bool) (root : Tree) : List Visit :=
  (visits inside .file root).filter (·.isSite)

/-- The kind of the reference that a node makes, and where it stands. -/
def mark? (t : Tree) : Option (RefKind × Tree) :=
  match t.kind with
  | "enum_constant" => (t.field? "name").map (.new, ·)
  | "method_invocation" => (t.field? "name").map (.call, ·)
  | "object_creation_expression" => (t.field? "type").map (.new, ·)
  | "method_reference" =>
    t.children.getLast?.map fun last => (if last.kind == "new" then .new else .methodRef, last)
  | "explicit_constructor_invocation" => (t.field? "constructor").map (.new, ·)
  | _ => none

/-- A reference is the one that a node makes. What is called by name has the name that is
written. -/
def Makes (source : String) (t : Tree) (r : FileReference) : Prop :=
  ∃ mark, mark? t = some (r.kind, mark) ∧ r.line = mark.startLine ∧
    r.startByte = mark.info.startByte ∧ r.endByte = mark.info.endByte ∧
    (r.kind ≠ .new → r.name = mark.text source)

/-- The references are those of the sites among some nodes, one by one. -/
def Matches (source : String) (vs : List Visit) (rs : List FileReference) : Prop :=
  List.Forall₂ (fun v r => Makes source v.node r) (vs.filter (·.isSite)) rs

section Matches

variable {source : String} {vs vs' : List Visit} {rs rs' : List FileReference} {v : Visit}

/-- No visits match no references. -/
theorem Matches.nil : Matches source [] [] := List.Forall₂.nil

/-- Visits and references that match do so together with more that match. -/
theorem Matches.append (h : Matches source vs rs) (h' : Matches source vs' rs') :
    Matches source (vs ++ vs') (rs ++ rs') := by
  unfold Matches
  rw [List.filter_append]
  exact List.rel_append h h'

/-- A visit that is no site makes no reference. -/
theorem Matches.cons_of_not_site (hv : v.isSite = false) (h : Matches source vs rs) :
    Matches source (v :: vs) rs := by
  unfold Matches
  rw [List.filter_cons_of_neg (by simp [hv])]
  exact h

/-- A visit that is a site makes one reference. -/
theorem Matches.cons_of_site {r : FileReference} (hv : v.isSite = true)
    (hr : Makes source v.node r) (h : Matches source vs rs) :
    Matches source (v :: vs) (r :: rs) := by
  unfold Matches
  rw [List.filter_cons_of_pos hv]
  exact .cons hr h

/-- Below which child a node stands plays no part. -/
theorem Matches.below (h : Matches source vs rs) (i : Nat) :
    Matches source (vs.map (·.below i)) rs := by
  unfold Matches
  rw [List.filter_map, List.forall₂_map_left_iff]
  exact h

/-- What matches child by child matches for all children. -/
theorem Matches.flatMap {f : Tree × Nat → List Visit} {g : Tree → List FileReference}
    (ts : List Tree) (k : Nat) (h : ∀ c i, (c, i) ∈ ts.zipIdx k → Matches source (f (c, i)) (g c)) :
    Matches source ((ts.zipIdx k).flatMap f) (ts.flatMap g) := by
  induction ts generalizing k with
  | nil => exact .nil
  | cons c rest ih =>
    rw [List.zipIdx_cons] at h ⊢
    rw [List.flatMap_cons, List.flatMap_cons]
    exact (h c k List.mem_cons_self).append
      (ih (k + 1) fun d i hd => h d i (List.mem_cons_of_mem _ hd))

end Matches

/-! ## Parts of a node -/

section Parts

variable {source name : String} {ρ r : Role} {t : Tree}

/-- The part of a node in a field is gone through once. -/
theorem matches_part (f : Tree → List FileReference)
    (hrole : ∀ i c, t.place? name = some i → ρ.child? bodyOnly t i c = some r)
    (h : ∀ c, t.field? name = some c → Matches source (visits bodyOnly r c) (f c)) :
    Matches source
      ((t.place? name).toList.flatMap fun i =>
        (t.children[i]?).toList.flatMap (visitsAt bodyOnly ρ t i))
      (((t.field? name).map f).getD []) := by
  cases hfield : t.field? name with
  | none =>
    rw [Tree.place?_eq_none_of_field? hfield]
    exact .nil
  | some c =>
    obtain ⟨i, hplace, hget⟩ := Tree.exists_place?_of_field? hfield
    simp only [hplace, hget, Option.toList_some, List.flatMap_singleton,
      visitsAt_of_some (hrole i c hplace)]
    exact (h c hfield).below i

/-- If only one part of a node counts, nothing else below the node does. -/
theorem matches_onlyPart (f : Tree → List FileReference)
    (hrole : ∀ i c, ρ.child? bodyOnly t i c = if t.place? name = some i then some r else none)
    (h : ∀ c, t.field? name = some c → Matches source (visits bodyOnly r c) (f c)) :
    Matches source (visitsBelow bodyOnly ρ t) (((t.field? name).map f).getD []) := by
  -- At most one place, so the places ascend.
  have hascending : (t.place? name).toList.Pairwise (· < ·) := by
    cases t.place? name with
    | none => exact .nil
    | some i => exact List.pairwise_singleton _ i
  rw [visitsBelow_eq hascending]
  · refine matches_part f ?_ h
    intro i c hi
    rw [hrole, if_pos hi]
  · intro i c hi
    rw [hrole, if_neg fun hplace => hi (Option.mem_toList.mpr hplace)]

end Parts

/-! ## Code -/

/-- An environment is that of the code in the body of a recorded type. -/
structure Suits (env : Env) (source : String) (owner : Tree) : Prop where
  source : env.source = source
  owner : ∃ here, env.owner? = some here ∧ here.superclass.isSome = owner.writesSuperclass

section Code

variable {env : Env} {source : String} {owner t : Tree} {vars : Variables} {around : List Tree}

/-- A node has made what it should: its reference, or none. -/
def MadeAt (source : String) (owner t : Tree) (made : Option FileReference) : Prop :=
  (refers owner t = true ∧ ∃ r, made = some r ∧ Makes source t r) ∨
    (refers owner t = false ∧ made = none)

/-- A call makes its reference. -/
theorem callReference_makes (h : env.source = source) (hkind : t.kind = "method_invocation") :
    MadeAt source owner t (env.callReference vars t) := by
  have hrefers : refers owner t = (t.field? "name").isSome := by simp only [refers, hkind]
  have hmark : mark? t = (t.field? "name").map (.call, ·) := by simp only [mark?, hkind]
  unfold MadeAt Env.callReference
  rw [hrefers]
  cases hname : t.field? "name" with
  | none => exact .inr ⟨rfl, rfl⟩
  | some name =>
    rw [hname] at hmark
    refine .inl ⟨rfl, _, rfl, name, hmark, rfl, rfl, rfl, fun _ => ?_⟩
    rw [← h]
    rfl

/-- A creation makes its reference. -/
theorem creationReference_makes (hkind : t.kind = "object_creation_expression") :
    MadeAt source owner t (env.creationReference around t) := by
  have hrefers : refers owner t = (t.field? "type").isSome := by simp only [refers, hkind]
  have hmark : mark? t = (t.field? "type").map (.new, ·) := by simp only [mark?, hkind]
  unfold MadeAt Env.creationReference
  rw [hrefers]
  cases htype : t.field? "type" with
  | none => exact .inr ⟨rfl, rfl⟩
  | some type =>
    rw [htype] at hmark
    exact .inl ⟨rfl, _, rfl, type, hmark, rfl, rfl, rfl, fun hnew => absurd rfl hnew⟩

/-- A method reference makes its reference. -/
theorem methodReference_makes (h : env.source = source) (ht : t.Shaped)
    (hkind : t.kind = "method_reference") :
    MadeAt source owner t (env.methodReference vars around t) := by
  obtain ⟨target, htarget⟩ := Option.isSome_iff_exists.mp (ht.target hkind)
  unfold MadeAt Env.methodReference
  simp only [refers, hkind, htarget]
  cases hlast : t.children.getLast? with
  | none => exact .inr ⟨rfl, rfl⟩
  | some last =>
    have hmark : mark? t =
        some (if last.kind == "new" then .new else .methodRef, last) := by
      simp only [mark?, hkind, hlast, Option.map_some]
    simp only [Option.any_some, Option.bind_eq_bind, Option.bind_some]
    -- Behind the colons stands `new`, a name, or something that makes no reference.
    by_cases hnew : (last.kind == "new") = true
    · rw [if_pos hnew] at hmark ⊢
      exact .inl ⟨by simp [hnew], _, rfl, last, hmark, rfl, rfl, rfl, fun hne => absurd rfl hne⟩
    · rw [if_neg hnew] at hmark ⊢
      by_cases hname : (last.kind == "identifier") = true
      · rw [if_pos hname]
        refine .inl ⟨by simp [hname], _, rfl, last, hmark, rfl, rfl, rfl, fun _ => ?_⟩
        rw [← h]
        rfl
      · rw [if_neg hname]
        exact .inr ⟨by simp [hnew, hname], rfl⟩

/-- A call of another constructor makes its reference. -/
theorem constructorReference_makes (h : Suits env source owner)
    (hkind : t.kind = "explicit_constructor_invocation") :
    MadeAt source owner t (env.constructorReference t) := by
  obtain ⟨here, hhere, hsuper⟩ := h.owner
  unfold Env.owner? at hhere
  unfold MadeAt Env.constructorReference
  simp only [refers, hkind, hhere, ← hsuper]
  cases hkeyword : t.field? "constructor" with
  | none => exact .inr ⟨rfl, rfl⟩
  | some keyword =>
    have hmark : mark? t = some (.new, keyword) := by
      simp only [mark?, hkind, hkeyword, Option.map_some]
    simp only [Option.any_some, Option.bind_eq_bind, Option.bind_some]
    split
    next hthis =>
      exact .inl ⟨by simp [hthis], _, rfl, keyword, hmark, rfl, rfl, rfl, fun hne => absurd rfl hne⟩
    next hkeywordSuper =>
      -- without a superclass there is nothing to refer to
      cases hclass : here.superclass with
      | none => exact .inr ⟨by simp [hkeywordSuper], rfl⟩
      | some superclass =>
        exact .inl ⟨by simp [hkeywordSuper], _, rfl, keyword, hmark, rfl, rfl, rfl,
          fun hne => absurd rfl hne⟩
    next hnotThis hnotSuper =>
      refine .inr ⟨?_, rfl⟩
      rw [beq_false_of_ne hnotThis, beq_false_of_ne hnotSuper]
      rfl

/-- A node of code makes the one reference that it should, or none. -/
theorem reference?_makes (h : Suits env source owner) (ht : t.Shaped) :
    MadeAt source owner t (env.reference? vars around t) := by
  unfold Env.reference?
  split
  next hkind => exact callReference_makes h.source hkind
  next hkind => exact creationReference_makes hkind
  next hkind => exact methodReference_makes h.source ht hkind
  next hkind => exact constructorReference_makes h hkind
  next hcall hcreation hmethod hconstructor =>
    -- No other kind of node makes a reference, nor is it expected to.
    refine .inr ⟨?_, rfl⟩
    unfold refers
    split
    next hkind => exact absurd hkind hcall
    next hkind => exact absurd hkind hcreation
    next hkind => exact absurd hkind hmethod
    next hkind => exact absurd hkind hconstructor
    next => rfl

/-- References are made in the named children, one after the other. -/
theorem referencesOfAll_eq (env : Env) (vars : Variables) (around ts : List Tree) :
    env.referencesOfAll vars around ts =
      ts.flatMap fun t => if t.info.named then env.references vars around t else [] := by
  induction ts with
  | nil =>
    unfold Env.referencesOfAll
    rfl
  | cons t rest ih =>
    unfold Env.referencesOfAll
    rw [ih, List.flatMap_cons]

/-- Under a lambda references are made in its body alone. -/
theorem referencesOfBody_eq (env : Env) (vars : Variables) (around ts : List Tree) :
    env.referencesOfBody vars around ts =
      ((ts.find? (·.info.field == some "body")).map (env.references vars around)).getD [] := by
  -- On the children: the first one that is the body ends the search.
  induction ts with
  | nil =>
    unfold Env.referencesOfBody
    rfl
  | cons t rest ih =>
    unfold Env.referencesOfBody
    rw [ih, List.find?_cons]
    cases t.info.field == some "body" with
    | true => rfl
    | false => rfl

/-- A node without children has no fields. -/
theorem field?_of_childless (hchildren : t.children = []) (name : String) :
    t.field? name = none := by
  unfold Tree.field?
  rw [hchildren]
  rfl

/-- What has no children makes no reference. -/
theorem refers_of_childless (hchildren : t.children = []) : refers owner t = false := by
  unfold refers
  simp only [field?_of_childless hchildren, hchildren]
  split <;> rfl

/-- Below a node without children nothing is visited. -/
theorem visitsBelow_of_childless {ρ : Role} (hchildren : t.children = []) :
    visitsBelow bodyOnly ρ t = [] := by
  unfold visitsBelow
  rw [hchildren]
  rfl

/-- A token has no reference in it. -/
theorem matches_token (hchildren : t.children = []) :
    Matches source (visits bodyOnly (.code owner) t) [] := by
  rw [visits_eq, visitsBelow_of_childless hchildren]
  exact Matches.nil.cons_of_not_site (refers_of_childless hchildren)

/-- Only the body of a lambda is code. -/
theorem child?_lambda (hkind : t.kind = "lambda_expression") {i : Nat} {c : Tree} :
    (Role.code owner).child? bodyOnly t i c =
      if t.place? "body" = some i then some (.code owner) else none := by
  unfold Role.child? bodyOnly
  dsimp only
  by_cases hbody : t.place? "body" = some i
  · rw [if_pos hbody, if_neg (by simp [hbody])]
  · rw [if_neg hbody, if_pos ⟨hkind, beq_false_of_ne hbody⟩]

/-- A piece of code has the references of the sites in it. -/
theorem matches_code (h : Suits env source owner) (ht : t.Grammatical) (vars : Variables)
    (around : List Tree) :
    Matches source (visits bodyOnly (.code owner) t) (env.references vars around t) := by
  induction t using Tree.induction generalizing vars around with
  | h t ih =>
    obtain ⟨info, children⟩ := t
    rw [visits_eq]
    unfold Env.references
    dsimp only
    split
    next hlambda =>
      -- A lambda is no site itself, and only its body is entered.
      have hkind : (Tree.node info children).kind = "lambda_expression" := beq_iff_eq.mp hlambda
      have hself : refers owner (.node info children) = false := by
        unfold refers
        rw [hkind]
        rfl
      refine Matches.cons_of_not_site hself ?_
      rw [referencesOfBody_eq]
      refine matches_onlyPart _ (fun i c => child?_lambda hkind) ?_
      intro c hc
      have hmem := Tree.mem_children_of_field? hc
      exact ih c hmem (ht.child hmem) _ _
    next hcode =>
      have hkind : (Tree.node info children).kind ≠ "lambda_expression" :=
        fun heq => hcode (beq_iff_eq.mpr heq)
      have hbelow : Matches source (visitsBelow bodyOnly (.code owner) (.node info children))
          (env.referencesOfAll vars (.node info children :: around) children) := by
        rw [referencesOfAll_eq]
        refine Matches.flatMap children 0 ?_
        intro c i hc
        have hmem : c ∈ children := List.fst_mem_of_mem_zipIdx hc
        have hrole : (Role.code owner).child? bodyOnly (.node info children) i c =
            some (.code owner) := if_neg fun h => hkind h.1
        dsimp only
        rw [visitsAt_of_some hrole]
        refine Matches.below ?_ i
        split
        next => exact ih c hmem (ht.child hmem) _ _
        next htoken =>
          have hnamed : c.info.named = false := Bool.eq_false_iff.mpr htoken
          exact matches_token ((ht.child hmem).shaped.token hnamed)
      -- Every other node is a site or not, and comes before what is below it.
      rcases reference?_makes h ht.shaped with ⟨hself, r, hmade, hr⟩ | ⟨hself, hmade⟩
      · rw [hmade]
        exact hbelow.cons_of_site hself hr
      · rw [hmade]
        exact hbelow.cons_of_not_site hself

end Code

/-! ## Members -/

section Members

variable {env : Env} {source : String} {owner t : Tree}

/-- The type parameters of a method play no part in what suits. -/
theorem Suits.withTypeParams (h : Suits env source owner) (names : List String) :
    Suits { env with methodTypeParams := names } source owner :=
  ⟨h.source, h.owner⟩

/-- A part that is code outside of methods. -/
theorem matches_codePart (h : Suits env source owner) (ht : t.Grammatical) {name : String} {c : Tree}
    (hc : t.field? name = some c) :
    Matches source (visits bodyOnly (.code owner) c) (env.references {} [] c) :=
  matches_code h (ht.child (Tree.mem_children_of_field? hc)) {} []

/-- Only the body of a method or a constructor is code. -/
theorem roleInMember_callable (hkind : Env.isCallable t.kind = true) (i : Nat) (c : Tree) :
    roleInMember owner t i c =
      if t.place? "body" = some i then some (.code owner) else none := by
  unfold roleInMember
  split
  next hfields => exact absurd (hfields ▸ hkind) (by decide)
  next hfields => exact absurd (hfields ▸ hkind) (by decide)
  next hconstant => exact absurd (hconstant ▸ hkind) (by decide)
  next => rfl

/-- A method or a constructor has the references in its body. -/
theorem matches_callable (h : Suits env source owner) (ht : t.Grammatical)
    (hkind : Env.isCallable t.kind = true) (params : List Param) :
    Matches source (visits bodyOnly (.member owner) t)
      (env.bodyReferences params (t.field? "body")) := by
  have hself : (t.kind == "enum_constant") = false :=
    beq_false_of_ne fun hconstant => absurd (hconstant ▸ hkind) (by decide)
  have hreferences : env.bodyReferences params (t.field? "body") =
      ((t.field? "body").map fun body =>
        env.references (env.variablesOf params body) [] body).getD [] := by
    unfold Env.bodyReferences
    cases t.field? "body" with
    | none => rfl
    | some body => rfl
  rw [visits_eq, hreferences]
  refine Matches.cons_of_not_site hself (matches_onlyPart _ (roleInMember_callable hkind) ?_)
  intro c hc
  exact matches_code h (ht.child (Tree.mem_children_of_field? hc)) _ _

/-- What is left out gives nothing. -/
theorem flatMap_filter {α β : Type} (p : α → Bool) (f : α → List β) (l : List α) :
    (l.filter p).flatMap f = l.flatMap fun a => if p a then f a else [] := by
  induction l with
  | nil => rfl
  | cons a l ih =>
    rw [List.filter_cons, List.flatMap_cons]
    split
    · rw [List.flatMap_cons, ih]
    · rw [ih, List.nil_append]

/-- A declaration of fields has the references in their initializers. -/
theorem matches_fields (h : Suits env source owner) (ht : t.Grammatical)
    (hkind : t.kind = "field_declaration" ∨ t.kind = "constant_declaration")
    (htype : (t.field? "type").isSome = true) (index : Nat) :
    Matches source (visits bodyOnly (.member owner) t) (env.fieldMembers index t).references := by
  have hself : (t.kind == "enum_constant") = false := by
    rcases hkind with hkind | hkind
    · rw [hkind]; rfl
    · rw [hkind]; rfl
  have hrole : ∀ i c, (Role.member owner).child? bodyOnly t i c =
      if c.info.field = some "declarator" then (c.field? "name").map fun _ => .field owner
      else none := by
    intro i c
    unfold Role.child? roleInMember
    rcases hkind with hkind | hkind
    · simp only [hkind]
    · simp only [hkind]
  rw [(Walker.fieldMembers_named env index htype).2, visits_eq, Walker.namedDeclarators, Tree.fields,
    flatMap_filter, flatMap_filter]
  refine Matches.cons_of_not_site hself (Matches.flatMap t.children 0 ?_)
  intro c i hc
  have hmem : c ∈ t.children := List.fst_mem_of_mem_zipIdx hc
  dsimp only
  -- Only a declarator with a name is a field, and the code of a field is its value.
  by_cases hfield : c.info.field = some "declarator"
  · rw [if_pos (beq_iff_eq.mpr hfield)]
    cases hname : c.field? "name" with
    | none =>
      have hnone : (Role.member owner).child? bodyOnly t i c = none := by
        rw [hrole, if_pos hfield, hname]
        rfl
      rw [visitsAt_of_none hnone]
      exact .nil
    | some name =>
      have hsome : (Role.member owner).child? bodyOnly t i c = some (.field owner) := by
        rw [hrole, if_pos hfield, hname]
        rfl
      rw [visitsAt_of_some hsome, visits_eq]
      refine Matches.below (Matches.cons_of_not_site rfl ?_) i
      exact matches_onlyPart _ (fun _ _ => rfl) fun value hvalue =>
        matches_codePart h (ht.child hmem) hvalue
  · have hnone : (Role.member owner).child? bodyOnly t i c = none := by
      rw [hrole, if_neg hfield]
    rw [visitsAt_of_none hnone, if_neg fun hdeclarator => hfield (beq_iff_eq.mp hdeclarator)]
    exact .nil

/-- A constant of an enum makes a reference, and has those in its arguments and its body. -/
theorem matches_constant (h : Suits env source owner) (ht : t.Grammatical)
    (hkind : t.kind = "enum_constant") {name : Tree} (hname : t.field? "name" = some name)
    (index : Nat) :
    Matches source (visits bodyOnly (.member owner) t) (env.enumConstant index t).references := by
  obtain ⟨here, hhere, -⟩ := h.owner
  have hrole : ∀ i c, (Role.member owner).child? bodyOnly t i c =
      if t.place? "arguments" = some i ∨ t.place? "body" = some i then some (.code owner)
      else none := by
    intro i c
    unfold Role.child? roleInMember
    simp only [hkind]
  have hmark : mark? t = some (.new, name) := by
    simp only [mark?, hkind, hname, Option.map_some]
  -- The grammar has the arguments before the body, which is the order of the references.
  have hascending :
      ((t.place? "arguments").toList ++ (t.place? "body").toList).Pairwise (· < ·) := by
    have hbefore := ht.shaped.constant hkind
    cases harguments : t.place? "arguments" with
    | none => cases t.place? "body" <;> simp
    | some i =>
      cases hbody : t.place? "body" with
      | none => simp
      | some j => simpa using hbefore i harguments j hbody
  have hothers : ∀ i c, i ∉ (t.place? "arguments").toList ++ (t.place? "body").toList →
      (Role.member owner).child? bodyOnly t i c = none := by
    intro i c hi
    rw [List.mem_append, Option.mem_toList, Option.mem_toList] at hi
    rw [hrole, if_neg hi]
  unfold Env.enumConstant
  rw [hname, hhere, visits_eq, visitsBelow_eq hascending hothers, List.flatMap_append]
  dsimp only
  refine Matches.cons_of_site (beq_iff_eq.mpr hkind)
    ⟨name, hmark, rfl, rfl, rfl, fun hnew => absurd rfl hnew⟩ ?_
  refine Matches.append (matches_part _ ?_ fun c hc => matches_codePart h ht hc)
    (matches_part _ ?_ fun c hc => matches_codePart h ht hc)
  · intro i c hi
    rw [hrole, if_pos (.inl hi)]
  · intro i c hi
    rw [hrole, if_pos (.inr hi)]

/-- The nodes with a role from one on that may have one. -/
def visitsAs (role? : Option Role) (t : Tree) : List Visit :=
  match role? with
  | some r => visits bodyOnly r t
  | none => []

/-- The references of a field are those of its visits. -/
theorem matches_fieldMembers (h : Suits env source owner) (ht : t.Grammatical)
    (hkind : t.kind = "field_declaration" ∨ t.kind = "constant_declaration") (index : Nat) :
    Matches source (visitsAs ((t.field? "type").map fun _ => .member owner) t)
      (env.fieldMembers index t).references := by
  cases htype : t.field? "type" with
  | none =>
    unfold Env.fieldMembers
    rw [htype]
    exact .nil
  | some type => exact matches_fields h ht hkind (Option.isSome_of_mem htype) index

/-- The references of a method are those of its visits. -/
theorem matches_methodMember (h : Suits env source owner) (ht : t.Grammatical)
    (hkind : Env.isCallable t.kind = true) (index : Nat) :
    Matches source (visitsAs ((t.field? "name").map fun _ => .member owner) t)
      (env.methodMember index t).references := by
  unfold Env.methodMember
  cases t.field? "name" with
  | none => exact .nil
  | some name => exact matches_callable (h.withTypeParams _) ht hkind _

/-- The references of a constructor are those of its visits. -/
theorem matches_constructorMember (h : Suits env source owner) (ht : t.Grammatical)
    (hkind : Env.isCallable t.kind = true) (index : Nat) (components : Option Tree) :
    Matches source (visitsAs ((t.field? "name").map fun _ => .member owner) t)
      (env.constructorMember index components t).references := by
  unfold Env.constructorMember
  cases t.field? "name" with
  | none => exact .nil
  | some name => exact matches_callable (h.withTypeParams _) ht hkind _

/-- The references of an enum constant are those of its visits. -/
theorem matches_enumConstant (h : Suits env source owner) (ht : t.Grammatical)
    (hkind : t.kind = "enum_constant") (index : Nat) :
    Matches source (visitsAs ((t.field? "name").map fun _ => .member owner) t)
      (env.enumConstant index t).references := by
  cases hname : t.field? "name" with
  | none =>
    unfold Env.enumConstant
    rw [hname]
    exact .nil
  | some name => exact matches_constant h ht hkind hname index

/-- A member, or a block of code beside the members, has the references of the sites in it. -/
theorem matches_memberOf (h : Suits env source owner) (ht : t.Grammatical)
    (htype : t.declaresType = false) (hlist : t.kind ≠ "enum_body_declarations") (index : Nat)
    (components : Option Tree) :
    Matches source (visitsAs (roleInBody owner t) t)
      (env.memberOf index components t).references := by
  unfold roleInBody
  rw [if_neg (Bool.eq_false_iff.mp htype)]
  unfold Env.memberOf
  split
  next hkind => exact absurd hkind hlist
  next hkind =>
    simp only [hkind]
    exact matches_code h ht {} []
  next hkind =>
    simp only [hkind]
    exact matches_code h ht {} []
  next hkind =>
    simp only [hkind]
    exact matches_fieldMembers h ht (.inl hkind) index
  next hkind =>
    simp only [hkind]
    exact matches_fieldMembers h ht (.inr hkind) index
  next hkind =>
    simp only [hkind]
    exact matches_methodMember h ht (hkind ▸ rfl) index
  next hkind =>
    simp only [hkind]
    exact matches_methodMember h ht (hkind ▸ rfl) index
  next hkind =>
    simp only [hkind]
    exact matches_constructorMember h ht (hkind ▸ rfl) index components
  next hkind =>
    simp only [hkind]
    exact matches_constructorMember h ht (hkind ▸ rfl) index components
  next hkind =>
    simp only [hkind]
    exact matches_enumConstant h ht hkind index
  next =>
    -- any other node records nothing
    split <;> first | contradiction | exact .nil

end Members

/-! ## Types -/

/-- A node has the references of the sites in it, if it is a type, and so have its children, if it
is the body of one. -/
structure Matched (source : String) (t : Tree) : Prop where
  asType : ∀ (env : Env) (index : Nat), env.source = source →
    Matches source (visitsAs ((t.field? "name").map fun _ => .type) t)
      (env.typeSymbols index t).references
  asBody : ∀ (env : Env) (owner : Tree) (index next : Nat) (components : Option Tree),
    Suits env source owner →
    Matches source (visits bodyOnly (.body owner) t)
      (env.memberSymbols index components next t.children).references

section Types

variable {env : Env} {source : String} {owner t : Tree}

/-- The visits of a child are those of its role, at its number. -/
theorem visitsAt_eq (ρ : Role) (t : Tree) (i : Nat) (c : Tree) :
    visitsAt bodyOnly ρ t i c = (visitsAs (ρ.child? bodyOnly t i c) c).map (·.below i) := by
  cases h : ρ.child? bodyOnly t i c with
  | none => rw [visitsAt_of_none h]; rfl
  | some r => rw [visitsAt_of_some h]; rfl

/-- The references of a type are those of its body. -/
theorem bodySymbols_eq (env : Env) (index : Nat) (components : Option Tree) (ts : List Tree) :
    (env.bodySymbols index components ts).references =
      ((ts.find? (·.info.field == some "body")).map fun body =>
        (env.memberSymbols index components (index + 1) body.children).references).getD [] := by
  induction ts with
  | nil =>
    unfold Env.bodySymbols
    rfl
  | cons t rest ih =>
    obtain ⟨info, children⟩ := t
    unfold Env.bodySymbols
    rw [List.find?_cons]
    dsimp only [Tree.info]
    cases info.field == some "body" with
    | true => rfl
    | false => exact ih

/-- One child of a body is a type, more of the body, or a member. -/
theorem memberSymbols_singleton (env : Env) (index next : Nat) (components : Option Tree)
    (t : Tree) :
    env.memberSymbols index components next [t] =
      if !t.info.named then {}
      else if isTypeDeclaration t.kind then env.typeSymbols next t
      else if t.kind == "enum_body_declarations" then
        env.memberSymbols index none next t.children
      else env.memberOf index components t := by
  cases t with
  | node info children =>
    simp only [Env.memberSymbols, Found.append_empty]
    rfl

/-- Inside a type the environment is that of its code. -/
theorem suits_openType (h : env.source = source) (t : Tree) (name : String) :
    Suits (env.openType t name).2 source t := by
  refine ⟨h, _, rfl, ?_⟩
  exact Option.isSome_map

/-- A token in the body of a type is passed over. -/
theorem matches_tokenInBody (hnamed : t.info.named = false) (ht : t.Shaped) :
    Matches source (visitsAs (roleInBody owner t) t) [] := by
  have hchildren := ht.token hnamed
  have htype : t.declaresType = false := by
    unfold Tree.declaresType
    rw [hnamed]
    rfl
  unfold roleInBody
  rw [if_neg (Bool.eq_false_iff.mp htype), field?_of_childless hchildren,
    field?_of_childless hchildren]
  split
  next =>
    unfold visitsAs
    dsimp only
    rw [visits_eq, visitsBelow_of_childless hchildren]
    exact Matches.nil.cons_of_not_site rfl
  -- A token is one of no role or is visited as code, and then nothing is below it.
  all_goals first | exact matches_token hchildren | exact .nil

/-- A node in the body of a type has the references of the sites in it. -/
theorem Matched.inBody (hmatched : Matched source t) (h : Suits env source owner)
    (ht : t.Grammatical) (index next : Nat) (components : Option Tree) :
    Matches source (visitsAs (roleInBody owner t) t)
      (env.memberSymbols index components next [t]).references := by
  rw [memberSymbols_singleton]
  by_cases hnamed : t.info.named = true
  · rw [if_neg (by simp [hnamed])]
    by_cases htype : isTypeDeclaration t.kind = true
    · have hrole : roleInBody owner t = (t.field? "name").map fun _ => .type := by
        have hdeclares : t.declaresType = true := Bool.and_eq_true_iff.mpr ⟨hnamed, htype⟩
        exact if_pos hdeclares
      rw [if_pos htype, hrole]
      exact hmatched.asType env next h.source
    · have hdeclares : t.declaresType = false := by
        unfold Tree.declaresType
        rw [Bool.eq_false_iff.mpr htype, Bool.and_false]
      rw [if_neg htype]
      -- The list behind the constants of an enum is read as more of the body.
      by_cases hlist : t.kind = "enum_body_declarations"
      · have hrole : roleInBody owner t = some (.body owner) := by
          unfold roleInBody
          rw [if_neg (Bool.eq_false_iff.mp hdeclares)]
          simp only [hlist]
        rw [if_pos (beq_iff_eq.mpr hlist), hrole]
        exact hmatched.asBody env owner index next none h
      · rw [if_neg fun heq => hlist (beq_iff_eq.mp heq)]
        exact matches_memberOf h ht hdeclares hlist index components
  · rw [if_pos (by simp [hnamed])]
    exact matches_tokenInBody (Bool.eq_false_iff.mpr hnamed) ht.shaped

/-- So have nodes side by side there. -/
theorem Matched.members {ts : List Tree} (hmatched : ∀ c ∈ ts, Matched source c)
    (h : Suits env source owner) (hts : ∀ c ∈ ts, c.Grammatical) (index next k : Nat)
    (components : Option Tree) :
    Matches source ((ts.zipIdx k).flatMap fun (c, i) => visitsAt bodyOnly (.body owner) t i c)
      (env.memberSymbols index components next ts).references := by
  -- On the children of the body. Types take up numbers, which the references do not depend on.
  induction ts generalizing next k with
  | nil =>
    unfold Env.memberSymbols
    exact .nil
  | cons c rest ih =>
    obtain ⟨hc, hrest⟩ := List.forall_mem_cons.mp hmatched
    obtain ⟨hcShaped, hrestShaped⟩ := List.forall_mem_cons.mp hts
    rw [Env.memberSymbols_cons, List.zipIdx_cons, List.flatMap_cons, Found.references_append]
    refine Matches.append ?_ (ih hrest hrestShaped _ _)
    dsimp only
    rw [visitsAt_eq]
    exact (hc.inBody h hcShaped index next components).below k

/-- Types and bodies of types have the references of the sites in them. -/
theorem matches_symbols (source : String) (t : Tree) (ht : t.Grammatical) : Matched source t := by
  induction t using Tree.induction with
  | h t ih =>
    have hchildren : ∀ c ∈ t.children, c.Grammatical := fun c hc => ht.child hc
    have hmatched : ∀ c ∈ t.children, Matched source c := fun c hc => ih c hc (hchildren c hc)
    constructor
    case asBody =>
      intro env owner index next components h
      rw [visits_eq]
      exact (Matched.members hmatched h hchildren index next 0 components).cons_of_not_site rfl
    case asType =>
      intro env index h
      obtain ⟨info, children⟩ := t
      unfold Env.typeSymbols
      dsimp only
      cases hname : (Tree.node info children).field? "name" with
      | none => exact .nil
      | some name =>
        dsimp only [Option.map_some, visitsAs]
        rw [visits_eq, Found.references_append, List.nil_append, bodySymbols_eq]
        refine Matches.cons_of_not_site rfl (matches_onlyPart _ (fun _ _ => rfl) ?_)
        intro body hbody
        have hmem := Tree.mem_children_of_field? hbody
        exact (hmatched body hmem).asBody _ _ _ _ _ (suits_openType h _ _)

/-- The types of a file have the references of the sites in them. -/
theorem matches_topSymbols {ts : List Tree} (h : env.source = source)
    (hts : ∀ c ∈ ts, c.Grammatical) (next k : Nat) :
    Matches source ((ts.zipIdx k).flatMap fun (c, i) => visitsAt bodyOnly .file t i c)
      (env.topSymbols next ts).references := by
  induction ts generalizing next k with
  | nil => exact .nil
  | cons c rest ih =>
    obtain ⟨hc, hrest⟩ := List.forall_mem_cons.mp hts
    rw [Env.topSymbols_cons, List.zipIdx_cons, List.flatMap_cons, Found.references_append]
    refine Matches.append ?_ (ih hrest _ _)
    dsimp only
    rw [visitsAt_eq]
    refine Matches.below ?_ k
    have hsymbols : env.topSymbols next [c] =
        if c.declaresType then env.typeSymbols next c else {} := Found.append_empty _
    dsimp only [Role.child?]
    rw [hsymbols]
    by_cases htype : c.declaresType = true
    · rw [if_pos htype, if_pos htype]
      exact (matches_symbols source c hc).asType env next h
    · rw [if_neg htype, if_neg htype]
      exact .nil

end Types

/-! ## Files -/

/-- A node of a file makes a reference by itself. -/
def IsSite (inside : Tree → Nat → Bool) (root : Tree) (v : Visit) : Prop :=
  Role.file.at? inside root v.spot = some (v.role, v.node) ∧ v.isSite = true

/-- The listed sites are the places where a reference is made. -/
@[simp]
theorem mem_sites_iff {inside : Tree → Nat → Bool} {root : Tree} {v : Visit} :
    v ∈ sites inside root ↔ IsSite inside root v := by
  unfold sites IsSite
  rw [List.mem_filter, mem_visits_iff]

/-- Each site makes one reference, in the order of the tree, and nothing else makes any. Of a
lambda only the body is gone through. -/
theorem references_at_sites (source : String) {root : Tree} (hroot : root.Grammatical) :
    (∀ v, v ∈ sites bodyOnly root ↔ IsSite bodyOnly root v) ∧
    ((sites bodyOnly root).Pairwise fun a b => a.spot < b.spot) ∧
    List.Forall₂ (fun v r => Makes source v.node r) (sites bodyOnly root)
      (extract source root).references := by
  refine ⟨fun _ => mem_sites_iff, (visits_ascending bodyOnly .file root).filter _, ?_⟩
  have hmatches : Matches source (visits bodyOnly .file root) (extract source root).references := by
    have hfile : ({ file := FileNames.ofTree source root } : Env).source = source := rfl
    rw [visits_eq]
    refine Matches.cons_of_not_site rfl ?_
    exact matches_topSymbols hfile (fun _ hc => hroot.child hc) 0 0
  exact hmatches

/-- A token, whose kind is its text. -/
def tokenNode (kind : String) (startByte endByte : Nat) : Tree :=
  .node { kind, named := false, startByte, endByte, startRow := 0, endRow := 0 } []

/-! A class with a constructor that calls another, a field of an anonymous class, and an enum. -/

/-- The text of the class. -/
def createdSource : String :=
  "class A{A(){this(A::new);}A o=new A(){void m(){f(x->g());}};enum F{X(this::h);}}"

/-- Its tree, less most of the tokens. -/
def createdTree : Tree :=
  namedNode "program" 0 80 none
    [namedNode "class_declaration" 0 80 none
      [namedNode "identifier" 6 7 (some "name"),
        namedNode "class_body" 7 80 (some "body")
          [namedNode "constructor_declaration" 8 26 none
            [namedNode "identifier" 8 9 (some "name"),
              namedNode "formal_parameters" 9 11 (some "parameters"),
              namedNode "constructor_body" 11 26 (some "body")
                [namedNode "explicit_constructor_invocation" 12 25 none
                  [namedNode "this" 12 16 (some "constructor"),
                    namedNode "argument_list" 16 24 (some "arguments")
                      [namedNode "method_reference" 17 23 none
                        [namedNode "identifier" 17 18, tokenNode "::" 18 20,
                          tokenNode "new" 20 23]]]]],
            namedNode "field_declaration" 26 60 none
              [namedNode "type_identifier" 26 27 (some "type"),
                namedNode "variable_declarator" 28 59 (some "declarator")
                  [namedNode "identifier" 28 29 (some "name"),
                    namedNode "object_creation_expression" 30 59 (some "value")
                      [namedNode "type_identifier" 34 35 (some "type"),
                        namedNode "argument_list" 35 37 (some "arguments"),
                        namedNode "class_body" 37 59 none
                          [namedNode "method_declaration" 38 58 none
                            [namedNode "void_type" 38 42 (some "type"),
                              namedNode "identifier" 43 44 (some "name"),
                              namedNode "formal_parameters" 44 46 (some "parameters"),
                              namedNode "block" 46 58 (some "body")
                                [namedNode "expression_statement" 47 57 none
                                  [namedNode "method_invocation" 47 56 none
                                    [namedNode "identifier" 47 48 (some "name"),
                                      namedNode "argument_list" 48 56 (some "arguments")
                                        [namedNode "lambda_expression" 49 55 none
                                          [namedNode "identifier" 49 50 (some "parameters"),
                                            callNode 52 (some "body")]]]]]]]]]],
            namedNode "enum_declaration" 60 79 none
              [namedNode "identifier" 65 66 (some "name"),
                namedNode "enum_body" 66 79 (some "body")
                  [namedNode "enum_constant" 67 77 none
                    [namedNode "identifier" 67 68 (some "name"),
                      namedNode "argument_list" 68 77 (some "arguments")
                        [namedNode "method_reference" 69 76 none
                          [namedNode "this" 69 73, tokenNode "::" 73 75,
                            namedNode "identifier" 75 76]]],
                    namedNode "enum_body_declarations" 77 78]]]]]

/-- A class with references of every kind, all of which are found. -/
theorem references_at_sites_created :
    createdTree.Grammatical ∧
    (sites bodyOnly createdTree).map (·.node.kind) =
      ["explicit_constructor_invocation", "method_reference", "object_creation_expression",
        "method_invocation", "method_invocation", "enum_constant", "method_reference"] ∧
    ((extract createdSource createdTree).references.map fun r => (r.kind, r.startByte)) =
      [(.new, 12), (.new, 20), (.new, 34), (.call, 47), (.call, 52), (.new, 67),
        (.methodRef, 75)] ∧
    ((sites bodyOnly createdTree).Pairwise fun a b => a.spot < b.spot) ∧
    List.Forall₂ (fun v r => Makes createdSource v.node r) (sites bodyOnly createdTree)
      (extract createdSource createdTree).references := by
  have hgrammatical : createdTree.Grammatical := by decide +kernel
  obtain ⟨-, hascending, hmakes⟩ := references_at_sites createdSource hgrammatical
  exact ⟨hgrammatical, by decide +kernel, by decide +kernel, hascending, hmakes⟩

/-! A lambda with one call too many, which fits nowhere and stands beside the body. -/

/-- A node around what fits nowhere. -/
def errorNode (startByte endByte : Nat) (children : List Tree) : Tree :=
  .node
    { kind := "ERROR"
      named := true
      extra := true
      isError := true
      hasError := true
      startByte, endByte
      startRow := 0
      endRow := 0 } children

/-- The text of a class with such a lambda. -/
def brokenSource : String := "class A{void m(){f(x -> g() h());}}"

/-- Its tree, less the tokens. -/
def brokenTree : Tree :=
  namedNode "program" 0 35 none
    [namedNode "class_declaration" 0 35 none
      [namedNode "identifier" 6 7 (some "name"),
        namedNode "class_body" 7 35 (some "body")
          [namedNode "method_declaration" 8 34 none
            [namedNode "void_type" 8 12 (some "type"),
              namedNode "identifier" 13 14 (some "name"),
              namedNode "formal_parameters" 14 16 (some "parameters"),
              namedNode "block" 16 34 (some "body")
                [namedNode "expression_statement" 17 33 none
                  [namedNode "method_invocation" 17 32 none
                    [namedNode "identifier" 17 18 (some "name"),
                      namedNode "argument_list" 18 32 (some "arguments")
                        [namedNode "lambda_expression" 19 31 none
                          [namedNode "identifier" 19 20 (some "parameters"),
                            errorNode 24 27 [callNode 24], callNode 28 (some "body")]]]]]]]]]

/-- If all of a lambda but its parameters counted as code, a call that stands beside the body would
be lost. -/
theorem call_beside_body_lost :
    ¬ ∀ (source : String) (root : Tree), root.Grammatical →
      List.Forall₂ (fun v r => Makes source v.node r) (sites besideParameters root)
        (extract source root).references := by
  intro h
  have hgrammatical : brokenTree.Grammatical := by decide +kernel
  have hlength := (h brokenSource brokenTree hgrammatical).length_eq
  have hsites : (sites besideParameters brokenTree).length = 3 := by decide +kernel
  have hreferences : (extract brokenSource brokenTree).references.length = 2 := by decide +kernel
  rw [hsites, hreferences] at hlength
  exact absurd hlength (by decide)

end JavaAtlas.Java
