import JavaAtlas.Proofs.Java.Stacks

namespace JavaAtlas

/-! # The nodes where calls may stand

What a node of a file is for the walk depends on the nodes around it: the body of a method is code,
but the list of its parameters is not. A node gets its role from that of its parent, so it gets one
in one way only, and the nodes with a role are listed in the order in which they stand in the tree.

* `Role.child?`: the role of a node below another one;
* `mem_visits_iff`: the nodes that are listed are those that have a role;
* `visits_ascending`: each of them is listed once, a node before its children and those from left
  to right.
-/

namespace Tree

/-- What is proved of a node if it holds of its children holds of all nodes. -/
theorem induction {p : Tree → Prop} (h : ∀ t : Tree, (∀ c ∈ t.children, p c) → p t) (t : Tree) :
    p t :=
  h t fun c _ => induction h c
termination_by sizeOf t
decreasing_by exact sizeOf_lt_of_mem_children ‹_›

/-! ## Trees of the grammar -/

/-- What the grammar says of a node: a token holds nothing, the arguments of a constant stand
before its body, and a method reference has a target. -/
structure Shaped (t : Tree) : Prop where
  token : t.info.named = false → t.children = []
  constant : t.kind = "enum_constant" →
    ∀ i ∈ t.place? "arguments", ∀ j ∈ t.place? "body", i < j
  target : t.kind = "method_reference" → t.firstNamed?.isSome = true

/-- What the grammar says of a node can be decided. -/
theorem shaped_iff {t : Tree} : t.Shaped ↔
    (t.info.named = false → t.children.isEmpty = true) ∧
    (t.kind = "enum_constant" → ∀ i ∈ t.place? "arguments", ∀ j ∈ t.place? "body", i < j) ∧
    (t.kind = "method_reference" → t.firstNamed?.isSome = true) := by
  simp only [List.isEmpty_iff]
  exact ⟨fun h => ⟨h.token, h.constant, h.target⟩, fun ⟨ht, hc, hm⟩ => ⟨ht, hc, hm⟩⟩

instance (t : Tree) : Decidable t.Shaped := decidable_of_iff _ shaped_iff.symm

/-- All nodes are as the grammar says. -/
def Grammatical (root : Tree) : Prop := ∀ t : Tree, t.Within root → t.Shaped

/-- Whether a tree is grammatical can be told from its subtrees. -/
theorem grammatical_iff {root : Tree} : root.Grammatical ↔ ∀ t ∈ root.subtrees, t.Shaped :=
  forall_congr' fun _ => imp_congr mem_subtrees_iff.symm Iff.rfl

instance (root : Tree) : Decidable root.Grammatical := decidable_of_iff _ grammatical_iff.symm

theorem Grammatical.shaped {t : Tree} (h : t.Grammatical) : t.Shaped := h t .self

/-- The children of a grammatical tree are grammatical. -/
theorem Grammatical.child {t c : Tree} (h : t.Grammatical) (hc : c ∈ t.children) : c.Grammatical :=
  fun u hu => h u (.under hc hu)

/-- A superclass is written down. -/
def writesSuperclass (t : Tree) : Bool := ((t.field? "superclass").bind (·.firstNamed?)).isSome

end Tree

namespace Java

/-! ## Roles -/

/-- What a node is for the walk. `owner` is the innermost recorded type around it. -/
inductive Role where
  | file
  /-- A recorded type. -/
  | type
  /-- The body of a recorded type, or an inner list of declarations in it. -/
  | body (owner : Tree)
  /-- A recorded method, constructor or enum constant, or a declaration of fields. -/
  | member (owner : Tree)
  /-- A recorded field. -/
  | field (owner : Tree)
  /-- The body of a recorded method or constructor, the initializer of a recorded field, a block
  of a recorded type, the arguments or the body of a recorded enum constant, or a node in them. -/
  | code (owner : Tree)

/-- The role of a node in the body of a recorded type. -/
def roleInBody (owner c : Tree) : Option Role :=
  if c.declaresType then (c.field? "name").map fun _ => .type
  else
    match c.kind with
    | "enum_body_declarations" => some (.body owner)
    | "static_initializer" | "block" => some (.code owner)
    | "field_declaration" | "constant_declaration" => (c.field? "type").map fun _ => .member owner
    | "method_declaration" | "annotation_type_element_declaration" | "constructor_declaration"
    | "compact_constructor_declaration" | "enum_constant" =>
      (c.field? "name").map fun _ => .member owner
    | _ => none

/-- The role of a node below a member: its code, or one of its fields. -/
def roleInMember (owner t : Tree) (i : Nat) (c : Tree) : Option Role :=
  match t.kind with
  | "field_declaration" | "constant_declaration" =>
    if c.info.field = some "declarator" then (c.field? "name").map fun _ => .field owner else none
  | "enum_constant" =>
    if t.place? "arguments" = some i ∨ t.place? "body" = some i then some (.code owner) else none
  | _ => if t.place? "body" = some i then some (.code owner) else none

/-- The role of `c`, which is child number `i` of `t`. All that stands in code is code, except in
lambdas, where `inside` says which children are. -/
def Role.child? (inside : Tree → Nat → Bool) (ρ : Role) (t : Tree) (i : Nat) (c : Tree) :
    Option Role :=
  match ρ with
  | .file => if c.declaresType then (c.field? "name").map fun _ => .type else none
  | .type => if t.place? "body" = some i then some (.body t) else none
  | .body owner => roleInBody owner c
  | .member owner => roleInMember owner t i c
  | .field owner => if t.place? "value" = some i then some (.code owner) else none
  | .code owner => if t.kind = "lambda_expression" ∧ inside t i = false then none else some (.code owner)

/-- The node at a spot below one with a role, and the role that it has. -/
def Role.at? (inside : Tree → Nat → Bool) (ρ : Role) (t : Tree) : Spot → Option (Role × Tree)
  | [] => some (ρ, t)
  | i :: s => (t.children[i]?).bind fun c => (ρ.child? inside t i c).bind fun r => r.at? inside c s

/-- The body of a lambda, and nothing else of it. -/
def bodyOnly (t : Tree) (i : Nat) : Bool := t.place? "body" == some i

/-- All of a lambda but its list of parameters. -/
def besideParameters (t : Tree) (i : Nat) : Bool := t.place? "parameters" != some i

/-! ## The nodes with a role -/

/-- A node with its role. -/
structure Visit where
  spot : Spot
  role : Role
  node : Tree

/-- A node below child number `i`. -/
def Visit.below (i : Nat) (v : Visit) : Visit := { v with spot := i :: v.spot }

section Visits

variable (inside : Tree → Nat → Bool)

mutual

/-- The nodes with a role, from one with a role on. -/
def visits (ρ : Role) : Tree → List Visit
  | .node info children =>
    ⟨[], ρ, .node info children⟩ :: visitsFrom ρ (.node info children) 0 children

/-- The nodes with a role among the children of a node, from child `i` on, and below them. -/
def visitsFrom (ρ : Role) (t : Tree) (i : Nat) : List Tree → List Visit
  | [] => []
  | c :: rest =>
    (match ρ.child? inside t i c with
    | some r => (visits r c).map (·.below i)
    | none => []) ++ visitsFrom ρ t (i + 1) rest

end

/-- The nodes with a role from child number `i` on. -/
def visitsAt (ρ : Role) (t : Tree) (i : Nat) (c : Tree) : List Visit :=
  match ρ.child? inside t i c with
  | some r => (visits inside r c).map (·.below i)
  | none => []

/-- The nodes with a role below one. -/
def visitsBelow (ρ : Role) (t : Tree) : List Visit :=
  t.children.zipIdx.flatMap fun (c, i) => visitsAt inside ρ t i c

variable {inside} {ρ r : Role} {t : Tree} {v : Visit}

/-- The nodes with a role below some children are those below each of them. -/
theorem visitsFrom_eq (i : Nat) (ts : List Tree) :
    visitsFrom inside ρ t i ts = (ts.zipIdx i).flatMap fun (c, i) => visitsAt inside ρ t i c := by
  induction ts generalizing i with
  | nil =>
    unfold visitsFrom
    rfl
  | cons c rest ih =>
    unfold visitsFrom
    rw [ih, List.zipIdx_cons, List.flatMap_cons]
    rfl

/-- The nodes with a role are the node itself and those below its children. -/
theorem visits_eq (inside : Tree → Nat → Bool) (ρ : Role) (t : Tree) :
    visits inside ρ t = ⟨[], ρ, t⟩ :: visitsBelow inside ρ t := by
  cases t with
  | node info children =>
    unfold visits
    rw [visitsFrom_eq]
    rfl

/-- Below a child with a role are the nodes listed from there. -/
theorem visitsAt_of_some {i : Nat} {c : Tree} (h : ρ.child? inside t i c = some r) :
    visitsAt inside ρ t i c = (visits inside r c).map (·.below i) := by
  unfold visitsAt
  rw [h]

/-- Below a child without a role no node has one. -/
theorem visitsAt_of_none {i : Nat} {c : Tree} (h : ρ.child? inside t i c = none) :
    visitsAt inside ρ t i c = [] := by
  unfold visitsAt
  rw [h]

/-- A node is listed below a child if the child has a role and the node is listed from there. -/
theorem mem_visitsAt_iff {i : Nat} {c : Tree} : v ∈ visitsAt inside ρ t i c ↔
    ∃ r, ρ.child? inside t i c = some r ∧ ∃ w ∈ visits inside r c, w.below i = v := by
  cases h : ρ.child? inside t i c with
  | none => simp [visitsAt_of_none h]
  | some r => simp [visitsAt_of_some h]

/-- The nodes that are listed are those that have a role. -/
@[simp]
theorem mem_visits_iff : v ∈ visits inside ρ t ↔ ρ.at? inside t v.spot = some (v.role, v.node) := by
  induction t using Tree.induction generalizing ρ v with
  | h t ih =>
    obtain ⟨spot, role, node⟩ := v
    rw [visits_eq, List.mem_cons, visitsBelow, List.mem_flatMap]
    -- The empty spot is the node itself, and any other begins with the number of a child.
    cases spot with
    | nil =>
      constructor
      · rintro (h | ⟨⟨c, i⟩, -, h⟩)
        · cases h
          rfl
        · -- no node below a child has the empty spot
          obtain ⟨r, -, w, -, h⟩ := mem_visitsAt_iff.mp h
          cases h
      · intro h
        cases h
        exact .inl rfl
    | cons i s =>
      dsimp only [Role.at?]
      simp only [Option.bind_eq_some_iff]
      constructor
      · rintro (h | ⟨⟨c, j⟩, hc, h⟩)
        · cases h
        · -- the number of the child is the first step of the spot
          have hget := List.mem_zipIdx_iff_getElem?.mp hc
          obtain ⟨r, hr, w, hw, h⟩ := mem_visitsAt_iff.mp h
          cases h
          exact ⟨c, hget, r, hr, (ih c (List.mem_of_getElem? hget)).mp hw⟩
      · rintro ⟨c, hget, r, hr, h⟩
        refine .inr ⟨(c, i), List.mem_zipIdx_iff_getElem?.mpr hget, mem_visitsAt_iff.mpr ?_⟩
        exact ⟨r, hr, ⟨s, role, node⟩, (ih c (List.mem_of_getElem? hget)).mpr h, rfl⟩

/-- Children are numbered from left to right. -/
theorem zipIdx_ascending {α : Type} (l : List α) (k : Nat) :
    (l.zipIdx k).Pairwise fun a b => a.2 < b.2 := by
  have hsnd : ((l.zipIdx k).map (·.2)).Pairwise (· < ·) := by
    rw [List.zipIdx_map_snd]
    exact List.pairwise_lt_range'
  exact List.pairwise_map.mp hsnd

/-- A node comes before its children, and those come from left to right. -/
theorem visits_ascending (inside : Tree → Nat → Bool) (ρ : Role) (t : Tree) :
    (visits inside ρ t).Pairwise fun a b => a.spot < b.spot := by
  induction t using Tree.induction generalizing ρ with
  | h t ih =>
    rw [visits_eq, List.pairwise_cons]
    -- What is below has a spot that is not empty.
    have hbelow : ∀ v ∈ visitsBelow inside ρ t, ∃ i s, v.spot = i :: s := by
      intro v hv
      obtain ⟨⟨c, i⟩, -, h⟩ := List.mem_flatMap.mp hv
      obtain ⟨r, -, w, -, rfl⟩ := mem_visitsAt_iff.mp h
      exact ⟨i, w.spot, rfl⟩
    constructor
    · intro v hv
      obtain ⟨i, s, hspot⟩ := hbelow v hv
      rw [hspot]
      exact List.nil_lt_cons i s
    · rw [visitsBelow, List.pairwise_flatMap]
      constructor
      · rintro ⟨c, i⟩ hc
        have hget := List.mem_zipIdx_iff_getElem?.mp hc
        dsimp only
        cases hr : ρ.child? inside t i c with
        | none =>
          rw [visitsAt_of_none hr]
          exact .nil
        | some r =>
          rw [visitsAt_of_some hr, List.pairwise_map]
          refine (ih c (List.mem_of_getElem? hget) r).imp ?_
          intro a b hab
          exact List.cons_lt_cons_self.mpr hab
      · -- below different children the first step decides
        refine (zipIdx_ascending t.children 0).imp ?_
        rintro ⟨c, i⟩ ⟨d, j⟩ hij a ha b hb
        obtain ⟨-, -, w, -, rfl⟩ := mem_visitsAt_iff.mp ha
        obtain ⟨-, -, w', -, rfl⟩ := mem_visitsAt_iff.mp hb
        exact List.Lex.rel hij

/-! ## Children that count -/

/-- Only the numbers in an ascending list count. -/
theorem flatMap_zipIdx_ascending {α β : Type} (l : List α) (f : α × Nat → List β) (k : Nat)
    {is : List Nat} (hfrom : ∀ i ∈ is, k ≤ i) (hascending : is.Pairwise (· < ·))
    (hothers : ∀ a i, k ≤ i → i ∉ is → f (a, i) = []) :
    (l.zipIdx k).flatMap f = is.flatMap fun i => (l[i - k]?).toList.flatMap fun a => f (a, i) := by
  induction l generalizing k is with
  | nil => simp
  | cons a l ih =>
    -- Moved by one, the later places are looked up in the tail.
    have hlater : ∀ js : List Nat, (∀ j ∈ js, k + 1 ≤ j) →
        (js.flatMap fun j => ((a :: l)[j - k]?).toList.flatMap fun a => f (a, j)) =
          js.flatMap fun j => (l[j - (k + 1)]?).toList.flatMap fun a => f (a, j) := by
      intro js hjs
      apply List.flatMap_congr
      intro j hj
      have hlt := hjs j hj
      have hsucc : j - k = j - (k + 1) + 1 := by omega
      rw [hsucc, List.getElem?_cons_succ]
    rw [List.zipIdx_cons, List.flatMap_cons]
    by_cases hk : k ∈ is
    · -- it is the first of them, as they ascend
      obtain ⟨i, js, rfl⟩ := List.exists_cons_of_ne_nil (List.ne_nil_of_mem hk)
      obtain ⟨hfirst, hjs⟩ := List.pairwise_cons.mp hascending
      have hi : i = k := by
        rcases List.mem_cons.mp hk with heq | hmem
        · exact heq.symm
        · have hle := hfrom i List.mem_cons_self
          have hlt := hfirst k hmem
          omega
      subst hi
      have hothers : ∀ b j, i + 1 ≤ j → j ∉ js → f (b, j) = [] := by
        intro b j hij hj
        refine hothers b j (by omega) fun hmem => ?_
        rcases List.mem_cons.mp hmem with heq | hmem
        · omega
        · exact hj hmem
      rw [List.flatMap_cons, Nat.sub_self, List.getElem?_cons_zero, hlater js hfirst,
        ih (i + 1) hfirst hjs hothers, Option.toList_some, List.flatMap_singleton]
    · have hnext : ∀ i ∈ is, k + 1 ≤ i := by
        intro i hi
        have hle := hfrom i hi
        have hne : i ≠ k := fun heq => hk (heq ▸ hi)
        omega
      rw [hothers a k (Nat.le_refl k) hk, List.nil_append, hlater is hnext]
      exact ih (k + 1) hnext hascending fun b j hj => hothers b j (by omega)

/-- Children without a role count for nothing. -/
theorem visitsBelow_eq {is : List Nat} (hascending : is.Pairwise (· < ·))
    (hothers : ∀ i c, i ∉ is → ρ.child? inside t i c = none) :
    visitsBelow inside ρ t =
      is.flatMap fun i => (t.children[i]?).toList.flatMap (visitsAt inside ρ t i) :=
  flatMap_zipIdx_ascending t.children _ 0 (fun i _ => Nat.zero_le i) hascending
    fun c i _ hi => visitsAt_of_none (hothers i c hi)

end Visits

end Java

end JavaAtlas
