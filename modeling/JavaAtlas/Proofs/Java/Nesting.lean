import JavaAtlas.Proofs.Java.Owners

namespace JavaAtlas

/-! # Where in the text things are found

In a syntax tree the children of a node cover parts of what the node covers, and no two of them
share a byte. All that is found in a node then lies in it: its declarations, its members and its
references.

* `memberOf_records`: what a node records that declares no type;
* `typeSymbols_eq`: what a node records that declares one;
* `typeSymbols_liesIn`, `memberSymbols_liesIn`, `topSymbols_liesIn`: all of it lies in the nodes.
-/

/-! ## Ranges -/

namespace SourceRange

variable {a b x y : SourceRange}

/-- A byte of a range. -/
def HasByte (r : SourceRange) (i : Int) : Prop := r.startByte ≤ i ∧ i < r.endByte

/-- No byte is in both ranges. -/
def Apart (a b : SourceRange) : Prop := ∀ i, a.HasByte i → ¬ b.HasByte i

theorem holds_iff : a.holds b ↔ a.startByte ≤ b.startByte ∧ b.endByte ≤ a.endByte := by
  simp [holds]

@[simp]
theorem holds_refl (a : SourceRange) : a.holds a := by
  simp [holds]

theorem holds_trans (hab : a.holds b) (hbx : b.holds x) : a.holds x := by
  rw [holds_iff] at *
  omega

/-- Two ranges are apart if one is empty or ends before the other begins. -/
theorem apart_iff : a.Apart b ↔
    a.endByte ≤ a.startByte ∨ b.endByte ≤ b.startByte ∨
      a.endByte ≤ b.startByte ∨ b.endByte ≤ a.startByte := by
  constructor
  · intro h
    -- if there were one, the later of the two starts would be a byte of both
    have hboth := h (max a.startByte b.startByte)
    unfold HasByte at hboth
    omega
  · -- conversely a byte of both would lie on either side of the gap
    intro h i ha hb
    unfold HasByte at ha hb
    omega

instance : Decidable (a.Apart b) := decidable_of_iff _ apart_iff.symm

/-- A range covers fewer bytes than another. -/
def ShorterThan (a b : SourceRange) : Prop :=
  a.endByte - a.startByte < b.endByte - b.startByte

/-- What lies in a shorter range is shorter. -/
theorem ShorterThan.of_holds (h : a.ShorterThan b) (hx : a.holds x) : x.ShorterThan b := by
  rw [holds_iff] at hx
  unfold ShorterThan at h ⊢
  omega

/-- That no byte is shared holds either way round. -/
theorem Apart.symm (h : a.Apart b) : b.Apart a := fun i hb ha => h i ha hb

/-- What lies in one of two ranges that are apart does not hold what lies in the other. -/
theorem Apart.not_holds (h : a.Apart b) (hx : a.holds x) (hy : b.holds y)
    (hbyte : y.startByte < y.endByte) : ¬ x.holds y := by
  intro hxy
  have hay := holds_trans hx hxy
  rw [holds_iff] at hay hy
  exact h y.startByte ⟨hay.1, by omega⟩ ⟨hy.1, by omega⟩

end SourceRange

/-- The bytes at which a reference stands. -/
def FileReference.place (r : FileReference) : SourceRange :=
  { startByte := r.startByte
    endByte := r.endByte }

/-! ## Trees -/

namespace Tree

variable {t u root : Tree}

/-- A node is another one or somewhere below it. -/
inductive Within (t : Tree) : Tree → Prop
  | self : Within t t
  | under {c u : Tree} : c ∈ u.children → Within t c → Within t u

/-- Whether a node declares a type. -/
def declaresType (t : Tree) : Bool := t.info.named && Java.isTypeDeclaration t.kind

/-- Children lie in their parents, children of one node share no byte, and a declaration of a type
does not cover all of one around it. -/
structure WellNested (root : Tree) : Prop where
  inside : ∀ t : Tree, t.Within root → ∀ c ∈ t.children, t.range.holds c.range
  apart : ∀ t : Tree, t.Within root → t.children.Pairwise fun a b => a.range.Apart b.range
  strict : ∀ t : Tree, t.Within root → t.declaresType → ∀ c ∈ t.children, ∀ u : Tree, u.Within c →
    u.declaresType → t.range.startByte < u.range.startByte ∨ u.range.endByte < t.range.endByte

mutual

/-- A node and all nodes below it. -/
def subtrees : Tree → List Tree
  | .node info children => .node info children :: subtreesOfAll children

/-- Nodes side by side and all nodes below them. -/
def subtreesOfAll : List Tree → List Tree
  | [] => []
  | t :: rest => t.subtrees ++ subtreesOfAll rest

end

/-- A node is the root of a tree or below one of the children. -/
theorem within_node_iff {info : NodeInfo} {children : List Tree} :
    t.Within (.node info children) ↔
      t = .node info children ∨ ∃ c ∈ children, t.Within c := by
  constructor
  · intro h
    cases h with
    | self => exact .inl rfl
    | under hc h => exact .inr ⟨_, hc, h⟩
  · rintro (rfl | ⟨c, hc, h⟩)
    · exact .self
    · exact .under hc h

mutual

/-- The subtrees of a node are all that is within it. -/
@[simp]
theorem mem_subtrees_iff : ∀ {u : Tree}, t ∈ u.subtrees ↔ t.Within u
  | .node info children => by
    unfold subtrees
    rw [List.mem_cons, mem_subtreesOfAll_iff, within_node_iff]

/-- The subtrees of nodes side by side are all that is within one of them. -/
@[simp]
theorem mem_subtreesOfAll_iff : ∀ {us : List Tree}, t ∈ subtreesOfAll us ↔ ∃ u ∈ us, t.Within u
  | [] => by simp [subtreesOfAll]
  | u :: rest => by
    unfold subtreesOfAll
    rw [List.mem_append, mem_subtrees_iff, mem_subtreesOfAll_iff]
    simp

end

/-- Whether a tree is well nested can be told from its subtrees. -/
theorem wellNested_iff : root.WellNested ↔ ∀ t ∈ root.subtrees,
    (∀ c ∈ t.children, t.range.holds c.range) ∧
    (t.children.Pairwise fun a b => a.range.Apart b.range) ∧
    (t.declaresType → ∀ c ∈ t.children, ∀ u ∈ c.subtrees, u.declaresType →
      t.range.startByte < u.range.startByte ∨ u.range.endByte < t.range.endByte) := by
  constructor
  · intro h t ht
    rw [mem_subtrees_iff] at ht
    refine ⟨h.inside t ht, h.apart t ht, fun htype c hc u hu => ?_⟩
    exact h.strict t ht htype c hc u (mem_subtrees_iff.1 hu)
  · intro h
    refine ⟨fun t ht => (h t (mem_subtrees_iff.2 ht)).1,
      fun t ht => (h t (mem_subtrees_iff.2 ht)).2.1, fun t ht htype c hc u hu => ?_⟩
    exact (h t (mem_subtrees_iff.2 ht)).2.2 htype c hc u (mem_subtrees_iff.2 hu)

instance : Decidable root.WellNested := decidable_of_iff _ wellNested_iff.symm

/-- A child of a well nested tree is well nested. -/
theorem WellNested.child (h : root.WellNested) {c : Tree} (hc : c ∈ root.children) :
    c.WellNested where
  inside t ht := h.inside t (.under hc ht)
  apart t ht := h.apart t (.under hc ht)
  strict t ht := h.strict t (.under hc ht)

theorem WellNested.holds_child (h : root.WellNested) {c : Tree} (hc : c ∈ root.children) :
    root.range.holds c.range :=
  h.inside root .self c hc

/-- In a well nested tree every node lies in the root. -/
theorem WellNested.holds_within (h : root.WellNested) (ht : t.Within root) :
    root.range.holds t.range := by
  induction ht with
  | self => exact SourceRange.holds_refl _
  | under hc _ ih => exact SourceRange.holds_trans (h.holds_child hc) (ih (h.child hc))

/-- A node below a node below a third one is below the third. -/
theorem Within.trans {v : Tree} (htu : t.Within u) (huv : u.Within v) : t.Within v := by
  induction huv with
  | self => exact htu
  | under hc _ ih => exact .under hc ih

/-- The child in a field is a child. -/
theorem mem_children_of_field? {c : Tree} {name : String} (h : t.field? name = some c) :
    c ∈ t.children :=
  List.mem_of_find?_eq_some h

end Tree

namespace Java

namespace Env

variable {env : Env} {vars : Variables} {around : List Tree} {t : Tree} {r : FileReference}

/-! ## References in code -/

/-- A reference stands in a range and names the type from which it is made. -/
structure MadeIn (env : Env) (range : SourceRange) (r : FileReference) : Prop where
  caller : r.callerClass = env.typeName?
  place : range.holds r.place

/-- A reference that stands in a range stands in every range around it. -/
theorem MadeIn.mono {outer inner : SourceRange} (h : env.MadeIn inner r)
    (hholds : outer.holds inner) : env.MadeIn outer r :=
  ⟨h.caller, SourceRange.holds_trans hholds h.place⟩

/-- A node makes a reference at one of its children. -/
theorem reference?_madeIn (h : env.reference? vars around t = some r) :
    ∃ c ∈ t.children, env.MadeIn c.range r := by
  unfold reference? at h
  split at h
  · unfold callReference at h
    obtain ⟨name, hname, h⟩ := Option.bind_eq_some_iff.1 h
    cases h
    -- a call stands at the name of the method
    exact ⟨name, Tree.mem_children_of_field? hname, rfl, SourceRange.holds_refl _⟩
  · unfold creationReference at h
    obtain ⟨type, htype, h⟩ := Option.bind_eq_some_iff.1 h
    cases h
    -- a creation stands at the type
    exact ⟨type, Tree.mem_children_of_field? htype, rfl, SourceRange.holds_refl _⟩
  · unfold methodReference at h
    obtain ⟨target, -, h⟩ := Option.bind_eq_some_iff.1 h
    obtain ⟨last, hlast, h⟩ := Option.bind_eq_some_iff.1 h
    have hmem := List.mem_of_getLast? hlast
    dsimp only at h
    split at h
    · cases h
      exact ⟨last, hmem, rfl, SourceRange.holds_refl _⟩
    split at h
    · cases h
      exact ⟨last, hmem, rfl, SourceRange.holds_refl _⟩
    · cases h
  · unfold constructorReference at h
    obtain ⟨here, -, h⟩ := Option.bind_eq_some_iff.1 h
    obtain ⟨keyword, hkeyword, h⟩ := Option.bind_eq_some_iff.1 h
    -- whichever constructor is meant, the reference stands at the keyword
    refine ⟨keyword, Tree.mem_children_of_field? hkeyword, ?_⟩
    dsimp only at h
    split at h
    · obtain ⟨target, -, h⟩ := Option.bind_eq_some_iff.1 h
      cases h
      exact ⟨rfl, SourceRange.holds_refl _⟩
    · obtain ⟨target, -, h⟩ := Option.bind_eq_some_iff.1 h
      cases h
      exact ⟨rfl, SourceRange.holds_refl _⟩
    · cases h
  · cases h

mutual

/-- Every reference in a piece of code is made by one of its nodes. -/
theorem exists_reference?_of_mem (vars : Variables) (around : List Tree) :
    ∀ t : Tree, ∀ r ∈ env.references vars around t,
      ∃ u : Tree, u.Within t ∧ ∃ vars' around', env.reference? vars' around' u = some r
  | .node info children, r, hr => by
    unfold references at hr
    dsimp only at hr
    split at hr
    · -- a lambda, which is entered through its body
      obtain ⟨c, hc, u, hu, hmade⟩ := exists_reference?_of_mem_body _ _ children r hr
      exact ⟨u, .under hc hu, hmade⟩
    · rcases List.mem_append.1 hr with hr | hr
      · exact ⟨_, .self, vars, around, Option.mem_toList.1 hr⟩
      · obtain ⟨c, hc, u, hu, hmade⟩ := exists_reference?_of_mem_all _ _ children r hr
        exact ⟨u, .under hc hu, hmade⟩

/-- Every reference in nodes side by side is made by a node within one of them. -/
theorem exists_reference?_of_mem_all (vars : Variables) (around : List Tree) :
    ∀ ts : List Tree, ∀ r ∈ env.referencesOfAll vars around ts,
      ∃ t ∈ ts, ∃ u : Tree, u.Within t ∧ ∃ vars' around', env.reference? vars' around' u = some r
  | [], r, hr => by
    unfold referencesOfAll at hr
    cases hr
  | t :: rest, r, hr => by
    unfold referencesOfAll at hr
    rcases List.mem_append.1 hr with hr | hr
    · split at hr
      · exact ⟨t, List.mem_cons_self, exists_reference?_of_mem vars around t r hr⟩
      · cases hr
    · obtain ⟨u, hu, hmade⟩ := exists_reference?_of_mem_all vars around rest r hr
      exact ⟨u, List.mem_cons_of_mem t hu, hmade⟩

/-- Every reference in the body of a lambda is made by a node within it. -/
theorem exists_reference?_of_mem_body (vars : Variables) (around : List Tree) :
    ∀ ts : List Tree, ∀ r ∈ env.referencesOfBody vars around ts,
      ∃ t ∈ ts, ∃ u : Tree, u.Within t ∧ ∃ vars' around', env.reference? vars' around' u = some r
  | [], r, hr => by
    unfold referencesOfBody at hr
    cases hr
  | t :: rest, r, hr => by
    unfold referencesOfBody at hr
    split at hr
    · exact ⟨t, List.mem_cons_self, exists_reference?_of_mem vars around t r hr⟩
    · obtain ⟨u, hu, hmade⟩ := exists_reference?_of_mem_body vars around rest r hr
      exact ⟨u, List.mem_cons_of_mem t hu, hmade⟩

end

/-- The references in a piece of code are made from the type around, whatever the code is. -/
theorem references_caller (vars : Variables) (around : List Tree) (t : Tree) :
    ∀ r ∈ env.references vars around t, r.callerClass = env.typeName? := by
  intro r hr
  obtain ⟨u, -, vars', around', h⟩ := exists_reference?_of_mem vars around t r hr
  obtain ⟨c, -, hmade⟩ := reference?_madeIn h
  exact hmade.caller

/-- The references in a well nested piece of code stand in it and name the type around. -/
theorem references_madeIn (vars : Variables) (around : List Tree) :
    ∀ t : Tree, t.WellNested → ∀ r ∈ env.references vars around t, env.MadeIn t.range r := by
  intro t ht r hr
  obtain ⟨u, hu, vars', around', h⟩ := exists_reference?_of_mem vars around t r hr
  obtain ⟨c, hc, hmade⟩ := reference?_madeIn h
  exact hmade.mono (ht.holds_within ((Tree.Within.under hc .self).trans hu))

/-- The references in the body of a method stand in it and name the type around. -/
theorem bodyReferences_madeIn (params : List Param) {body : Tree} (hbody : body.WellNested) :
    ∀ r ∈ env.bodyReferences params (some body), env.MadeIn body.range r :=
  references_madeIn _ _ body hbody

end Env

/-! ## What is found in a node -/

/-- The ranges of what is found, and the places of the references. -/
inductive Found.HasRange (found : Found) : SourceRange → Prop
  | declaration {d : FileDeclaration} : d ∈ found.declarations → HasRange found d.range
  | member {m : FileMember} : m ∈ found.members → HasRange found m.range
  | reference {r : FileReference} : r ∈ found.references → HasRange found r.place

@[simp] theorem Found.references_append (a b : Found) :
    (a ++ b).references = a.references ++ b.references := rfl

/-- A range of what was found in two parts is one of the first part or of the second. -/
theorem Found.HasRange.append {a b : Found} {range : SourceRange} (h : (a ++ b).HasRange range) :
    a.HasRange range ∨ b.HasRange range := by
  cases h with
  | declaration hd => exact (List.mem_append.1 hd).imp .declaration .declaration
  | member hm => exact (List.mem_append.1 hm).imp .member .member
  | reference hr => exact (List.mem_append.1 hr).imp .reference .reference

/-- Where nothing is found there are no ranges. -/
@[simp]
theorem Found.not_hasRange_empty {range : SourceRange} : ¬ Found.HasRange {} range := by
  intro h
  cases h with
  | declaration hd => cases hd
  | member hm => cases hm
  | reference hr => cases hr

/-- All that is found lies in one of some nodes. -/
def Found.LiesIn (ts : List Tree) (found : Found) : Prop :=
  ∀ range, found.HasRange range → ∃ t ∈ ts, t.range.holds range

theorem Found.LiesIn.empty (ts : List Tree) : Found.LiesIn ts {} :=
  fun _ h => absurd h not_hasRange_empty

/-- What is found in two parts lies in some nodes if each part does. -/
theorem Found.LiesIn.append {ts : List Tree} {a b : Found} (ha : a.LiesIn ts) (hb : b.LiesIn ts) :
    (a ++ b).LiesIn ts := by
  intro range h
  rcases h.append with h | h
  · exact ha range h
  · exact hb range h

/-- What lies in some nodes lies in any nodes around them. -/
theorem Found.LiesIn.mono {ts us : List Tree} {found : Found} (h : found.LiesIn ts)
    (hsub : ∀ t ∈ ts, ∃ u ∈ us, u.range.holds t.range) : found.LiesIn us := by
  intro range hrange
  obtain ⟨t, ht, hholds⟩ := h range hrange
  obtain ⟨u, hu, hut⟩ := hsub t ht
  exact ⟨u, hu, SourceRange.holds_trans hut hholds⟩

/-- What lies in children lies in their parent. -/
theorem Found.LiesIn.parent {t : Tree} {ts : List Tree} {found : Found} (h : found.LiesIn ts)
    (ht : t.WellNested) (hts : ∀ c ∈ ts, c ∈ t.children) : found.LiesIn [t] :=
  h.mono fun c hc => ⟨t, List.mem_singleton_self t, ht.holds_child (hts c hc)⟩

/-- What lies in the first of some nodes lies in these nodes. -/
theorem Found.LiesIn.head {t : Tree} {found : Found} (h : found.LiesIn [t]) (rest : List Tree) :
    found.LiesIn (t :: rest) := by
  refine h.mono fun u hu => ⟨u, ?_, SourceRange.holds_refl _⟩
  rw [List.mem_singleton.1 hu]
  exact List.mem_cons_self

/-- What lies in the rest of some nodes lies in these nodes. -/
theorem Found.LiesIn.tail {rest : List Tree} {found : Found} (h : found.LiesIn rest) (t : Tree) :
    found.LiesIn (t :: rest) :=
  h.mono fun u hu => ⟨u, List.mem_cons_of_mem t hu, SourceRange.holds_refl _⟩

section Fold

variable {parts : List Found} {start : Found}

/-- The members of parts taken together are those of each part. -/
@[simp]
theorem Found.mem_members_foldl {m : FileMember} :
    m ∈ (parts.foldl (· ++ ·) start).members ↔
      m ∈ start.members ∨ ∃ part ∈ parts, m ∈ part.members := by
  induction parts generalizing start with
  | nil => simp
  | cons part rest ih => simp [ih, or_assoc]

/-- The references of parts taken together are those of each part. -/
@[simp]
theorem Found.mem_references_foldl {r : FileReference} :
    r ∈ (parts.foldl (· ++ ·) start).references ↔
      r ∈ start.references ∨ ∃ part ∈ parts, r ∈ part.references := by
  induction parts generalizing start with
  | nil => simp
  | cons part rest ih => simp [ih, or_assoc]

end Fold

namespace Env

variable {env : Env} {index : Nat} {components : Option Tree} {t : Tree}

/-- The kinds of nodes that declare a method or a constructor. -/
def isCallable (kind : String) : Bool :=
  ["method_declaration", "annotation_type_element_declaration", "constructor_declaration",
    "compact_constructor_declaration"].contains kind

/-- What a node in a body records that declares no type: a method or a constructor that covers the
node, or fields that cover parts of it, with references made from the type around. -/
structure Records (env : Env) (t : Tree) (found : Found) : Prop where
  noTypes : found.declarations = []
  members : ∀ m ∈ found.members, t.range.holds m.range
  callable : isCallable t.kind → ∀ m ∈ found.members,
    found.members = [m] ∧ m.kind ≠ .field ∧ m.range = t.range
  fields : isCallable t.kind = false → ∀ m ∈ found.members, m.kind = .field
  references : ∀ r ∈ found.references, env.MadeIn t.range r

/-- All that a node records lies in it. -/
theorem Records.liesIn {found : Found} (h : env.Records t found) : found.LiesIn [t] := by
  intro range hrange
  refine ⟨t, List.mem_singleton_self t, ?_⟩
  cases hrange with
  | declaration hd =>
    rw [h.noTypes] at hd
    cases hd
  | member hm => exact h.members _ hm
  | reference hr => exact (h.references _ hr).place

/-- A node may record nothing. -/
theorem records_empty : env.Records t {} where
  noTypes := rfl
  members := by
    intro m hm
    cases hm
  callable := by
    intro _ m hm
    cases hm
  fields := by
    intro _ m hm
    cases hm
  references := by
    intro r hr
    cases hr

/-- A part of a node in which references are made. -/
theorem references_madeIn_field (ht : t.WellNested) {name : String} :
    ∀ r ∈ ((t.field? name).map (env.references {} [])).getD [], env.MadeIn t.range r := by
  intro r hr
  cases hpart : t.field? name with
  | none => simp [hpart] at hr
  | some part =>
    rw [hpart] at hr
    have hmem := Tree.mem_children_of_field? hpart
    exact (references_madeIn _ _ part (ht.child hmem) r hr).mono (ht.holds_child hmem)

/-- A declaration of fields records a field for each variable, with the references in their values.
-/
theorem fieldMembers_records (ht : t.WellNested) (hkind : isCallable t.kind = false) :
    env.Records t (env.fieldMembers index t) := by
  have hnoTypes := (env.fieldMembers_onlyMembers index t).noTypes
  revert hnoTypes
  unfold fieldMembers
  split
  · exact fun _ => records_empty
  · intro hnoTypes
    dsimp only at hnoTypes ⊢
    refine ⟨hnoTypes, ?_, by simp [hkind], ?_, ?_⟩
    · intro m hm
      rcases Found.mem_members_foldl.1 hm with hm | ⟨part, hpart, hm⟩
      · cases hm
      obtain ⟨declarator, hdeclarator, rfl⟩ := List.mem_map.1 hpart
      have hchild := ht.holds_child ((List.mem_filter.1 hdeclarator).1)
      split at hm
      · cases hm
      · rw [List.mem_singleton.1 hm]
        exact hchild
    · intro _ m hm
      rcases Found.mem_members_foldl.1 hm with hm | ⟨part, hpart, hm⟩
      · cases hm
      obtain ⟨declarator, -, rfl⟩ := List.mem_map.1 hpart
      split at hm
      · cases hm
      · rw [List.mem_singleton.1 hm]
    · intro r hr
      rcases Found.mem_references_foldl.1 hr with hr | ⟨part, hpart, hr⟩
      · cases hr
      obtain ⟨declarator, hdeclarator, rfl⟩ := List.mem_map.1 hpart
      have hmem := (List.mem_filter.1 hdeclarator).1
      split at hr
      · cases hr
      · -- the value stands in the declarator, and this in the declaration
        exact (references_madeIn_field (ht.child hmem) r hr).mono (ht.holds_child hmem)

/-- A constant of an enum records a field, the creation of it and the references in its own code. -/
theorem enumConstant_records (ht : t.WellNested) (hkind : isCallable t.kind = false) :
    env.Records t (env.enumConstant index t) := by
  unfold enumConstant
  split
  · next name owner hname howner =>
    have hchild := ht.holds_child (Tree.mem_children_of_field? hname)
    refine ⟨rfl, ?_, by simp [hkind], ?_, ?_⟩
    · intro m hm
      rw [List.mem_singleton.1 hm]
      exact SourceRange.holds_refl _
    · intro _ m hm
      rw [List.mem_singleton.1 hm]
    · intro r hr
      rcases List.mem_cons.1 hr with rfl | hr
      · exact ⟨rfl, hchild⟩
      rcases List.mem_append.1 hr with hr | hr
      · exact references_madeIn_field ht r hr
      · exact references_madeIn_field ht r hr
  · exact records_empty

/-- A method or constructor that covers a node, with the references in its body. -/
theorem records_callable {member : FileMember} (hfield : member.kind ≠ .field)
    (hrange : member.range = t.range) (ht : t.WellNested) (hkind : isCallable t.kind)
    (typeParams : List String) (params : List Param) :
    env.Records t
      { members := [member]
        references :=
          { env with methodTypeParams := typeParams }.bodyReferences params
            (t.field? "body") } where
  noTypes := rfl
  members := by
    intro m hm
    rw [List.mem_singleton.1 hm, hrange]
    exact SourceRange.holds_refl _
  callable := by
    intro _ m hm
    rw [List.mem_singleton.1 hm]
    exact ⟨rfl, hfield, hrange⟩
  fields := by simp [hkind]
  references := by
    intro r hr
    cases hbody : t.field? "body" with
    | none =>
      rw [hbody] at hr
      cases hr
    | some body =>
      rw [hbody] at hr
      -- the type around is the same with other type parameters
      have hmem := Tree.mem_children_of_field? hbody
      have hmade := bodyReferences_madeIn params (ht.child hmem) r hr
      exact ⟨hmade.caller, SourceRange.holds_trans (ht.holds_child hmem) hmade.place⟩

/-- Whatever its kind, a node in a body that declares no type records no type, and all in its own
range. -/
theorem memberOf_records (ht : t.WellNested) : env.Records t (env.memberOf index components t) := by
  have hmethod (hkind : isCallable t.kind) : env.Records t (env.methodMember index t) := by
    unfold methodMember
    split
    · exact records_empty
    · exact records_callable (by simp) rfl ht hkind _ _
  have hconstructor (hkind : isCallable t.kind) :
      env.Records t (env.constructorMember index components t) := by
    unfold constructorMember
    split
    · exact records_empty
    · exact records_callable (by simp) rfl ht hkind _ _
  have hblock : env.Records t { references := env.references {} [] t } := by
    refine ⟨rfl, ?_, ?_, ?_, references_madeIn _ _ t ht⟩
    · intro m hm
      cases hm
    · intro _ m hm
      cases hm
    · intro _ m hm
      cases hm
  unfold memberOf
  split
  · next hkind => exact fieldMembers_records ht (by rw [hkind]; rfl)
  · next hkind => exact fieldMembers_records ht (by rw [hkind]; rfl)
  · next hkind => exact hmethod (by rw [hkind]; rfl)
  · next hkind => exact hmethod (by rw [hkind]; rfl)
  · next hkind => exact hconstructor (by rw [hkind]; rfl)
  · next hkind => exact hconstructor (by rw [hkind]; rfl)
  · next hkind => exact enumConstant_records ht (by rw [hkind]; rfl)
  · exact hblock
  · exact hblock
  · exact records_empty

/-- What a type records of itself: its declaration covers the node, the components of a record
are fields in it. -/
structure RecordsType (t : Tree) (declaration : FileDeclaration) (own : Found) : Prop where
  declarations : own.declarations = [declaration]
  range : declaration.range = t.range
  fields : ∀ m ∈ own.members, m.kind = .field ∧ t.range.holds m.range
  noReferences : own.references = []

/-- All that a type records of itself lies in its node. -/
theorem RecordsType.liesIn {declaration : FileDeclaration} {own : Found}
    (h : RecordsType t declaration own) : own.LiesIn [t] := by
  intro range hrange
  refine ⟨t, List.mem_singleton_self t, ?_⟩
  cases hrange with
  | declaration hd =>
    rw [h.declarations, List.mem_singleton] at hd
    rw [hd, h.range]
    exact SourceRange.holds_refl _
  | member hm => exact (h.fields _ hm).2
  | reference hr =>
    rw [h.noReferences] at hr
    cases hr

/-- A node that declares a type with a name records the type, then what is in its body. -/
theorem typeSymbols_eq (env : Env) (index : Nat) {info : NodeInfo} {children : List Tree}
    {name : Tree} (hname : (Tree.node info children).field? "name" = some name)
    (ht : (Tree.node info children).WellNested) :
    ∃ own,
      env.typeSymbols index (.node info children) =
        own ++ bodySymbols (env.openType (.node info children) (name.text env.source)).2 index
          ((Tree.node info children).field? "parameters") children ∧
      RecordsType (.node info children)
        (env.openType (.node info children) (name.text env.source)).1 own := by
  unfold typeSymbols
  simp only [hname]
  refine ⟨_, rfl, rfl, rfl, ?_, rfl⟩
  intro m hm
  dsimp only at hm
  split at hm
  · -- the components of a record all have the range of the list
    cases hparams : (Tree.node info children).field? "parameters" with
    | none => simp [hparams] at hm
    | some params =>
      rw [hparams] at hm
      obtain ⟨p, -, rfl⟩ := List.mem_map.1 hm
      exact ⟨rfl, ht.holds_child (Tree.mem_children_of_field? hparams)⟩
  · cases hm

mutual

/-- All that is found in a type lies in its node. -/
theorem typeSymbols_liesIn (env : Env) (index : Nat) :
    ∀ t : Tree, t.WellNested → (env.typeSymbols index t).LiesIn [t]
  | .node info children, ht => by
    cases hname : (Tree.node info children).field? "name" with
    | none =>
      unfold typeSymbols
      simp only [hname]
      exact .empty _
    | some name =>
      obtain ⟨own, heq, hown⟩ := typeSymbols_eq env index hname ht
      have hbody := bodySymbols_liesIn
        (env.openType (.node info children) (name.text env.source)).2 index
        ((Tree.node info children).field? "parameters") children fun c hc => ht.child hc
      rw [heq]
      exact hown.liesIn.append (hbody.parent ht fun c hc => hc)

/-- All that is found in the body among some nodes lies in these nodes. -/
theorem bodySymbols_liesIn (env : Env) (index : Nat) (components : Option Tree) :
    ∀ ts : List Tree, (∀ t ∈ ts, t.WellNested) →
      (env.bodySymbols index components ts).LiesIn ts
  | [], _ => by
    unfold bodySymbols
    exact .empty _
  | .node info children :: rest, hts => by
    obtain ⟨ht, hrest⟩ := List.forall_mem_cons.1 hts
    unfold bodySymbols
    split
    · have hbody := memberSymbols_liesIn env index components (index + 1) children
        fun c hc => ht.child hc
      exact (hbody.parent ht fun c hc => hc).head rest
    · exact (bodySymbols_liesIn env index components rest hrest).tail _

/-- All that is found in the nodes of a body lies in these nodes. -/
theorem memberSymbols_liesIn (env : Env) (index : Nat) (components : Option Tree) (next : Nat) :
    ∀ ts : List Tree, (∀ t ∈ ts, t.WellNested) →
      (env.memberSymbols index components next ts).LiesIn ts
  | [], _ => by
    unfold memberSymbols
    exact .empty _
  | .node info children :: rest, hts => by
    obtain ⟨ht, hrest⟩ := List.forall_mem_cons.1 hts
    unfold memberSymbols
    refine (Found.LiesIn.head ?_ rest).append
      ((memberSymbols_liesIn env index components _ rest hrest).tail _)
    split
    · exact .empty _
    split
    · exact typeSymbols_liesIn env next (.node info children) ht
    split
    · have hinner := memberSymbols_liesIn env index none next children fun c hc => ht.child hc
      -- what is behind the constants of an enum lies in one node of the body
      exact hinner.parent ht fun c hc => hc
    · exact (memberOf_records ht).liesIn

end

/-- All that is found in a file lies in the nodes at its top. -/
theorem topSymbols_liesIn (env : Env) (next : Nat) (ts : List Tree)
    (hts : ∀ t ∈ ts, t.WellNested) : (env.topSymbols next ts).LiesIn ts := by
  induction ts generalizing next with
  | nil => exact .empty _
  | cons t rest ih =>
    obtain ⟨ht, hrest⟩ := List.forall_mem_cons.1 hts
    unfold topSymbols
    refine (Found.LiesIn.head ?_ rest).append ((ih _ hrest).tail t)
    split
    · exact env.typeSymbols_liesIn next t ht
    · exact .empty _

end Env

end Java

end JavaAtlas
