import JavaAtlas.Proofs.Java.Nesting

namespace JavaAtlas

/-! # Spots in a tree

Two nodes of a tree may look alike and cover the same bytes, so a node is told by its spot: the
way that leads to it from the root. What is recorded of a file stands at a spot, and a type
surrounds what is in its body, and in its header if it is a record.
-/

/-- The way down to a node: which child is taken at each step. -/
abbrev Spot := List Nat

namespace Tree

variable {root t u : Tree} {s p q : Spot} {i j : Nat}

/-- The node at a spot below another one. -/
def at? (t : Tree) : Spot → Option Tree
  | [] => some t
  | i :: rest => (t.children[i]?).bind (·.at? rest)

@[simp]
theorem at?_nil (t : Tree) : t.at? [] = some t := rfl

@[simp]
theorem at?_cons (t : Tree) (i : Nat) (rest : Spot) :
    t.at? (i :: rest) = (t.children[i]?).bind (·.at? rest) := rfl

/-- What stands below a node stands at or below one of its children. -/
theorem at?_cons_eq_some_iff {t u : Tree} {i : Nat} {rest : Spot} :
    t.at? (i :: rest) = some u ↔ ∃ c, t.children[i]? = some c ∧ c.at? rest = some u := by
  simp [Option.bind_eq_some_iff]

/-- A way down may be taken in two parts. -/
theorem at?_append (t : Tree) (s p : Spot) : t.at? (s ++ p) = (t.at? s).bind (·.at? p) := by
  induction s generalizing t with
  | nil => rfl
  | cons i rest ih =>
    rw [List.cons_append, at?, at?, Option.bind_assoc]
    exact congrArg _ (funext ih)

/-- One step further leads to a child. -/
theorem at?_child (hs : root.at? s = some t) (hi : t.children[i]? = some u) :
    root.at? (s ++ [i]) = some u := by
  rw [at?_append, hs, Option.bind_some, at?, hi]
  rfl

/-- The first of the children from number `i` on. -/
theorem children_of_drop {rest : List Tree} (h : t.children.drop i = u :: rest) :
    t.children[i]? = some u ∧ t.children.drop (i + 1) = rest ∧
      t.children.take (i + 1) = t.children.take i ++ [u] := by
  have hget : t.children[i]? = some u := by
    rw [← List.head?_drop, h]
    rfl
  refine ⟨hget, ?_, ?_⟩
  · rw [← List.tail_drop, h]
    rfl
  · rw [List.take_add_one, hget]
    rfl

/-- What a way leads to is within the tree. -/
theorem within_of_at? (h : t.at? s = some u) : u.Within t := by
  induction s generalizing t with
  | nil =>
    cases h
    exact .self
  | cons i rest ih =>
    obtain ⟨c, hc, h⟩ := Option.bind_eq_some_iff.1 h
    exact .under (List.mem_of_getElem? hc) (ih h)

/-! ## Nodes that lie in others -/

/-- Children lie in their parents. -/
def Contained (root : Tree) : Prop :=
  ∀ t : Tree, t.Within root → ∀ c ∈ t.children, t.range.holds c.range

/-- Whether children lie in their parents can be told from the subtrees. -/
theorem contained_iff : root.Contained ↔
    ∀ t ∈ root.subtrees, ∀ c ∈ t.children, t.range.holds c.range :=
  forall_congr' fun _ => imp_congr mem_subtrees_iff.symm Iff.rfl

instance : Decidable root.Contained := decidable_of_iff _ contained_iff.symm

/-- A node lies in every node above it. -/
theorem Contained.holds_within (h : root.Contained) (hu : u.Within root) (ht : t.Within u) :
    u.range.holds t.range := by
  induction ht with
  | self => exact SourceRange.holds_refl _
  | under hc _ ih =>
    have hchild := h _ hu _ hc
    exact SourceRange.holds_trans hchild (ih (Within.trans (.under hc .self) hu))

/-- What a spot leads to lies in what a shorter one leads to. -/
theorem Contained.holds_below (h : root.Contained) (hs : root.at? s = some u)
    (hp : root.at? p = some t) (hsp : s <+: p) : u.range.holds t.range := by
  obtain ⟨rest, rfl⟩ := hsp
  rw [at?_append, hs, Option.bind_some] at hp
  exact h.holds_within (within_of_at? hs) (within_of_at? hp)

/-! ## What stands at a spot -/

/-- The number of the first child in a field. -/
def place? (t : Tree) (name : String) : Option Nat :=
  t.children.findIdx? (·.info.field == some name)

/-- A child in which members of the type are that the node declares: the body, or the list of the
components of a record. -/
def HoldsMembersAt (t : Tree) (i : Nat) : Prop :=
  t.place? "body" = some i ∨ t.kind = "record_declaration" ∧ t.place? "parameters" = some i

/-- A spot is in the body of the type at another one, or in its header if it is a record. -/
def Surrounds (root : Tree) (s p : Spot) : Prop :=
  ∃ t i, root.at? s = some t ∧ t.HoldsMembersAt i ∧ s ++ [i] <+: p

/-- A node at a spot declares a type as it is recorded. -/
def Declares (root : Tree) (source : String) (s : Spot) (d : FileDeclaration) : Prop :=
  ∃ t name, root.at? s = some t ∧ t.declaresType ∧ t.field? "name" = some name ∧
    d.name = name.text source ∧ d.range = t.range

/-- A node at a spot covers the bytes of a member. -/
def HasMember (root : Tree) (p : Spot) (m : FileMember) : Prop :=
  ∃ t, root.at? p = some t ∧
    m.range.startByte = t.range.startByte ∧ m.range.endByte = t.range.endByte

/-- What a type surrounds is below it. -/
theorem Surrounds.below (h : root.Surrounds s p) : s <+: p := by
  obtain ⟨t, i, -, -, hi⟩ := h
  exact (List.prefix_append s [i]).trans hi

/-- What is below something that a type surrounds is surrounded by it, too. -/
theorem Surrounds.mono (h : root.Surrounds s p) (hpq : p <+: q) : root.Surrounds s q := by
  obtain ⟨t, i, hs, hholds, hi⟩ := h
  exact ⟨t, i, hs, hholds, hi.trans hpq⟩

/-- The first child in a field is at its place. -/
theorem place?_eq_some_iff {name : String} : t.place? name = some i ↔
    ∃ c, t.children[i]? = some c ∧ c.info.field = some name ∧
      ∀ b ∈ t.children.take i, b.info.field ≠ some name := by
  unfold place?
  rw [List.findIdx?_eq_some_iff_getElem]
  constructor
  · rintro ⟨hi, hfield, hbefore⟩
    refine ⟨_, List.getElem?_eq_getElem hi, by simpa using hfield, ?_⟩
    intro b hb
    obtain ⟨j, hj, rfl⟩ := List.mem_take_iff_getElem.1 hb
    simpa using hbefore j (by omega)
  · rintro ⟨c, hc, hfield, hbefore⟩
    obtain ⟨hi, rfl⟩ := List.getElem?_eq_some_iff.1 hc
    refine ⟨hi, by simpa using hfield, ?_⟩
    intro j hj
    have hne := hbefore _ (List.mem_take_iff_getElem.2 ⟨j, by omega, rfl⟩)
    simpa using hne

/-- Children in two different fields are two children. -/
theorem place?_ne {name other : String} (hi : t.place? name = some i) (hj : t.place? other = some j)
    (hne : name ≠ other) : i ≠ j := by
  rintro rfl
  obtain ⟨c, hc, hname, -⟩ := place?_eq_some_iff.1 hi
  obtain ⟨d, hd, hother, -⟩ := place?_eq_some_iff.1 hj
  -- one child cannot be in both fields
  rw [hc, Option.some.injEq] at hd
  rw [hd, hother, Option.some.injEq] at hname
  exact hne hname.symm

/-- A field that is missing has no place. -/
theorem place?_eq_none_of_field? {name : String} (h : t.field? name = none) :
    t.place? name = none := by
  unfold place?
  rw [List.findIdx?_eq_none_iff]
  intro c hc
  simpa using List.find?_eq_none.mp h c hc

/-- The child in a field stands at the place of this field. -/
theorem exists_place?_of_field? {name : String} {c : Tree} (h : t.field? name = some c) :
    ∃ i, t.place? name = some i ∧ t.children[i]? = some c := by
  obtain ⟨hfield, i, hi, rfl, hbefore⟩ := List.find?_eq_some_iff_getElem.1 h
  refine ⟨i, ?_, List.getElem?_eq_getElem hi⟩
  unfold place?
  rw [List.findIdx?_eq_some_iff_getElem]
  exact ⟨hi, hfield, fun j hj => by simpa using hbefore j hj⟩

end Tree

namespace Spot

variable {s p q : Spot} {i j : Nat}

/-- Nothing is below two children of one node. -/
theorem not_prefix_of_ne (hij : i ≠ j) (hi : s ++ [i] <+: p) : ¬ s ++ [j] <+: p := by
  intro hj
  have hbelow : s ++ [i] <+: s ++ [j] :=
    List.prefix_of_prefix_length_le hi hj (by simp)
  -- two ways of the same length to the same node are the same way
  have heq : s ++ [i] = s ++ [j] := hbelow.eq_of_length (by simp)
  simp at heq
  exact hij heq

end Spot

end JavaAtlas
