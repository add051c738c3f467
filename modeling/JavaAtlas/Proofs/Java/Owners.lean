import JavaAtlas.Java.Source

namespace JavaAtlas.Java

/-! # To which types members belong

A member names the type that it belongs to by the number of its declaration. Types are numbered as
they are found: a type comes before those in its body.

* `Found.OnlyMembersOf`, `Found.OwnersBetween`, `Found.OwnersFrom`: which numbers there may be;
* `extract_members_owned`: every member of a source file belongs to one of its declarations.
-/

@[simp] theorem Found.declarations_append (a b : Found) :
    (a ++ b).declarations = a.declarations ++ b.declarations := rfl

@[simp] theorem Found.members_append (a b : Found) :
    (a ++ b).members = a.members ++ b.members := rfl

/-- Nothing but members of type `index`. -/
structure Found.OnlyMembersOf (index : Nat) (found : Found) : Prop where
  noTypes : found.declarations = []
  owned : ∀ m ∈ found.members, m.declIndex = index

theorem Found.OnlyMembersOf.empty (index : Nat) : Found.OnlyMembersOf index {} :=
  ⟨rfl, by intro m hm; cases hm⟩

/-- What was found one after the other has members of that type only, if both parts have. -/
theorem Found.OnlyMembersOf.append {index : Nat} {a b : Found}
    (ha : a.OnlyMembersOf index) (hb : b.OnlyMembersOf index) : (a ++ b).OnlyMembersOf index := by
  constructor
  · rw [Found.declarations_append, ha.noTypes, hb.noTypes, List.append_nil]
  · intro m hm
    rw [Found.members_append, List.mem_append] at hm
    rcases hm with hm | hm
    · exact ha.owned m hm
    · exact hb.owned m hm

/-- Any number of parts with members of that type only have such members together. -/
theorem Found.OnlyMembersOf.foldl {index : Nat} {parts : List Found} {start : Found}
    (hstart : start.OnlyMembersOf index) (hparts : ∀ part ∈ parts, part.OnlyMembersOf index) :
    (parts.foldl (· ++ ·) start).OnlyMembersOf index := by
  induction parts generalizing start with
  | nil => exact hstart
  | cons part rest ih =>
    have hpart := hparts part List.mem_cons_self
    exact ih (hstart.append hpart) fun p hp => hparts p (List.mem_cons_of_mem part hp)

namespace Env

/-- A field declaration gives members of the type that it stands in, one for each declarator. -/
theorem fieldMembers_onlyMembers (env : Env) (index : Nat) (t : Tree) :
    (env.fieldMembers index t).OnlyMembersOf index := by
  unfold fieldMembers
  split
  · exact .empty index
  · apply Found.OnlyMembersOf.foldl (.empty index)
    intro part hpart
    obtain ⟨declarator, -, rfl⟩ := List.mem_map.mp hpart
    dsimp only
    split
    · exact .empty index
    · exact ⟨rfl, by simp⟩

/-- A constant of an enumeration is a member of it. -/
theorem enumConstant_onlyMembers (env : Env) (index : Nat) (t : Tree) :
    (env.enumConstant index t).OnlyMembersOf index := by
  unfold enumConstant
  split
  · exact ⟨rfl, by simp⟩
  · exact .empty index

/-- A method is a member of the type that it stands in. -/
theorem methodMember_onlyMembers (env : Env) (index : Nat) (t : Tree) :
    (env.methodMember index t).OnlyMembersOf index := by
  unfold methodMember
  split
  · exact .empty index
  · exact ⟨rfl, by simp⟩

theorem constructorMember_onlyMembers (env : Env) (index : Nat) (components : Option Tree)
    (t : Tree) : (env.constructorMember index components t).OnlyMembersOf index := by
  unfold constructorMember
  split
  · exact .empty index
  · exact ⟨rfl, by simp⟩

/-- Whatever its kind, a declaration in a body gives members of that type and no types. -/
theorem memberOf_onlyMembers (env : Env) (index : Nat) (components : Option Tree) (t : Tree) :
    (env.memberOf index components t).OnlyMembersOf index := by
  unfold memberOf
  split
  · exact env.fieldMembers_onlyMembers index t
  · exact env.fieldMembers_onlyMembers index t
  · exact env.methodMember_onlyMembers index t
  · exact env.methodMember_onlyMembers index t
  · exact env.constructorMember_onlyMembers index components t
  · exact env.constructorMember_onlyMembers index components t
  · exact env.enumConstant_onlyMembers index t
  · exact ⟨rfl, by simp⟩
  · exact ⟨rfl, by simp⟩
  · exact .empty index

/-- The components of a record are members of it. -/
theorem componentMembers_declIndex {env : Env} {index : Nat} {params : Tree} {m : FileMember}
    (hm : m ∈ env.componentMembers index params) : m.declIndex = index := by
  obtain ⟨p, -, rfl⟩ := List.mem_map.mp hm
  rfl

end Env

/-- Every member belongs to type `index` or to one of the types found, which are numbered from
`next` on. -/
def Found.OwnersBetween (index next : Nat) (found : Found) : Prop :=
  ∀ m ∈ found.members,
    m.declIndex = index ∨ next ≤ m.declIndex ∧ m.declIndex < next + found.declarations.length

/-- Types in what comes second are numbered behind those in what comes first. -/
theorem Found.OwnersBetween.append {index next : Nat} {a b : Found}
    (ha : a.OwnersBetween index next)
    (hb : b.OwnersBetween index (next + a.declarations.length)) :
    (a ++ b).OwnersBetween index next := by
  intro m hm
  rw [Found.members_append, List.mem_append] at hm
  rw [Found.declarations_append, List.length_append]
  rcases hm with hm | hm
  · rcases ha m hm with h | h
    · exact Or.inl h
    · exact Or.inr ⟨h.1, by omega⟩
  · rcases hb m hm with h | h
    · exact Or.inl h
    · exact Or.inr ⟨by omega, by omega⟩

theorem Found.OnlyMembersOf.ownersBetween {index : Nat} {found : Found}
    (h : found.OnlyMembersOf index) (next : Nat) : found.OwnersBetween index next :=
  fun m hm => Or.inl (h.owned m hm)

/-- The members of a type and of those in it belong to types that were found with it. -/
def Found.OwnersFrom (first : Nat) (found : Found) : Prop :=
  ∀ m ∈ found.members, first ≤ m.declIndex ∧ m.declIndex < first + found.declarations.length

namespace Env

mutual

/-- All that is found in a type belongs to it or to a type found in it. -/
theorem typeSymbols_owners (env : Env) (index : Nat) :
    ∀ t : Tree, (env.typeSymbols index t).OwnersFrom index
  | .node info children => by
    unfold typeSymbols
    dsimp only
    split
    · intro m hm
      cases hm
    · rename_i name hname
      intro m hm
      rw [Found.members_append, List.mem_append] at hm
      rw [Found.declarations_append, List.length_append, List.length_singleton]
      rcases hm with hm | hm
      · -- components of records belong to the type itself
        have hown : m.declIndex = index := by
          dsimp only at hm
          split at hm
          · cases hparams : (Tree.node info children).field? "parameters" with
            | none => simp [hparams] at hm
            | some params =>
              simp only [hparams, Option.map_some, Option.getD_some] at hm
              exact componentMembers_declIndex hm
          · cases hm
        omega
      · have hbody := bodySymbols_owners
          (env.openType (.node info children) (name.text env.source)).2 index
          ((Tree.node info children).field? "parameters") children m hm
        omega

/-- All that is found in a body belongs to the type around it or to a type found in it. -/
theorem bodySymbols_owners (env : Env) (index : Nat) (components : Option Tree) :
    ∀ ts : List Tree, (env.bodySymbols index components ts).OwnersBetween index (index + 1)
  | [] => by
    intro m hm
    unfold bodySymbols at hm
    cases hm
  | .node info children :: rest => by
    unfold bodySymbols
    split
    · exact memberSymbols_owners env index components (index + 1) children
    · exact bodySymbols_owners env index components rest

/-- The members that are left of a body belong to the type around it, or to types numbered from the
next number on. -/
theorem memberSymbols_owners (env : Env) (index : Nat) (components : Option Tree) (next : Nat) :
    ∀ ts : List Tree, (env.memberSymbols index components next ts).OwnersBetween index next
  | [] => by
    intro m hm
    unfold memberSymbols at hm
    cases hm
  | .node info children :: rest => by
    unfold memberSymbols
    -- types behind this one are numbered after all that were found in it
    apply Found.OwnersBetween.append _ (memberSymbols_owners env index components _ rest)
    split
    · intro m hm
      cases hm
    · split
      · intro m hm
        -- a type of its own: its number is the next one
        exact Or.inr (typeSymbols_owners env next (.node info children) m hm)
      · split
        · -- the part of an enumeration behind its constants has members of the same type
          exact memberSymbols_owners env index none next children
        · exact (env.memberOf_onlyMembers index components _).ownersBetween next

end

/-- The types of a file are numbered one after the other, each with those in it. -/
theorem topSymbols_owners (env : Env) (next : Nat) (ts : List Tree) :
    (env.topSymbols next ts).OwnersFrom next := by
  induction ts generalizing next with
  | nil =>
    intro m hm
    cases hm
  | cons t rest ih =>
    have hhere : Found.OwnersFrom next
        (if t.info.named && isTypeDeclaration t.kind then env.typeSymbols next t else {}) := by
      split
      · exact env.typeSymbols_owners next t
      · intro m hm
        cases hm
    intro m hm
    unfold topSymbols at hm ⊢
    rw [Found.members_append, List.mem_append] at hm
    rw [Found.declarations_append, List.length_append]
    rcases hm with hm | hm
    · have := hhere m hm
      omega
    · have := ih _ m hm
      omega

end Env

/-- Every member of a source file belongs to one of its declarations. -/
theorem extract_members_owned (source : String) (root : Tree) :
    ∀ m ∈ (extract source root).members,
      m.declIndex < (extract source root).declarations.length := by
  intro m hm
  have h := Env.topSymbols_owners { file := FileNames.ofTree source root } 0 root.children m hm
  simpa [extract] using h.2

end JavaAtlas.Java
