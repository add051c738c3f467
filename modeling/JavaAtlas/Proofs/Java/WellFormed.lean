import Mathlib.Data.List.Nodup
import JavaAtlas.Proofs.Index.Enclosing
import JavaAtlas.Proofs.Java.Stacks

namespace JavaAtlas.Java

/-! # What a walk records is well formed

At every moment of a walk, what has been recorded is in order: each declaration stands at a node
that declares it and is named after the type around it, which was recorded before; each member
belongs to the innermost recorded type that surrounds it; each reference is made from a recorded
type. What a walk adds when it visits a node stands at that node or below it, so that it does not
come between the types and the members that were there.

* `Sound`: what holds of a walk at every moment;
* `Sound.pushType`, `Sound.recordMembers`, `Sound.refer`: what is recorded keeps it;
* `visitMember_records`: what a member records;
* `visitType_visited`, `visitMembers_visited`, `walked_sound`: whole visits keep it;
* `extract_wellFormed`: what follows for the symbols of a file.
-/

/-- A declaration with the spot of its node. -/
abbrev DeclarationAt := FileDeclaration × Spot

/-- A member with the spot of its node. -/
abbrev MemberAt := FileMember × Spot

/-- A member names the innermost one of the types that surround it. -/
def OwnedIn (root : Tree) (ds : List DeclarationAt) (m : MemberAt) : Prop :=
  ∃ x, ds[m.1.declIndex]? = some x ∧ root.Surrounds x.2 m.2 ∧
    ∀ y ∈ ds, root.Surrounds y.2 m.2 → y.2 <+: x.2

/-- A type is named after the type around it, which is one of those recorded before, or after its
package. -/
def NamedAfter (package : String) (before : List DeclarationAt) (x : DeclarationAt) : Prop :=
  match x.1.outer with
  | some o => ∃ y ∈ before, y.1.qualname = o ∧ x.1.qualname = o ++ "." ++ x.1.name ∧ y.2 <+: x.2
  | none => x.1.qualname = qualify package x.1.name

/-- A further type takes no member away from its owner, if the member is not below it. -/
theorem OwnedIn.concat {root : Tree} {ds : List DeclarationAt} {m : MemberAt} (h : OwnedIn root ds m)
    {x : DeclarationAt} (hx : ¬ x.2 <+: m.2) : OwnedIn root (ds ++ [x]) m := by
  obtain ⟨y, hy, hsurrounds, hinnermost⟩ := h
  have hlt := (List.getElem?_eq_some_iff.1 hy).1
  refine ⟨y, by rw [List.getElem?_append_left hlt, hy], hsurrounds, ?_⟩
  intro z hz hzm
  rcases List.mem_append.1 hz with hz | hz
  · exact hinnermost z hz hzm
  · rw [List.mem_singleton.1 hz] at hzm
    -- the new type does not surround the member
    exact absurd hzm.below hx

namespace Walker

variable {root t : Tree} {w w' w'' : Walker} {q s p : Spot} {index i j : Nat}
  {components : Option Tree}

/-- What has been recorded is in order. -/
structure Sound (root : Tree) (w : Walker) : Prop where
  declares : ∀ x ∈ w.declarations, root.Declares w.file.source x.2 x.1
  spots : (w.declarations.map (·.2)).Nodup
  named : ∀ i x, w.declarations[i]? = some x →
    NamedAfter w.file.package (w.declarations.take i) x
  hasMember : ∀ m ∈ w.members, root.HasMember m.2 m.1
  owned : ∀ m ∈ w.members, OwnedIn root w.declarations m
  callers : ∀ r ∈ w.references, ∃ x ∈ w.declarations, r.callerClass = some x.1.qualname

/-- Nothing has been recorded at a spot or below it. -/
structure Clear (w : Walker) (q : Spot) : Prop where
  declarations : ∀ x ∈ w.declarations, ¬ q <+: x.2
  members : ∀ m ∈ w.members, ¬ q <+: m.2

/-- What has been recorded meanwhile is at a spot or below it. -/
structure AddsBelow (q : Spot) (w w' : Walker) : Prop where
  keeps : w.declarations <+: w'.declarations
  declarations : ∀ x ∈ w'.declarations, x ∈ w.declarations ∨ q <+: x.2
  members : ∀ m ∈ w'.members, m ∈ w.members ∨ q <+: m.2

/-- The walk is in the body or header of type `index`, which is at `s`, in front of a node at
`q`. -/
structure InFrontOf (root : Tree) (w : Walker) (index : Nat) (s q : Spot) : Prop where
  type : ∃ d, w.declarations[index]? = some (d, s) ∧ w.env.typeName? = some d.qualname
  surrounds : root.Surrounds s q
  innermost : ∀ x ∈ w.declarations, x.2 <+: q → x.2 <+: s
  clear : w.Clear q

/-! ## One record after the other -/

theorem AddsBelow.refl (q : Spot) (w : Walker) : AddsBelow q w w :=
  ⟨List.prefix_refl _, fun _ hx => .inl hx, fun _ hm => .inl hm⟩

/-- What is added in two steps is below a spot if both additions are. -/
theorem AddsBelow.trans (h : AddsBelow q w w') (h' : AddsBelow q w' w'') : AddsBelow q w w'' where
  keeps := h.keeps.trans h'.keeps
  declarations := by
    intro x hx
    rcases h'.declarations x hx with hx | hx
    · exact h.declarations x hx
    · exact .inr hx
  members := by
    intro m hm
    rcases h'.members m hm with hm | hm
    · exact h.members m hm
    · exact .inr hm

/-- What is added below a spot is below every spot above it. -/
theorem AddsBelow.above (h : AddsBelow q w w') (hp : p <+: q) : AddsBelow p w w' where
  keeps := h.keeps
  declarations x hx := (h.declarations x hx).imp_right hp.trans
  members m hm := (h.members m hm).imp_right hp.trans

/-- Where nothing is recorded below a spot, nothing is recorded below any spot under it. -/
theorem Clear.below (h : w.Clear q) (hq : q <+: p) : w.Clear p where
  declarations x hx hp := h.declarations x hx (hq.trans hp)
  members m hm hp := h.members m hm (hq.trans hp)

/-- What is recorded below one child is not below another one. -/
theorem Clear.beside (h : w.Clear (q ++ [j])) (hadds : AddsBelow (q ++ [i]) w w') (hij : i ≠ j) :
    w'.Clear (q ++ [j]) where
  declarations x hx := by
    rcases hadds.declarations x hx with hx | hx
    · exact h.declarations x hx
    · exact Spot.not_prefix_of_ne hij hx
  members m hm := by
    rcases hadds.members m hm with hm | hm
    · exact h.members m hm
    · exact Spot.not_prefix_of_ne hij hm

/-- From a node the walk goes on to its children. -/
theorem InFrontOf.child (h : w.InFrontOf root index s q) (j : Nat) :
    w.InFrontOf root index s (q ++ [j]) where
  type := h.type
  surrounds := h.surrounds.mono (List.prefix_append q [j])
  innermost x hx hbelow := by
    rcases List.prefix_concat_iff.1 hbelow with heq | hbelow
    · -- nothing is recorded yet below `q`
      have hbelow : q <+: x.2 := heq ▸ List.prefix_append q [j]
      exact absurd hbelow (h.clear.declarations x hx)
    · exact h.innermost x hx hbelow
  clear := h.clear.below (List.prefix_append q [j])

/-- From one child the walk goes on to another one. -/
theorem InFrontOf.beside (h : w.InFrontOf root index s (q ++ [j]))
    (hadds : AddsBelow (q ++ [i]) w w') (henv : w'.env = w.env) (hij : i ≠ j) :
    w'.InFrontOf root index s (q ++ [j]) where
  type := by
    obtain ⟨d, hd, hname⟩ := h.type
    obtain ⟨more, hmore⟩ := hadds.keeps
    have hlt := (List.getElem?_eq_some_iff.1 hd).1
    exact ⟨d, by rw [← hmore, List.getElem?_append_left hlt, hd], henv ▸ hname⟩
  surrounds := h.surrounds
  innermost x hx hbelow := by
    rcases hadds.declarations x hx with hx | hx
    · exact h.innermost x hx hbelow
    · exact absurd (List.prefix_refl _) (Spot.not_prefix_of_ne hij (hx.trans hbelow))
  clear := h.clear.beside hadds hij

/-- What stands at the node in front belongs to the type around. -/
theorem InFrontOf.owned (h : w.InFrontOf root index s q) {m : MemberAt}
    (hindex : m.1.declIndex = index) (hq : q <+: m.2) : OwnedIn root w.declarations m := by
  obtain ⟨d, hd, -⟩ := h.type
  refine ⟨(d, s), by rw [hindex, hd], h.surrounds.mono hq, ?_⟩
  intro y hy hsurrounds
  -- of a type around the member and the node, one is below the other
  rcases List.prefix_or_prefix_of_prefix hsurrounds.below hq with hbelow | hbelow
  · exact h.innermost y hy hbelow
  · exact absurd hbelow (h.clear.declarations y hy)

/-- References that are made from recorded types keep all in order. -/
theorem Sound.refer (h : w.Sound root) {rs : List FileReference}
    (hrs : ∀ r ∈ rs, ∃ x ∈ w.declarations, r.callerClass = some x.1.qualname) :
    (w.refer rs).Sound root :=
  { h with
    callers := fun r hr => (List.mem_append.1 hr).elim (h.callers r) (hrs r) }

/-- Members that stand at their spots and name their owners keep all in order. -/
theorem Sound.recordMembers (h : w.Sound root) {ms : List MemberAt}
    (hhas : ∀ m ∈ ms, root.HasMember m.2 m.1) (howned : ∀ m ∈ ms, OwnedIn root w.declarations m) :
    (w.recordMembers ms).Sound root :=
  { h with
    hasMember := fun m hm => (List.mem_append.1 hm).elim (h.hasMember m) (hhas m)
    owned := fun m hm => (List.mem_append.1 hm).elim (h.owned m) (howned m) }

/-- Leaving a type records nothing. -/
theorem Sound.popType (h : w.Sound root) : w.popType.Sound root := { h with }

/-- Entering a type at a new spot, named after the one around it, keeps all in order. -/
theorem Sound.pushType (h : w.Sound root) (hclear : w.Clear q) {name : String}
    (hdeclares : root.Declares w.file.source q (w.env.openType t name).1)
    (hnamed : NamedAfter w.file.package w.declarations ((w.env.openType t name).1, q)) :
    (w.pushType q t name).Sound root where
  declares x hx := by
    rcases List.mem_append.1 hx with hx | hx
    · exact h.declares x hx
    · rw [List.mem_singleton.1 hx]
      exact hdeclares
  spots := by
    have hfresh : List.Disjoint (w.declarations.map (·.2)) [q] := by
      rw [List.disjoint_singleton]
      intro hq
      obtain ⟨x, hx, rfl⟩ := List.mem_map.1 hq
      exact hclear.declarations x hx (List.prefix_refl _)
    change ((w.declarations ++ [((w.env.openType t name).1, q)]).map (·.2)).Nodup
    rw [List.map_append]
    exact h.spots.append (List.nodup_singleton q) hfresh
  named i x hx := by
    change (w.declarations ++ [((w.env.openType t name).1, q)])[i]? = some x at hx
    change NamedAfter _ ((w.declarations ++ [((w.env.openType t name).1, q)]).take i) x
    rcases Nat.lt_or_ge i w.declarations.length with hi | hi
    · rw [List.getElem?_append_left hi] at hx
      rw [List.take_append_of_le_length (Nat.le_of_lt hi)]
      exact h.named i x hx
    · -- the last one
      have hlast := (List.getElem?_eq_some_iff.1 hx).1
      rw [List.length_append, List.length_singleton] at hlast
      obtain rfl : i = w.declarations.length := by omega
      rw [List.getElem?_concat_length, Option.some.injEq] at hx
      rw [List.take_left, ← hx]
      exact hnamed
  hasMember := h.hasMember
  owned m hm := (h.owned m hm).concat (hclear.members m hm)
  callers r hr := by
    obtain ⟨x, hx, hcaller⟩ := h.callers r hr
    exact ⟨x, List.mem_append_left _ hx, hcaller⟩

/-! ## Members -/

/-- A visit has recorded members of type `index` at or below a spot, and references made from the
type around. -/
def Records (root : Tree) (q : Spot) (index : Nat) (w w' : Walker) : Prop :=
  ∃ ms rs, w' = (w.recordMembers ms).refer rs ∧
    (∀ m ∈ ms, m.1.declIndex = index ∧ q <+: m.2 ∧ root.HasMember m.2 m.1) ∧
    ∀ r ∈ rs, r.callerClass = w.env.typeName?

/-- A visit may record nothing. -/
theorem Records.refl (root : Tree) (q : Spot) (index : Nat) (w : Walker) :
    Records root q index w w := by
  refine ⟨[], [], ?_, ?_, ?_⟩
  · unfold refer Walker.recordMembers
    rw [List.append_nil, List.append_nil]
  · intro m hm
    cases hm
  · intro r hr
    cases hr

/-- References from the type around may be recorded, too. -/
theorem Records.refer (h : Records root q index w w') {rs : List FileReference}
    (hrs : ∀ r ∈ rs, r.callerClass = w.env.typeName?) : Records root q index w (w'.refer rs) := by
  obtain ⟨ms, before, rfl, hms, hbefore⟩ := h
  refine ⟨ms, before ++ rs, refer_refer rs, hms, ?_⟩
  intro r hr
  exact (List.mem_append.1 hr).elim (hbefore r) (hrs r)

/-- Recording changes nothing of what names stand for. -/
theorem Records.env (h : Records root q index w w') : w'.env = w.env := by
  obtain ⟨ms, rs, rfl, -, -⟩ := h
  rfl

/-- Going through code records references from the type around. -/
theorem Records.collectPart (h : Records root q index w w') (part : Option Tree) :
    Records root q index w (w'.collectPart part) := by
  unfold Walker.collectPart
  cases part with
  | none => exact h
  | some t =>
    dsimp only
    rw [collect_eq]
    refine h.refer ?_
    rw [← h.env]
    exact Env.references_caller _ _ t

/-- Going through the values of variables records references from the type around. -/
theorem Records.foldl_collectPart (fields : List (Tree × Spot)) (h : Records root q index w w') :
    Records root q index w
      (fields.foldl (fun w (d, _) => w.collectPart (d.field? "value")) w') := by
  induction fields generalizing w' with
  | nil => exact h
  | cons d rest ih => exact ih (h.collectPart (d.1.field? "value"))

/-- Members of a type that stand at or below a spot are recorded there. -/
theorem records_recordMembers {ms : List MemberAt}
    (hms : ∀ m ∈ ms, m.1.declIndex = index ∧ q <+: m.2 ∧ root.HasMember m.2 m.1) :
    Records root q index w (w.recordMembers ms) := by
  refine ⟨ms, [], refer_nil.symm, hms, ?_⟩
  intro r hr
  cases hr

/-- Members that cover the node at which they are recorded. -/
theorem records_recordAt (ht : root.at? q = some t) {members : List FileMember}
    (hmembers : ∀ m ∈ members, m.declIndex = index ∧ m.range = t.range) :
    Records root q index w (w.recordMembers (members.map (·, q))) := by
  apply records_recordMembers
  intro m hm
  obtain ⟨member, hmember, rfl⟩ := List.mem_map.1 hm
  obtain ⟨hindex, hrange⟩ := hmembers member hmember
  exact ⟨hindex, List.prefix_refl q, t, ht, by rw [hrange], by rw [hrange]⟩

/-- The spot of a variable is that of a child of the declaration. -/
theorem exists_of_mem_declaratorsOf {d : Tree × Spot} (hd : d ∈ declaratorsOf q t) :
    ∃ i, t.children[i]? = some d.1 ∧ d.2 = q ++ [i] := by
  obtain ⟨⟨c, i⟩, hc, rfl⟩ := List.mem_map.1 hd
  exact ⟨i, List.mem_zipIdx_iff_getElem?.1 (List.mem_of_mem_filter hc), rfl⟩

/-- A declaration of fields records members of the type around, each at its own variable. -/
theorem visitFields_records (ht : root.at? q = some t) :
    Records root q index w (w.visitFields q index t) := by
  unfold visitFields
  cases htype : t.field? "type" with
  | none => exact .refl root q index w
  | some type =>
    dsimp only
    apply Records.foldl_collectPart
    apply records_recordMembers
    intro m hm
    obtain ⟨hmembers, -⟩ :=
      fieldMembers_named w.env index (Option.isSome_of_mem htype : (t.field? "type").isSome)
    rw [← declaratorsOf_fst q, List.forall₂_map_right_iff] at hmembers
    -- a member is recorded at the spot of its own declarator
    rw [List.zip_map_right] at hm
    obtain ⟨⟨member, d⟩, hpair, rfl⟩ := List.mem_map.1 hm
    obtain ⟨hmember, hd⟩ := List.of_mem_zip hpair
    obtain ⟨hstart, hstop⟩ := List.forall₂_zip hmembers hpair
    obtain ⟨i, hi, hspot⟩ := exists_of_mem_declaratorsOf hd
    refine ⟨(w.env.fieldMembers_onlyMembers index t).owned member hmember, ?_, d.1, ?_, hstart, hstop⟩
    · exact hspot ▸ List.prefix_append q [i]
    · exact hspot ▸ Tree.at?_child ht hi

/-- A constant of an enum records a member at its node, and its creation. -/
theorem visitEnumConstant_records (ht : root.at? q = some t) :
    Records root q index w (w.visitEnumConstant q index t) := by
  unfold visitEnumConstant
  split
  · next name owner hname howner =>
    refine (Records.refer ?_ ?_).collectPart _ |>.collectPart _
    · apply records_recordAt ht
      intro m hm
      refine ⟨(w.env.enumConstant_onlyMembers index t).owned m hm, ?_⟩
      unfold Env.enumConstant at hm
      rw [hname, howner] at hm
      rw [List.mem_singleton.1 hm]
    · -- the creation
      intro r hr
      unfold Env.enumConstant at hr
      rw [hname, howner] at hr
      rw [List.mem_singleton.1 hr]
      rfl
  · exact .refl root q index w

/-- The body of a method has references from the type around. -/
theorem exists_collectMethod_eq (w : Walker) (params : List Param) (body : Option Tree) :
    ∃ rs, w.collectMethod params body = w.refer rs ∧
      ∀ r ∈ rs, r.callerClass = w.env.typeName? := by
  unfold collectMethod
  cases body with
  | none =>
    refine ⟨[], refer_nil.symm, ?_⟩
    intro r hr
    cases hr
  | some body => exact ⟨_, collect_eq _ _ body w, Env.references_caller _ _ body⟩

/-- A method or constructor records a member at its node. -/
theorem visitCallable_records (hw : w.BetweenMembers) (ht : root.at? q = some t)
    (list : Option Tree) {members : List FileMember}
    (hmembers : ∀ m ∈ members, m.declIndex = index ∧ m.range = t.range) :
    Records root q index w (w.visitCallable q t list members) := by
  unfold visitCallable
  split
  · exact .refl root q index w
  · next name hname =>
    dsimp only
    generalize hinside : (w.setTypeParams (typeParameters w.file.source t)).recordMembers
      (members.map (·, q)) = inside
    generalize (list.map inside.env.parameters).getD [] = params
    obtain ⟨rs, heq, hrs⟩ := exists_collectMethod_eq inside params (t.field? "body")
    have hback : ((inside.refer rs).setTypeParams []) =
        (w.recordMembers (members.map (·, q))).refer rs := by
      rw [← hinside, ← hw.methodTypeParams]
      rfl
    rw [heq, hback]
    refine (records_recordAt ht hmembers).refer ?_
    subst hinside
    exact hrs

/-- Whatever its kind, a member records members of the type around, at its node or below. -/
theorem visitMember_records (hw : w.BetweenMembers) (ht : root.at? q = some t) :
    Records root q index w (w.visitMember q index components t) := by
  rcases visitMember_cases w q index components t with
    ⟨hv, -⟩ | ⟨hv, -⟩ | ⟨hv, -⟩ | ⟨hv, -⟩ | ⟨hv, -⟩ | ⟨hv, -⟩
  all_goals rw [hv]
  · exact visitFields_records ht
  · apply visitCallable_records hw ht
    intro m hm
    refine ⟨(w.env.methodMember_onlyMembers index t).owned m hm, ?_⟩
    unfold Env.methodMember at hm
    split at hm
    · cases hm
    · rw [List.mem_singleton.1 hm]
  · apply visitCallable_records hw ht
    intro m hm
    refine ⟨(w.env.constructorMember_onlyMembers index components t).owned m hm, ?_⟩
    unfold Env.constructorMember at hm
    split at hm
    · cases hm
    · rw [List.mem_singleton.1 hm]
  · exact visitEnumConstant_records ht
  · exact (Records.refl root q index w).collectPart (some t)
  · exact .refl root q index w

/-! ## Whole visits -/

/-- A visit to a node has kept all in order, and has added only what is at the node or below it. -/
structure Visited (root : Tree) (q : Spot) (w w' : Walker) : Prop where
  sound : w'.Sound root
  adds : AddsBelow q w w'

theorem Visited.refl (hw : w.Sound root) (q : Spot) : Visited root q w w := ⟨hw, .refl q w⟩

/-- One visit after another keeps all in order. -/
theorem Visited.trans (h : Visited root q w w') (h' : Visited root q w' w'') :
    Visited root q w w'' :=
  ⟨h'.sound, h.adds.trans h'.adds⟩

/-- A visit below a spot is one below every spot above it. -/
theorem Visited.above (h : Visited root q w w') (hp : p <+: q) : Visited root p w w' :=
  ⟨h.sound, h.adds.above hp⟩

/-- The members and references of the type around keep all in order. -/
theorem Records.visited (h : Records root q index w w') (hw : w.Sound root)
    (hin : w.InFrontOf root index s q) : Visited root q w w' := by
  obtain ⟨ms, rs, rfl, hms, hrs⟩ := h
  obtain ⟨d, hd, hname⟩ := hin.type
  have hmembers := hw.recordMembers (fun m hm => (hms m hm).2.2)
    fun m hm => hin.owned (hms m hm).1 (hms m hm).2.1
  refine ⟨hmembers.refer ?_, List.prefix_refl _, fun x hx => .inl hx, ?_⟩
  · intro r hr
    exact ⟨(d, s), List.mem_of_getElem? hd, (hrs r hr).trans hname⟩
  · intro m hm
    exact (List.mem_append.1 hm).imp_right fun hm => (hms m hm).2.1

/-- A type that has just been entered is the innermost one in front of its members. -/
theorem inFrontOf_pushType (hclear : w.Clear q) (ht : root.at? q = some t) (name : String)
    (hi : t.HoldsMembersAt i) :
    (w.pushType q t name).InFrontOf root
      w.declarations.length q (q ++ [i]) where
  type := ⟨(w.env.openType t name).1, List.getElem?_concat_length, rfl⟩
  surrounds := ⟨t, i, ht, hi, List.prefix_refl _⟩
  innermost x hx hbelow := by
    rcases List.mem_append.1 hx with hx | hx
    · rcases List.prefix_concat_iff.1 hbelow with heq | hbelow
      · exact absurd (heq ▸ List.prefix_append q [i]) (hclear.declarations x hx)
      · exact hbelow
    · -- the type itself
      obtain rfl := List.mem_singleton.1 hx
      exact List.prefix_refl q
  clear := by
    refine ⟨?_, fun m hm => (hclear.below (List.prefix_append q [i])).members m hm⟩
    intro x hx hbelow
    rcases List.mem_append.1 hx with hx | hx
    · exact (hclear.below (List.prefix_append q [i])).declarations x hx hbelow
    · rw [List.mem_singleton.1 hx] at hbelow
      have hlength := hbelow.length_le
      rw [List.length_append, List.length_singleton] at hlength
      exact absurd hlength (Nat.not_succ_le_self q.length)

/-- A type that is entered stands at its node. -/
theorem declares_openType {env : Env} {name : Tree} (ht : root.at? q = some t)
    (htype : t.declaresType) (hname : t.field? "name" = some name) :
    root.Declares env.source q (env.openType t (name.text env.source)).1 :=
  ⟨t, name, ht, htype, hname, rfl, rfl⟩

/-- A type that is entered is named after the type around it. -/
theorem openType_namedAfter {env : Env} {before : List DeclarationAt}
    (houter : ∀ o, env.typeName? = some o → ∃ x ∈ before, x.1.qualname = o ∧ x.2 <+: q)
    (t : Tree) (name : String) :
    NamedAfter env.file.package before ((env.openType t name).1, q) := by
  have hdeclaration : (env.openType t name).1.outer = env.typeName? ∧
      (env.openType t name).1.name = name ∧
      (env.openType t name).1.qualname = env.qualnameOf name := ⟨rfl, rfl, rfl⟩
  obtain ⟨hout, hname, hqualname⟩ := hdeclaration
  unfold NamedAfter
  rw [hout, hname, hqualname]
  unfold Env.qualnameOf Env.owner? Env.typeName? at *
  cases htypes : env.types with
  | nil => rfl
  | cons scope rest =>
    rw [htypes] at houter
    obtain ⟨x, hx, hxname, hbelow⟩ := houter scope.qualname rfl
    exact ⟨x, hx, hxname, rfl, hbelow⟩

/-- The components of a record are recorded at the list of them. -/
theorem visitComponents_records (w : Walker) (index : Nat) (ht : root.at? q = some t) :
    w.visitComponents q index t = w ∨
      ∃ k, t.kind = "record_declaration" ∧ t.place? "parameters" = some k ∧
        Records root (q ++ [k]) index w (w.visitComponents q index t) := by
  unfold visitComponents
  split
  · next params hkind hparams =>
    obtain ⟨k, hk, hget⟩ := Tree.exists_place?_of_field? hparams
    refine .inr ⟨k, by simpa using hkind, hk, ?_⟩
    dsimp only
    rw [hk]
    apply records_recordAt (Tree.at?_child ht hget)
    intro m hm
    refine ⟨Env.componentMembers_declIndex hm, ?_⟩
    obtain ⟨p, -, rfl⟩ := List.mem_map.1 hm
    rfl
  · exact .inl rfl

/-- After the components of a record the walk is still in front of the body. -/
theorem visitComponents_visited (hw : w.Sound root) (ht : root.at? q = some t)
    (hin : ∀ k, t.HoldsMembersAt k → w.InFrontOf root index q (q ++ [k])) :
    Visited root q w (w.visitComponents q index t) ∧
      ∀ b, t.place? "body" = some b →
        (w.visitComponents q index t).InFrontOf root index q (q ++ [b]) := by
  rcases visitComponents_records w index ht with heq | ⟨k, hkind, hk, hrecords⟩
  · rw [heq]
    exact ⟨.refl hw q, fun b hb => hin b (.inl hb)⟩
  · have hvisited := hrecords.visited hw (hin k (.inr ⟨hkind, hk⟩))
    refine ⟨hvisited.above (List.prefix_append q [k]), ?_⟩
    -- the body is not the header
    intro b hb
    have hne : k ≠ b := Tree.place?_ne hk hb (by decide)
    exact (hin b (.inl hb)).beside hvisited.adds hrecords.env hne

/-- Entering a type records it at its own spot. -/
theorem addsBelow_pushType (w : Walker) (q : Spot) (t : Tree) (name : String) :
    AddsBelow q w (w.pushType q t name) where
  keeps := List.prefix_append _ _
  declarations x hx := by
    rcases List.mem_append.1 hx with hx | hx
    · exact .inl hx
    · rw [List.mem_singleton.1 hx]
      exact .inr (List.prefix_refl q)
  members _ hm := .inl hm

/-- Leaving a type keeps all in order. -/
theorem Visited.popType (h : Visited root q w w') : Visited root q w w'.popType :=
  ⟨h.sound.popType, h.adds.keeps, h.adds.declarations, h.adds.members⟩

mutual

/-- Going through a type keeps all in order. -/
theorem visitType_visited (q : Spot) : ∀ (t : Tree) (w : Walker), w.BetweenMembers →
    w.Sound root → w.Clear q → root.at? q = some t → t.declaresType →
    (∀ o, w.env.typeName? = some o → ∃ x ∈ w.declarations, x.1.qualname = o ∧ x.2 <+: q) →
    Visited root q w (visitType q t w)
  | .node info children, w, hbetween, hw, hclear, ht, htype, houter => by
    unfold visitType
    cases hname : (Tree.node info children).field? "name" with
    | none =>
      simp only [hname]
      exact .refl hw q
    | some name =>
      simp only [hname]
      -- in the order of the visit: the declaration, the components, the body
      have hpush := hw.pushType hclear (declares_openType ht htype hname)
        (openType_namedAfter houter (.node info children) (name.text w.file.source))
      have hin (k : Nat) (hk : (Tree.node info children).HoldsMembersAt k) :=
        inFrontOf_pushType hclear ht (name.text w.file.source) hk
      obtain ⟨hcomponents, hbody⟩ := visitComponents_visited hpush ht hin
      have hwent := visitComponents_went
        (w.pushType q (.node info children) (name.text w.file.source)) q w.declarations.length
        (.node info children)
      have hinner := visitBody_visited q 0 w.declarations.length
        ((Tree.node info children).field? "parameters") children _ (.node info children)
        (hwent.between ⟨hbetween.lambdas, hbetween.methodTypeParams⟩) hcomponents.sound ht rfl
        (fun _ hc => absurd hc List.not_mem_nil) hbody
      have hpushed : Visited root q w
          (w.pushType q (.node info children) (name.text w.file.source)) :=
        ⟨hpush, addsBelow_pushType w q _ _⟩
      exact ((hpushed.trans hcomponents).trans hinner).popType

/-- Going through the body of a type keeps all in order. -/
theorem visitBody_visited (q : Spot) (i index : Nat) (components : Option Tree) :
    ∀ (ts : List Tree) (w : Walker) (t : Tree), w.BetweenMembers → w.Sound root →
      root.at? q = some t → t.children.drop i = ts →
      (∀ c ∈ t.children.take i, c.info.field ≠ some "body") →
      (∀ b, t.place? "body" = some b → w.InFrontOf root index q (q ++ [b])) →
      Visited root q w (visitBody q i index components ts w)
  | [], w, t, _, hw, _, _, _, _ => by
    unfold visitBody
    exact .refl hw q
  | .node info children :: rest, w, t, hbetween, hw, ht, hdrop, hbefore, hbody => by
    obtain ⟨hget, hrest, htake⟩ := Tree.children_of_drop hdrop
    unfold visitBody
    split
    · next hfield =>
      -- the first child in the field is the body
      have hplace : t.place? "body" = some i :=
        Tree.place?_eq_some_iff.2 ⟨_, hget, eq_of_beq hfield, hbefore⟩
      have hvisited := visitMembers_visited (q ++ [i]) 0 index q components children w _ hbetween hw
        (Tree.at?_child ht hget) rfl fun j _ => (hbody i hplace).child j
      exact hvisited.above (List.prefix_append q [i])
    · next hfield =>
      -- not this child: the ones before the next still have no body among them
      refine visitBody_visited q (i + 1) index components rest w t hbetween hw ht hrest ?_ hbody
      rw [htake]
      intro c hc
      rcases List.mem_append.1 hc with hc | hc
      · exact hbefore c hc
      · rw [List.mem_singleton.1 hc]
        exact fun heq => hfield (beq_iff_eq.2 heq)

/-- Going through the nodes of a body keeps all in order. -/
theorem visitMembers_visited (q : Spot) (i index : Nat) (s : Spot) (components : Option Tree) :
    ∀ (ts : List Tree) (w : Walker) (t : Tree), w.BetweenMembers → w.Sound root →
      root.at? q = some t → t.children.drop i = ts →
      (∀ j, i ≤ j → w.InFrontOf root index s (q ++ [j])) →
      Visited root q w (visitMembers q i index components ts w)
  | [], w, t, _, hw, _, _, _ => by
    unfold visitMembers
    exact .refl hw q
  | .node info children :: rest, w, t, hbetween, hw, ht, hdrop, hin => by
    obtain ⟨hget, hrest, -⟩ := Tree.children_of_drop hdrop
    have hnodeAt := Tree.at?_child ht hget
    have hhere := hin i (Nat.le_refl i)
    -- first this node alone, by what it is
    have hnode : Visited root (q ++ [i]) w
        (visitMembers q i index components [.node info children] w) := by
      rw [visitMembers_singleton]
      split
      · exact .refl hw _
      split
      · next hnamed htype =>
        have hdeclares : (Tree.node info children).declaresType := by
          simpa [Tree.declaresType, Tree.info, Tree.kind, htype] using hnamed
        refine visitType_visited (q ++ [i]) (.node info children) w hbetween hw hhere.clear
          hnodeAt hdeclares ?_
        intro o ho
        obtain ⟨d, hd, hname⟩ := hhere.type
        rw [hname, Option.some.injEq] at ho
        exact ⟨(d, s), List.mem_of_getElem? hd, ho, hhere.surrounds.below⟩
      split
      · exact visitMembers_visited (q ++ [i]) 0 index s none children w _ hbetween hw hnodeAt rfl
          fun j _ => hhere.child j
      · exact (visitMember_records hbetween hnodeAt).visited hw hhere
    have hwent := visitMembers_went q i index components [.node info children] w hbetween
    rw [visitMembers_cons]
    -- then those behind it
    have hlater := visitMembers_visited q (i + 1) index s components rest _ t
      (hwent.between hbetween) hnode.sound ht hrest fun j hj =>
        (hin j (by omega)).beside hnode.adds hwent.env (by omega)
    exact (hnode.above (List.prefix_append q [i])).trans hlater

end

/-- Going through the types of a file keeps all in order. -/
theorem visitTop_sound (i : Nat) (ts : List Tree) (hbetween : w.BetweenMembers)
    (hw : w.Sound root) (htypes : w.types = []) (hdrop : root.children.drop i = ts)
    (hclear : ∀ j, i ≤ j → w.Clear [j]) : (visitTop i ts w).Sound root := by
  induction ts generalizing i w with
  | nil => exact hw
  | cons t rest ih =>
    obtain ⟨hget, hrest, -⟩ := Tree.children_of_drop hdrop
    have hat : root.at? [i] = some t := Tree.at?_child (s := []) rfl hget
    unfold visitTop
    by_cases htype : t.declaresType
    · rw [if_pos htype]
      -- at the top of a file there is no type around
      have hnoTypes : w.env.typeName? = none := by
        unfold Env.typeName? Walker.env
        rw [htypes]
        rfl
      have hvisited := visitType_visited [i] t w hbetween hw (hclear i (Nat.le_refl i)) hat htype
        (by rw [hnoTypes]; exact fun o ho => absurd ho (by simp))
      have hwent := visitType_went [i] t w hbetween
      refine ih (i + 1) (hwent.between hbetween) hvisited.sound (hwent.types.trans htypes) hrest ?_
      intro j hj
      exact Clear.beside (q := []) (hclear j (by omega)) hvisited.adds (by omega)
    · rw [if_neg htype]
      exact ih (i + 1) hbetween hw htypes hrest fun j hj => hclear j (by omega)

/-- What is recorded of a file is in order. -/
theorem walked_sound (source : String) (root : Tree) : (walked source root).Sound root := by
  apply visitTop_sound 0 root.children ⟨rfl, rfl⟩ _ rfl rfl
  · intro j _
    exact ⟨fun x hx => absurd hx List.not_mem_nil, fun m hm => absurd hm List.not_mem_nil⟩
  · constructor
    all_goals simp

end Walker

/-! ## The symbols of a file -/

section Symbols

variable {root : Tree} {w : Walker}

/-- The type around a declaration covers it. -/
theorem Walker.Sound.outer (h : w.Sound root) (hroot : root.Contained) {i : Nat}
    {d : FileDeclaration} (hd : w.symbols.declarations[i]? = some d) {o : String}
    (ho : d.outer = some o) :
    ∃ e ∈ w.symbols.declarations.take i,
      e.qualname = o ∧ d.qualname = o ++ "." ++ d.name ∧ e.range.holds d.range := by
  obtain ⟨x, hx, rfl⟩ := declaration_symbols_iff.mp hd
  have hnamed := h.named i x hx
  unfold NamedAfter at hnamed
  rw [ho] at hnamed
  obtain ⟨y, hy, hyname, hqualname, hbelow⟩ := hnamed
  obtain ⟨t, -, ht, -, -, -, hrange⟩ := h.declares x (List.mem_of_getElem? hx)
  obtain ⟨u, -, hu, -, -, -, hyrange⟩ := h.declares y (List.mem_of_mem_take hy)
  refine ⟨y.1, ?_, hyname, hqualname, ?_⟩
  · unfold Walker.symbols
    rw [← List.map_take]
    exact List.mem_map_of_mem hy
  · rw [hrange, hyrange]
    exact hroot.holds_below hu ht hbelow

/-- A declaration with no other one around it is named after the package. -/
theorem Walker.Sound.package (h : w.Sound root) {i : Nat} {d : FileDeclaration}
    (hd : w.symbols.declarations[i]? = some d) (ho : d.outer = none) :
    d.qualname = qualify w.file.package d.name := by
  obtain ⟨x, hx, rfl⟩ := declaration_symbols_iff.mp hd
  have hnamed := h.named i x hx
  unfold NamedAfter at hnamed
  rwa [ho] at hnamed

/-- The type that a member names covers it. -/
theorem Walker.Sound.holds_member (h : w.Sound root) (hroot : root.Contained) {m : MemberAt}
    (hm : m ∈ w.members) {x : DeclarationAt} (hx : x ∈ w.declarations)
    (hsurrounds : root.Surrounds x.2 m.2) : x.1.range.holds m.1.range := by
  obtain ⟨t, -, ht, -, -, -, hrange⟩ := h.declares x hx
  obtain ⟨u, hu, hstart, hstop⟩ := h.hasMember m hm
  have hholds := hroot.holds_below ht hu hsurrounds.below
  rw [SourceRange.holds_iff] at hholds ⊢
  rwa [hrange, hstart, hstop]

end Symbols

/-- What is recorded of a file is well formed, for every tree whose children lie in their parents.

The declarations and members are those of a walk that notes where each of them stands. A member
names the innermost of the recorded types in whose body, or in whose header if it is a record, it
stands. A declaration with another one around it is named after that one, which comes before it and
covers it; without one it is named after the package. A reference is made from one of the
declarations. At the end of the walk all types and lambdas have been left. So the file can always
be stored. -/
theorem extract_wellFormed (source : String) {root : Tree} (hroot : root.Contained) :
    let symbols := extract source root
    let w := Walker.walked source root
    (w.symbols = symbols ∧ w.types = [] ∧ w.lambdas = []) ∧
    ((∀ x ∈ w.declarations, root.Declares source x.2 x.1) ∧
      (w.declarations.map (·.2)).Nodup ∧ ∀ m ∈ w.members, root.HasMember m.2 m.1) ∧
    (∀ m ∈ w.members, ∃ x, w.declarations[m.1.declIndex]? = some x ∧
      root.Surrounds x.2 m.2 ∧ x.1.range.holds m.1.range ∧
      ∀ y ∈ w.declarations, root.Surrounds y.2 m.2 → y.2 <+: x.2) ∧
    (∀ i d, symbols.declarations[i]? = some d →
      (∀ o, d.outer = some o → ∃ e ∈ symbols.declarations.take i,
        e.qualname = o ∧ d.qualname = o ++ "." ++ d.name ∧ e.range.holds d.range) ∧
      (d.outer = none → d.qualname =
        if symbols.package = "" then d.name else symbols.package ++ "." ++ d.name)) ∧
    (∀ r ∈ symbols.references, ∃ d ∈ symbols.declarations, r.callerClass = some d.qualname) ∧
    (∀ m ∈ symbols.members, m.declIndex < symbols.declarations.length) ∧
    ∀ (ix : Index) (file : FileInput), ∃ result, ix.replaceFile file symbols = .ok result := by
  dsimp only
  have hsound := Walker.walked_sound source root
  obtain ⟨htypes, hlambdas, -⟩ := Walker.walked_stacks source root
  have hfile := (Walker.walked_went source root).file
  have howned := extract_members_owned source root
  rw [← Walker.walked_symbols] at howned ⊢
  refine ⟨⟨rfl, htypes, hlambdas⟩, ⟨?_, hsound.spots, hsound.hasMember⟩, ?_, ?_, ?_, howned,
    fun ix file => ⟨_, ix.replaceFile_of_owned file howned⟩⟩
  · intro x hx
    have hdeclares := hsound.declares x hx
    rwa [hfile] at hdeclares
  · intro m hm
    obtain ⟨x, hx, hsurrounds, hinnermost⟩ := hsound.owned m hm
    exact ⟨x, hx, hsurrounds, hsound.holds_member hroot hm (List.mem_of_getElem? hx) hsurrounds,
      hinnermost⟩
  · intro i d hd
    refine ⟨fun o ho => hsound.outer hroot hd ho, fun ho => ?_⟩
    exact (hsound.package hd ho).trans (if_congr String.isEmpty_iff rfl rfl)
  · intro r hr
    obtain ⟨x, hx, hcaller⟩ := hsound.callers r hr
    exact ⟨x.1, List.mem_map_of_mem hx, hcaller⟩

/-! A record in a package, with a component, an enum in it and a method that hands over a lambda. -/

/-- The text of the record. -/
def recordSource : String :=
  "package p;record R(int a){enum E{X;int y=g();}void m(){h(x->f());}}"

/-- Its tree, less the tokens that are not named. -/
def recordTree : Tree :=
  namedNode "program" 0 67 none
    [namedNode "package_declaration" 0 10 none [namedNode "identifier" 8 9],
      namedNode "record_declaration" 10 67 none
        [namedNode "identifier" 17 18 (some "name"),
          namedNode "formal_parameters" 18 25 (some "parameters")
            [namedNode "formal_parameter" 19 24 none
              [namedNode "integral_type" 19 22 (some "type"),
                namedNode "identifier" 23 24 (some "name")]],
          namedNode "class_body" 25 67 (some "body")
            [namedNode "enum_declaration" 26 46 none
              [namedNode "identifier" 31 32 (some "name"),
                namedNode "enum_body" 32 46 (some "body")
                  [namedNode "enum_constant" 33 34 none [namedNode "identifier" 33 34 (some "name")],
                    namedNode "enum_body_declarations" 34 45 none
                      [namedNode "field_declaration" 35 45 none
                        [namedNode "integral_type" 35 38 (some "type"),
                          namedNode "variable_declarator" 39 44 (some "declarator")
                            [namedNode "identifier" 39 40 (some "name"),
                              callNode 41 (some "value")]]]]],
              namedNode "method_declaration" 46 66 none
                [namedNode "void_type" 46 50 (some "type"),
                  namedNode "identifier" 51 52 (some "name"),
                  namedNode "formal_parameters" 52 54 (some "parameters"),
                  namedNode "block" 54 66 (some "body")
                    [namedNode "expression_statement" 55 65 none
                      [namedNode "method_invocation" 55 64 none
                        [namedNode "identifier" 55 56 (some "name"),
                          namedNode "argument_list" 56 64 (some "arguments")
                            [namedNode "lambda_expression" 57 63 none
                              [namedNode "identifier" 57 58 (some "parameters"),
                                callNode 60 (some "body")]]]]]]]]]

/-- The enum is named after the record, and what is in the lambda is referred to from the record. -/
theorem extract_wellFormed_record :
    recordTree.Contained ∧
    ((extract recordSource recordTree).declarations.map fun d => (d.qualname, d.outer)) =
      [("p.R", none), ("p.R.E", some "p.R")] ∧
    ((Walker.walked recordSource recordTree).members.map fun m => (m.1.name, m.1.declIndex, m.2)) =
      [("a", 0, [1, 1]), ("X", 1, [1, 2, 0, 1, 0]), ("y", 1, [1, 2, 0, 1, 1, 0, 1]),
        ("m", 0, [1, 2, 1])] ∧
    ((extract recordSource recordTree).references.map fun r => (r.name, r.callerClass)) =
      [("E", some "p.R.E"), ("g", some "p.R.E"), ("h", some "p.R"), ("f", some "p.R")] ∧
    (∀ m ∈ (Walker.walked recordSource recordTree).members,
      ∃ x, (Walker.walked recordSource recordTree).declarations[m.1.declIndex]? = some x ∧
        recordTree.Surrounds x.2 m.2) ∧
    ∃ result, Index.replaceFile {} nestedFile (extract recordSource recordTree) = .ok result := by
  have hcontained : recordTree.Contained := by decide +kernel
  obtain ⟨-, -, howned, -, -, -, hstored⟩ := extract_wellFormed recordSource hcontained
  refine ⟨hcontained, by decide +kernel, by decide +kernel, by decide +kernel, ?_,
    hstored {} nestedFile⟩
  intro m hm
  obtain ⟨x, hx, hsurrounds, -, -⟩ := howned m hm
  exact ⟨x, hx, hsurrounds⟩

end JavaAtlas.Java
