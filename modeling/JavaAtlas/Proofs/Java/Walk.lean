import JavaAtlas.Proofs.Java.Nesting

namespace JavaAtlas.Java

/-! # From where references are made

While a source file is walked, a reference is made from the type on top of those that are open
and, inside the body of a method or a constructor, from that member. This is not recorded with the
reference, apart from the name of the type. The walk is written down here once more, so that it
can be told of every reference, and it is compared with the ranges that are recorded:

* `memberWalk_singleton_cases`: what a node in a body can be, for the walk and for what is recorded;
* `references_walk`: the references of the walk are those recorded, in their order;
* `walk_attributed`: the type is the shortest recorded one around the reference, and the member is
  the only recorded method or constructor around it;
* `walk_owned`: the member belongs to the type.
-/

/-- A reference with the type in whose body it is made and, if it is made in the body of a method
or a constructor, with that member. -/
structure Walked where
  reference : FileReference
  type : FileDeclaration
  callable : Option FileMember

/-- The references that a node in the body of a type records. Those of a method or a constructor
are made in the body of it; those of fields, blocks and constants of an enum are not. -/
def Found.walkedIn (type : FileDeclaration) (t : Tree) (found : Found) : List Walked :=
  let callable := if Env.isCallable t.kind then found.members.head? else none
  found.references.map fun r => ⟨r, type, callable⟩

namespace Env

mutual

/-- The references in a type and all in it. -/
def typeWalk (env : Env) (index : Nat) : Tree → List Walked
  | .node info children =>
    let t := Tree.node info children
    match t.field? "name" with
    | none => []
    | some name =>
      let (declaration, inner) := env.openType t (name.text env.source)
      bodyWalk inner declaration index (t.field? "parameters") children

/-- The references in the body among the children of a type. -/
def bodyWalk (env : Env) (type : FileDeclaration) (index : Nat) (components : Option Tree) :
    List Tree → List Walked
  | [] => []
  | .node info children :: rest =>
    if info.field == some "body" then memberWalk env type index components (index + 1) children
    else bodyWalk env type index components rest

/-- The references in nodes side by side in the body of a type. -/
def memberWalk (env : Env) (type : FileDeclaration) (index : Nat) (components : Option Tree)
    (next : Nat) : List Tree → List Walked
  | [] => []
  | .node info children :: rest =>
    let t := Tree.node info children
    let here :=
      if !info.named then []
      else if isTypeDeclaration info.kind then typeWalk env next t
      else if info.kind == "enum_body_declarations" then
        memberWalk env type index none next children
      else (env.memberOf index components t).walkedIn type t
    let types := (env.memberSymbols index components next [t]).declarations.length
    here ++ memberWalk env type index components (next + types) rest

end

/-- The references in the types among nodes side by side. -/
def topWalk (env : Env) (next : Nat) : List Tree → List Walked
  | [] => []
  | t :: rest =>
    let here := if t.declaresType then env.typeWalk next t else []
    here ++ topWalk env (next + (env.topSymbols next [t]).declarations.length) rest

end Env

/-- The references in a source file, in the order in which they are made. -/
def walk (source : String) (root : Tree) : List Walked :=
  Env.topWalk { file := FileNames.ofTree source root } 0 root.children

/-! ## One node after the other -/

@[simp]
theorem Found.append_empty (found : Found) : found ++ ({} : Found) = found := by
  change Found.mk (found.declarations ++ []) (found.members ++ []) (found.references ++ []) = found
  simp only [List.append_nil]

namespace Env

section Nodes

variable (env : Env) (type : FileDeclaration) (index : Nat) (components : Option Tree) (next : Nat)
  (t : Tree) (rest : List Tree)

/-- The nodes of a body record one after the other; types are numbered on. -/
theorem memberSymbols_cons :
    env.memberSymbols index components next (t :: rest) =
      env.memberSymbols index components next [t] ++
        env.memberSymbols index components
          (next + (env.memberSymbols index components next [t]).declarations.length) rest := by
  cases t with
  | node info children => simp only [memberSymbols, Found.append_empty]

/-- The walk takes the nodes of a body one after the other, numbered in the same way. -/
theorem memberWalk_cons :
    env.memberWalk type index components next (t :: rest) =
      env.memberWalk type index components next [t] ++
        env.memberWalk type index components
          (next + (env.memberSymbols index components next [t]).declarations.length) rest := by
  cases t with
  | node info children => simp only [memberWalk, List.append_nil]

/-- The nodes at the top of a file record one after the other. -/
theorem topSymbols_cons :
    env.topSymbols next (t :: rest) = env.topSymbols next [t] ++
      env.topSymbols (next + (env.topSymbols next [t]).declarations.length) rest := by
  simp only [topSymbols, Found.append_empty]

/-- The walk takes the nodes at the top of a file one after the other. -/
theorem topWalk_cons :
    env.topWalk next (t :: rest) = env.topWalk next [t] ++
      env.topWalk (next + (env.topSymbols next [t]).declarations.length) rest := by
  simp only [topWalk, List.append_nil]

/-- A node in a body is passed over, or declares a type, or holds further nodes of the body, or
records members and references. -/
theorem memberWalk_singleton_cases (info : NodeInfo) (children : List Tree) :
    (env.memberWalk type index components next [.node info children] = [] ∧
      env.memberSymbols index components next [.node info children] = {}) ∨
    ((Tree.node info children).declaresType ∧
      env.memberWalk type index components next [.node info children] =
        env.typeWalk next (.node info children) ∧
      env.memberSymbols index components next [.node info children] =
        env.typeSymbols next (.node info children)) ∨
    (env.memberWalk type index components next [.node info children] =
        env.memberWalk type index none next children ∧
      env.memberSymbols index components next [.node info children] =
        env.memberSymbols index none next children) ∨
    (env.memberWalk type index components next [.node info children] =
        (env.memberOf index components (.node info children)).walkedIn type (.node info children) ∧
      env.memberSymbols index components next [.node info children] =
        env.memberOf index components (.node info children)) := by
  simp only [memberWalk, memberSymbols, Found.append_empty, List.append_nil]
  by_cases hnamed : (!info.named) = true
  · exact .inl ⟨if_pos hnamed, if_pos hnamed⟩
  rw [if_neg hnamed, if_neg hnamed]
  by_cases htype : isTypeDeclaration info.kind = true
  · have hdeclares : (Tree.node info children).declaresType := by
      simpa [Tree.declaresType, Tree.info, Tree.kind, htype] using hnamed
    exact .inr (.inl ⟨hdeclares, if_pos htype, if_pos htype⟩)
  rw [if_neg htype, if_neg htype]
  by_cases hlist : (info.kind == "enum_body_declarations") = true
  · exact .inr (.inr (.inl ⟨if_pos hlist, if_pos hlist⟩))
  · exact .inr (.inr (.inr ⟨if_neg hlist, if_neg hlist⟩))

/-- A node at the top of a file declares a type or is passed over. -/
theorem topWalk_singleton_cases :
    (t.declaresType ∧ env.topWalk next [t] = env.typeWalk next t ∧
      env.topSymbols next [t] = env.typeSymbols next t) ∨
    (env.topWalk next [t] = [] ∧ env.topSymbols next [t] = {}) := by
  simp only [topWalk, topSymbols, Found.append_empty, List.append_nil]
  by_cases htype : t.declaresType
  · have hsymbols : (t.info.named && isTypeDeclaration t.kind) = true := htype
    exact .inl ⟨htype, if_pos htype, if_pos hsymbols⟩
  · have hsymbols : ¬ (t.info.named && isTypeDeclaration t.kind) = true := htype
    exact .inr ⟨if_neg htype, if_neg hsymbols⟩

end Nodes

end Env

/-! ## The walk makes the recorded references -/

/-- The walk makes the references that a node records. -/
theorem Found.references_walkedIn (type : FileDeclaration) (t : Tree) (found : Found) :
    (found.walkedIn type t).map (·.reference) = found.references := by
  unfold Found.walkedIn
  rw [List.map_map]
  exact List.map_id _

namespace Env

mutual

/-- The walk of a type makes the references that are recorded of it. -/
theorem references_typeWalk (env : Env) (index : Nat) :
    ∀ t : Tree, (env.typeWalk index t).map (·.reference) = (env.typeSymbols index t).references
  | .node info children => by
    unfold typeWalk typeSymbols
    cases hname : (Tree.node info children).field? "name" with
    | none => simp only [hname, List.map_nil]
    | some name =>
      simp only [hname, Found.references_append, List.nil_append]
      exact references_bodyWalk _ _ index _ children

/-- The walk of a body makes the references that are recorded of it. -/
theorem references_bodyWalk (env : Env) (type : FileDeclaration) (index : Nat)
    (components : Option Tree) : ∀ ts : List Tree,
      (env.bodyWalk type index components ts).map (·.reference) =
        (env.bodySymbols index components ts).references
  | [] => by
    unfold bodyWalk bodySymbols
    rfl
  | .node info children :: rest => by
    unfold bodyWalk bodySymbols
    split
    · exact references_memberWalk env type index components (index + 1) children
    · exact references_bodyWalk env type index components rest

/-- The walk of the nodes of a body makes the references that are recorded of them. -/
theorem references_memberWalk (env : Env) (type : FileDeclaration) (index : Nat)
    (components : Option Tree) (next : Nat) : ∀ ts : List Tree,
      (env.memberWalk type index components next ts).map (·.reference) =
        (env.memberSymbols index components next ts).references
  | [] => by
    unfold memberWalk memberSymbols
    rfl
  | .node info children :: rest => by
    have hhere : (env.memberWalk type index components next [.node info children]).map
        (·.reference) =
        (env.memberSymbols index components next [.node info children]).references := by
      rcases env.memberWalk_singleton_cases type index components next info children with
        ⟨hw, hs⟩ | ⟨-, hw, hs⟩ | ⟨hw, hs⟩ | ⟨hw, hs⟩
      · rw [hw, hs, List.map_nil]
      · rw [hw, hs]
        exact references_typeWalk env next (.node info children)
      · rw [hw, hs]
        exact references_memberWalk env type index none next children
      · rw [hw, hs]
        exact Found.references_walkedIn type _ _
    rw [memberSymbols_cons, memberWalk_cons, List.map_append, Found.references_append, hhere,
      references_memberWalk env type index components _ rest]

end

/-- The walk of the types of a file makes the references that are recorded of them. -/
theorem references_topWalk (env : Env) (next : Nat) (ts : List Tree) :
    (env.topWalk next ts).map (·.reference) = (env.topSymbols next ts).references := by
  induction ts generalizing next with
  | nil => rfl
  | cons t rest ih =>
    rw [topSymbols_cons, topWalk_cons, List.map_append, Found.references_append, ih]
    rcases env.topWalk_singleton_cases next t with ⟨-, hw, hs⟩ | ⟨hw, hs⟩
    · rw [hw, hs, references_typeWalk]
    · rw [hw, hs, List.map_nil]

end Env

/-- The walk of a file makes the recorded references, in their order. -/
theorem references_walk (source : String) (root : Tree) :
    (walk source root).map (·.reference) = (extract source root).references :=
  Env.references_topWalk _ 0 root.children

/-! ## Ranges around a reference -/

/-- Among recorded declarations and members, the type in whose body a reference is made is the
shortest one around it, and the member in whose body it is made is the only method or constructor
around it. -/
structure Attribution (declarations : List FileDeclaration) (members : List FileMember)
    (w : Walked) : Prop where
  recorded : w.type ∈ declarations
  caller : w.reference.callerClass = some w.type.qualname
  around : w.type.range.holds w.reference.place
  innermost : ∀ d ∈ declarations, d.range.holds w.reference.place →
    d = w.type ∨ w.type.range.ShorterThan d.range
  callable : ∀ m, w.callable = some m ↔
    m ∈ members ∧ m.kind ≠ .field ∧ m.range.holds w.reference.place

section Attribution

variable {declarations more : List FileDeclaration} {members others : List FileMember} {w : Walked}

/-- Further declarations that do not hold the reference or are longer, and further members that
are fields or do not hold it, change nothing. -/
theorem Attribution.extend (h : Attribution declarations members w)
    (hmore : ∀ d ∈ declarations, d ∈ more) (hothers : ∀ m ∈ members, m ∈ others)
    (hlonger : ∀ d ∈ more, d ∈ declarations ∨
      (d.range.holds w.reference.place → w.type.range.ShorterThan d.range))
    (hnone : ∀ m ∈ others, m ∈ members ∨
      (m.kind ≠ .field → ¬ m.range.holds w.reference.place)) : Attribution more others w where
  recorded := hmore _ h.recorded
  caller := h.caller
  around := h.around
  innermost := by
    intro d hd hholds
    rcases hlonger d hd with hd | hd
    · exact h.innermost d hd hholds
    · exact .inr (hd hholds)
  callable := by
    intro m
    rw [h.callable]
    constructor
    · rintro ⟨hm, hkind, hholds⟩
      exact ⟨hothers m hm, hkind, hholds⟩
    · rintro ⟨hm, hkind, hholds⟩
      rcases hnone m hm with hm | hm
      · exact ⟨hm, hkind, hholds⟩
      · exact absurd hholds (hm hkind)

/-- What is found in other nodes, which share no byte with those in which the reference stands,
changes nothing. -/
theorem Attribution.beside {outer : List FileDeclaration} {here other all : Found}
    {ts us : List Tree} (h : Attribution (outer ++ here.declarations) here.members w)
    (hbyte : w.reference.startByte < w.reference.endByte)
    (hplace : ∃ t ∈ ts, t.range.holds w.reference.place) (hother : other.LiesIn us)
    (hapart : ∀ t ∈ ts, ∀ u ∈ us, u.range.Apart t.range)
    (hdeclarations : ∀ d, d ∈ all.declarations ↔ d ∈ here.declarations ∨ d ∈ other.declarations)
    (hmembers : ∀ m, m ∈ all.members ↔ m ∈ here.members ∨ m ∈ other.members) :
    Attribution (outer ++ all.declarations) all.members w := by
  obtain ⟨t, ht, hholds⟩ := hplace
  -- a range in the other nodes that held the reference would share its first byte with `t`
  have hnot : ∀ range, other.HasRange range → ¬ range.holds w.reference.place := by
    intro range hrange
    obtain ⟨u, hu, hin⟩ := hother range hrange
    exact (hapart t ht u hu).not_holds hin hholds hbyte
  refine h.extend ?_ ?_ ?_ ?_
  · intro d hd
    rw [List.mem_append, hdeclarations]
    rcases List.mem_append.1 hd with hd | hd
    · exact .inl hd
    · exact .inr (.inl hd)
  · intro m hm
    exact (hmembers m).2 (.inl hm)
  · intro d hd
    rw [List.mem_append, hdeclarations] at hd
    rcases hd with hd | hd | hd
    · exact .inl (List.mem_append_left _ hd)
    · exact .inl (List.mem_append_right _ hd)
    · exact .inr fun hd' => absurd hd' (hnot _ (.declaration hd))
  · intro m hm
    rcases (hmembers m).1 hm with hm | hm
    · exact .inl hm
    · exact .inr fun _ => hnot _ (.member hm)

/-- A type around is longer than all that are found in a node, if it is longer than the node. -/
theorem Attribution.nestedIn {type : FileDeclaration} {t : Tree} {found : Found}
    (h : Attribution found.declarations found.members w) (hin : found.LiesIn [t])
    (hshorter : t.range.ShorterThan type.range) :
    Attribution ([type] ++ found.declarations) found.members w := by
  obtain ⟨u, hu, hholds⟩ := hin _ (.declaration h.recorded)
  rw [List.mem_singleton.1 hu] at hholds
  refine h.extend (fun d hd => List.mem_append_right _ hd) (fun m hm => hm) ?_
    (fun m hm => .inl hm)
  intro d hd
  rcases List.mem_append.1 hd with hd | hd
  · rw [List.mem_singleton.1 hd]
    exact .inr fun _ => hshorter.of_holds hholds
  · exact .inl hd

end Attribution

/-- All references that cover a byte are attributed, `outer` being the types around. Nothing is
said of the others: they may stand between two members. -/
def Attributed (outer : List FileDeclaration) (found : Found) (walked : List Walked) : Prop :=
  ∀ w ∈ walked, w.reference.startByte < w.reference.endByte →
    Attribution (outer ++ found.declarations) found.members w

theorem attributed_nil (outer : List FileDeclaration) (found : Found) :
    Attributed outer found [] := by
  intro w hw
  cases hw

/-- What is found in some nodes, and the references made in them. -/
structure AttributedIn (outer : List FileDeclaration) (ts : List Tree) (found : Found)
    (walked : List Walked) : Prop where
  liesIn : found.LiesIn ts
  references : walked.map (·.reference) = found.references
  attributed : Attributed outer found walked

/-- Every reference that is made in some nodes stands in one of them. -/
theorem AttributedIn.place {outer : List FileDeclaration} {ts : List Tree} {found : Found}
    {walked : List Walked} (h : AttributedIn outer ts found walked) {w : Walked} (hw : w ∈ walked) :
    ∃ t ∈ ts, t.range.holds w.reference.place := by
  refine h.liesIn _ (.reference ?_)
  rw [← h.references]
  exact List.mem_map_of_mem hw

/-- One node after the other: what is found in each lies apart from the references in the other. -/
theorem AttributedIn.cons {outer : List FileDeclaration} {t : Tree} {rest : List Tree}
    {here later : Found} {walked walkedLater : List Walked}
    (hhere : AttributedIn outer [t] here walked)
    (hlater : AttributedIn outer rest later walkedLater)
    (hapart : ∀ u ∈ rest, t.range.Apart u.range) :
    AttributedIn outer (t :: rest) (here ++ later) (walked ++ walkedLater) where
  liesIn := (hhere.liesIn.head rest).append (hlater.liesIn.tail t)
  references := by
    rw [List.map_append, hhere.references, hlater.references, Found.references_append]
  attributed := by
    intro w hw hbyte
    rcases List.mem_append.1 hw with hw | hw
    · refine (hhere.attributed w hw hbyte).beside hbyte (hhere.place hw) hlater.liesIn ?_
        (fun _ => List.mem_append) (fun _ => List.mem_append)
      intro u hu u' hu'
      rw [List.mem_singleton.1 hu]
      exact (hapart u' hu').symm
    · refine (hlater.attributed w hw hbyte).beside hbyte (hlater.place hw) hhere.liesIn ?_
        (fun _ => List.mem_append.trans or_comm) (fun _ => List.mem_append.trans or_comm)
      intro u hu u' hu'
      rw [List.mem_singleton.1 hu']
      exact hapart u hu

/-! ## The walk of a type -/

namespace Env

/-- Nodes side by side in the body of a type. -/
structure InBody (env : Env) (type : FileDeclaration) (ts : List Tree) : Prop where
  caller : env.typeName? = some type.qualname
  nested : ∀ t ∈ ts, t.WellNested
  apart : ts.Pairwise fun a b => a.range.Apart b.range
  inside : ∀ t ∈ ts, type.range.holds t.range
  strict : ∀ t ∈ ts, ∀ u : Tree, u.Within t → u.declaresType → u.range.ShorterThan type.range

section InBody

variable {env : Env} {type : FileDeclaration} {t : Tree} {rest : List Tree}

/-- Nodes in the body of a type, less the first. -/
theorem InBody.tail (h : env.InBody type (t :: rest)) : env.InBody type rest where
  caller := h.caller
  nested u hu := h.nested u (List.mem_cons_of_mem t hu)
  apart := (List.pairwise_cons.1 h.apart).2
  inside u hu := h.inside u (List.mem_cons_of_mem t hu)
  strict u hu := h.strict u (List.mem_cons_of_mem t hu)

/-- The first of some nodes in the body of a type. -/
theorem InBody.head (h : env.InBody type (t :: rest)) : env.InBody type [t] where
  caller := h.caller
  nested := List.forall_mem_singleton.2 (h.nested t List.mem_cons_self)
  apart := List.pairwise_singleton _ t
  inside := List.forall_mem_singleton.2 (h.inside t List.mem_cons_self)
  strict := List.forall_mem_singleton.2 (h.strict t List.mem_cons_self)

/-- The children of a node in the body of a type are in this body, too. -/
theorem InBody.children (h : env.InBody type (t :: rest)) : env.InBody type t.children where
  caller := h.caller
  nested _ hc := (h.nested t List.mem_cons_self).child hc
  apart := (h.nested t List.mem_cons_self).apart t .self
  inside _ hc :=
    SourceRange.holds_trans (h.inside t List.mem_cons_self)
      ((h.nested t List.mem_cons_self).holds_child hc)
  strict _ hc u hu := h.strict t List.mem_cons_self u (.under hc hu)

/-- The children of a type are in its body, under the name that it is recorded with. -/
theorem inBody_openType (env : Env) (ht : t.WellNested) (htype : t.declaresType) (name : String) :
    (env.openType t name).2.InBody (env.openType t name).1 t.children where
  caller := rfl
  nested _ hc := ht.child hc
  apart := ht.apart t .self
  inside _ hc := ht.holds_child hc
  strict c hc u hu hutype := by
    -- inside of `t` and not all of it, so shorter
    have hstrict := ht.strict t .self htype c hc u hu hutype
    have hin := SourceRange.holds_iff.1 (ht.holds_within (.under hc hu))
    change u.range.endByte - u.range.startByte < t.range.endByte - t.range.startByte
    omega

/-- The references of a node that declares no type are made from the type around and, if the node
is a method or a constructor, from this. -/
theorem Records.attributed {found : Found} {w : Walked} (h : env.Records t found)
    (hcaller : env.typeName? = some type.qualname) (hinside : type.range.holds t.range)
    (hw : w ∈ found.walkedIn type t) : Attribution [type] found.members w := by
  obtain ⟨r, hr, rfl⟩ := List.mem_map.1 hw
  have hmade := h.references r hr
  refine ⟨List.mem_singleton_self type, hmade.caller.trans hcaller,
    SourceRange.holds_trans hinside hmade.place, ?_, ?_⟩
  · intro d hd _
    exact .inl (List.mem_singleton.1 hd)
  · intro m
    dsimp only
    split
    · next hkind =>
      constructor
      · intro hm
        have hmem := List.mem_of_head? hm
        obtain ⟨-, hfield, hrange⟩ := h.callable hkind m hmem
        exact ⟨hmem, hfield, hrange ▸ hmade.place⟩
      · rintro ⟨hmem, -, -⟩
        rw [(h.callable hkind m hmem).1]
        rfl
    · next hkind =>
      constructor
      · intro hm
        cases hm
      · rintro ⟨hmem, hfield, -⟩
        exact absurd (h.fields (Bool.eq_false_iff.2 hkind) m hmem) hfield

end InBody

/-- What is found in nodes of a body, with the references that are made in them. -/
theorem attributedIn_memberWalk {env : Env} {type : FileDeclaration} {index next : Nat}
    {components : Option Tree} {ts : List Tree} (hts : env.InBody type ts)
    (h : Attributed [type] (env.memberSymbols index components next ts)
      (env.memberWalk type index components next ts)) :
    AttributedIn [type] ts (env.memberSymbols index components next ts)
      (env.memberWalk type index components next ts) :=
  ⟨env.memberSymbols_liesIn index components next ts hts.nested,
    references_memberWalk env type index components next ts, h⟩

mutual

/-- Every reference in a type is attributed to the type that it is made from. -/
theorem typeWalk_attributed (env : Env) (index : Nat) : ∀ t : Tree, t.WellNested →
    t.declaresType → Attributed [] (env.typeSymbols index t) (env.typeWalk index t)
  | .node info children, ht, htype => by
    cases hname : (Tree.node info children).field? "name" with
    | none =>
      unfold typeWalk
      simp only [hname]
      exact attributed_nil _ _
    | some name =>
      obtain ⟨own, heq, hown⟩ := typeSymbols_eq env index hname ht
      intro w hw hbyte
      unfold typeWalk at hw
      simp only [hname] at hw
      have hbody := bodyWalk_attributed _ _ index ((Tree.node info children).field? "parameters")
        children (env.inBody_openType ht htype (name.text env.source)) w hw hbyte
      rw [heq, List.nil_append, Found.declarations_append, Found.members_append, hown.declarations]
      -- the components of a record are fields
      refine hbody.extend (fun d hd => hd) (fun m hm => List.mem_append_right _ hm)
        (fun d hd => .inl hd) ?_
      intro m hm
      rcases List.mem_append.1 hm with hm | hm
      · exact .inr fun hkind => absurd (hown.fields m hm).1 hkind
      · exact .inl hm

/-- Every reference in a body is attributed to the type that it is made from. -/
theorem bodyWalk_attributed (env : Env) (type : FileDeclaration) (index : Nat)
    (components : Option Tree) : ∀ ts : List Tree, env.InBody type ts →
      Attributed [type] (env.bodySymbols index components ts)
        (env.bodyWalk type index components ts)
  | [], _ => by
    unfold bodyWalk
    exact attributed_nil _ _
  | .node info children :: rest, hts => by
    unfold bodyWalk bodySymbols
    split
    · exact memberWalk_attributed env type index components (index + 1) children hts.children
    · exact bodyWalk_attributed env type index components rest hts.tail

/-- Every reference in the nodes of a body is attributed to the type that it is made from. -/
theorem memberWalk_attributed (env : Env) (type : FileDeclaration) (index : Nat)
    (components : Option Tree) (next : Nat) : ∀ ts : List Tree, env.InBody type ts →
      Attributed [type] (env.memberSymbols index components next ts)
        (env.memberWalk type index components next ts)
  | [], _ => by
    unfold memberWalk
    exact attributed_nil _ _
  | .node info children :: rest, hts => by
    have ht := hts.nested _ List.mem_cons_self
    -- first this node alone, by what it can be; the nodes behind it lie apart from it
    have hhere : Attributed [type] (env.memberSymbols index components next [.node info children])
        (env.memberWalk type index components next [.node info children]) := by
      rcases env.memberWalk_singleton_cases type index components next info children with
        ⟨hw, hs⟩ | ⟨htype, hw, hs⟩ | ⟨hw, hs⟩ | ⟨hw, hs⟩
      · rw [hw]
        exact attributed_nil _ _
      · rw [hw, hs]
        intro w hw hbyte
        have hnested := typeWalk_attributed env next (.node info children) ht htype w hw hbyte
        -- the type around is longer than the one in this node
        exact hnested.nestedIn (env.typeSymbols_liesIn next _ ht)
          (hts.strict _ List.mem_cons_self _ .self htype)
      · rw [hw, hs]
        exact memberWalk_attributed env type index none next children hts.children
      · rw [hw, hs]
        intro w hw _
        have hrecords : env.Records (.node info children)
            (env.memberOf index components (.node info children)) := memberOf_records ht
        rw [hrecords.noTypes, List.append_nil]
        exact hrecords.attributed hts.caller (hts.inside _ List.mem_cons_self) hw
    have hlater := memberWalk_attributed env type index components
      (next + (env.memberSymbols index components next [.node info children]).declarations.length)
      rest hts.tail
    rw [memberSymbols_cons, memberWalk_cons]
    exact ((attributedIn_memberWalk hts.head hhere).cons (attributedIn_memberWalk hts.tail hlater)
      (List.pairwise_cons.1 hts.apart).1).attributed

end

/-- The types among nodes side by side, none of them nested in another type. -/
theorem topWalk_attributedIn (env : Env) (next : Nat) (ts : List Tree)
    (hts : ∀ t ∈ ts, t.WellNested) (hapart : ts.Pairwise fun a b => a.range.Apart b.range) :
    AttributedIn [] ts (env.topSymbols next ts) (env.topWalk next ts) := by
  induction ts generalizing next with
  | nil => exact ⟨.empty _, rfl, attributed_nil _ _⟩
  | cons t rest ih =>
    obtain ⟨ht, hrest⟩ := List.forall_mem_cons.1 hts
    obtain ⟨hapart, hrestApart⟩ := List.pairwise_cons.1 hapart
    rw [topSymbols_cons, topWalk_cons]
    refine AttributedIn.cons ⟨?_, ?_, ?_⟩ (ih _ hrest hrestApart) hapart
    · exact env.topSymbols_liesIn next [t] (List.forall_mem_singleton.2 ht)
    · exact env.references_topWalk next [t]
    · rcases env.topWalk_singleton_cases next t with ⟨htype, hw, hs⟩ | ⟨hw, hs⟩
      · rw [hw, hs]
        exact env.typeWalk_attributed next t ht htype
      · rw [hw]
        exact attributed_nil _ _

end Env

/-! ## The member belongs to the type -/

/-- The member in whose body a reference is made belongs to the type in whose body it is made; the
types are numbered from `next` on. -/
def Walked.OwnedFrom (next : Nat) (declarations : List FileDeclaration) (w : Walked) : Prop :=
  ∀ m, w.callable = some m →
    next ≤ m.declIndex ∧ declarations[m.declIndex - next]? = some w.type

/-- The same, where the type may also be the one around, which has number `index`. -/
def Walked.OwnedIn (index : Nat) (type : FileDeclaration) (next : Nat)
    (declarations : List FileDeclaration) (w : Walked) : Prop :=
  ∀ m, w.callable = some m → m.declIndex = index ∧ w.type = type ∨
    next ≤ m.declIndex ∧ declarations[m.declIndex - next]? = some w.type

section Owned

variable {index next : Nat} {type : FileDeclaration} {ds more : List FileDeclaration} {w : Walked}

/-- A member of a type in a body is one of a type in it or of the type around. -/
theorem Walked.OwnedFrom.ownedIn (h : w.OwnedFrom next ds) : w.OwnedIn index type next ds :=
  fun m hm => .inr (h m hm)

/-- Further types behind those there are change no number. -/
theorem Walked.OwnedFrom.append_right (h : w.OwnedFrom next ds) (more : List FileDeclaration) :
    w.OwnedFrom next (ds ++ more) := by
  intro m hm
  obtain ⟨hle, hget⟩ := h m hm
  have hlt := (List.getElem?_eq_some_iff.1 hget).1
  exact ⟨hle, by rw [List.getElem?_append_left hlt, hget]⟩

/-- Types in front of those there are move all numbers up. -/
theorem Walked.OwnedFrom.append_left (h : w.OwnedFrom (next + ds.length) more) :
    w.OwnedFrom next (ds ++ more) := by
  intro m hm
  obtain ⟨hle, hget⟩ := h m hm
  refine ⟨by omega, ?_⟩
  -- the numbers of later types count on behind those of the earlier ones
  rw [List.getElem?_append_right (by omega), ← hget]
  congr 1
  omega

/-- A member is one of the type around or of a type in it. -/
theorem Walked.ownedIn_iff : w.OwnedIn index type next ds ↔
    (∀ m, w.callable = some m → m.declIndex = index ∧ w.type = type) ∨ w.OwnedFrom next ds := by
  cases hcallable : w.callable with
  | none => simp [Walked.OwnedIn, Walked.OwnedFrom, hcallable]
  | some m => simp [Walked.OwnedIn, Walked.OwnedFrom, hcallable]

/-- Further types behind those in a body change no number. -/
theorem Walked.OwnedIn.append_right (h : w.OwnedIn index type next ds)
    (more : List FileDeclaration) : w.OwnedIn index type next (ds ++ more) := by
  rw [Walked.ownedIn_iff] at h ⊢
  exact h.imp_right fun h => h.append_right more

/-- Types in front of those in a body move all numbers up but that of the type around. -/
theorem Walked.OwnedIn.append_left (h : w.OwnedIn index type (next + ds.length) more) :
    w.OwnedIn index type next (ds ++ more) := by
  rw [Walked.ownedIn_iff] at h ⊢
  exact h.imp_right Walked.OwnedFrom.append_left

/-- The type around comes right before the types in it. -/
theorem Walked.OwnedIn.ownedFrom (h : w.OwnedIn index type (index + 1) ds) :
    w.OwnedFrom index ([type] ++ ds) := by
  rcases Walked.ownedIn_iff.1 h with h | h
  · intro m hm
    obtain ⟨hindex, htype⟩ := h m hm
    exact ⟨by omega, by simp [hindex, htype]⟩
  · exact h.append_left

end Owned

namespace Env

mutual

/-- In a type, the member that a reference is made from belongs to the type that it is made from. -/
theorem typeWalk_owned (env : Env) (index : Nat) :
    ∀ t : Tree, ∀ w ∈ env.typeWalk index t,
      w.OwnedFrom index (env.typeSymbols index t).declarations
  | .node info children, w, hw => by
    unfold typeWalk at hw
    unfold typeSymbols
    cases hname : (Tree.node info children).field? "name" with
    | none =>
      simp only [hname] at hw
      cases hw
    | some name =>
      simp only [hname] at hw ⊢
      exact (bodyWalk_owned _ _ index _ children w hw).ownedFrom

/-- In a body, the member that a reference is made from belongs to the type that it is made from. -/
theorem bodyWalk_owned (env : Env) (type : FileDeclaration) (index : Nat)
    (components : Option Tree) : ∀ ts : List Tree, ∀ w ∈ env.bodyWalk type index components ts,
      w.OwnedIn index type (index + 1) (env.bodySymbols index components ts).declarations
  | [], w, hw => by
    unfold bodyWalk at hw
    cases hw
  | .node info children :: rest, w, hw => by
    unfold bodyWalk at hw
    unfold bodySymbols
    split at hw
    · next hfield =>
      rw [if_pos hfield]
      exact memberWalk_owned env type index components (index + 1) children w hw
    · next hfield =>
      rw [if_neg hfield]
      exact bodyWalk_owned env type index components rest w hw

/-- In the nodes of a body, the member that a reference is made from belongs to its type. -/
theorem memberWalk_owned (env : Env) (type : FileDeclaration) (index : Nat)
    (components : Option Tree) (next : Nat) : ∀ ts : List Tree,
      ∀ w ∈ env.memberWalk type index components next ts,
      w.OwnedIn index type next (env.memberSymbols index components next ts).declarations
  | [], w, hw => by
    unfold memberWalk at hw
    cases hw
  | .node info children :: rest, w, hw => by
    rw [memberSymbols_cons, Found.declarations_append]
    rw [memberWalk_cons] at hw
    rcases List.mem_append.1 hw with hw | hw
    · apply Walked.OwnedIn.append_right
      rcases env.memberWalk_singleton_cases type index components next info children with
        ⟨heq, hs⟩ | ⟨-, heq, hs⟩ | ⟨heq, hs⟩ | ⟨heq, hs⟩
      · rw [heq] at hw
        cases hw
      · rw [heq] at hw
        rw [hs]
        exact (typeWalk_owned env next (.node info children) w hw).ownedIn
      · rw [heq] at hw
        rw [hs]
        exact memberWalk_owned env type index none next children w hw
      · rw [heq] at hw
        obtain ⟨r, -, rfl⟩ := List.mem_map.1 hw
        intro m hm
        dsimp only at hm
        split at hm
        · -- a method or a constructor is a member of the type around
          have hmem := List.mem_of_head? hm
          exact .inl ⟨(env.memberOf_onlyMembers index components _).owned m hmem, rfl⟩
        · cases hm
    · exact (memberWalk_owned env type index components _ rest w hw).append_left

end

/-- In a file, the member that a reference is made from belongs to the type that it is made from. -/
theorem topWalk_owned (env : Env) (next : Nat) (ts : List Tree) :
    ∀ w ∈ env.topWalk next ts, w.OwnedFrom next (env.topSymbols next ts).declarations := by
  induction ts generalizing next with
  | nil =>
    intro w hw
    cases hw
  | cons t rest ih =>
    intro w hw
    rw [topSymbols_cons, Found.declarations_append]
    rw [topWalk_cons] at hw
    rcases List.mem_append.1 hw with hw | hw
    · apply Walked.OwnedFrom.append_right
      rcases env.topWalk_singleton_cases next t with ⟨-, heq, hs⟩ | ⟨heq, hs⟩
      · rw [heq] at hw
        rw [hs]
        exact typeWalk_owned env next t w hw
      · rw [heq] at hw
        cases hw
    · exact (ih _ w hw).append_left

end Env

/-! ## The walk of a file -/

/-- Every reference of a file that covers a byte is made from the shortest recorded type around it,
and from the only recorded method or constructor around it, if there is one. -/
theorem walk_attributed {source : String} {root : Tree} (h : root.WellNested) {w : Walked}
    (hw : w ∈ walk source root) (hbyte : w.reference.startByte < w.reference.endByte) :
    Attribution (extract source root).declarations (extract source root).members w :=
  (Env.topWalk_attributedIn _ 0 root.children (fun _ hc => h.child hc)
    (h.apart root .self)).attributed w hw hbyte

/-- The member that a reference is made from belongs to the type that it is made from. -/
theorem walk_owned {source : String} {root : Tree} {w : Walked} (hw : w ∈ walk source root)
    {m : FileMember} (hm : w.callable = some m) :
    (extract source root).declarations[m.declIndex]? = some w.type :=
  (Env.topWalk_owned _ 0 root.children w hw m hm).2

end JavaAtlas.Java
