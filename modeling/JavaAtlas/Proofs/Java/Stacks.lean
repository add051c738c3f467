import Mathlib.Data.List.Forall2
import JavaAtlas.Proofs.Java.Spots
import JavaAtlas.Proofs.Java.Walk

namespace JavaAtlas.Java

/-! # The walk with its stacks

The walk through a file keeps the types that are open, the parameters of the lambdas around and
the type parameters of the method it is in; what is found is noted with the spot where it stands.
What is pushed when a node is entered is popped when it is left, whatever the node lacks, so that a
walk comes back with the stacks it had:

* `collect_eq`: going through code adds its references;
* `visitMember_went`: so does going through a member, which is added too;
* `visitType_went`, `visitMembers_went`: a type adds all that is found in it;
* `walked_went`: at the end of a file nothing is left on the stacks.
-/

/-- Taken together, two findings have the lists of one behind those of the other. -/
@[simp]
theorem Found.append_mk (ds ds' : List FileDeclaration) (ms ms' : List FileMember)
    (rs rs' : List FileReference) :
    Found.mk ds ms rs ++ Found.mk ds' ms' rs' = ⟨ds ++ ds', ms ++ ms', rs ++ rs'⟩ := rfl

/-- Findings can be taken together in any grouping. -/
theorem Found.append_assoc (a b c : Found) : a ++ b ++ c = a ++ (b ++ c) := by
  obtain ⟨ds, ms, rs⟩ := a
  obtain ⟨ds', ms', rs'⟩ := b
  obtain ⟨ds'', ms'', rs''⟩ := c
  simp only [append_mk, List.append_assoc]

/-- Members found first and references found then, taken together. -/
@[simp]
theorem Found.members_append_references (ms : List FileMember) (rs : List FileReference) :
    ({ members := ms } : Found) ++ ({ references := rs } : Found) =
      { members := ms
        references := rs } := by
  rw [append_mk, List.append_nil, List.append_nil, List.nil_append]

/-- Parts taken together one by one are all of them, list by list. -/
theorem Found.foldl_append (parts : List Found) (start : Found) :
    parts.foldl (· ++ ·) start = start ++
      ⟨parts.flatMap (·.declarations), parts.flatMap (·.members), parts.flatMap (·.references)⟩ := by
  induction parts generalizing start with
  | nil => exact (append_empty start).symm
  | cons part rest ih =>
    rw [List.foldl_cons, ih, append_assoc]
    rfl

/-- The references in a part of a node that is code outside of methods. -/
def Env.partReferences (env : Env) (part : Option Tree) : List FileReference :=
  (part.map (env.references {} [])).getD []

/-- What is kept during a walk, the innermost first. -/
structure Walker where
  file : FileNames
  types : List OpenType := []
  lambdas : List (List (String × ReceiverChain)) := []
  methodTypeParams : List String := []
  declarations : List (FileDeclaration × Spot) := []
  members : List (FileMember × Spot) := []
  references : List FileReference := []

namespace Walker

/-- What names stand for where the walk is. -/
def env (w : Walker) : Env :=
  { file := w.file
    types := w.types
    methodTypeParams := w.methodTypeParams }

/-- The variables where the walk is, given the local ones of the method. -/
def vars (w : Walker) (locals : List (String × TypeRef)) : Variables :=
  { locals
    lambdas := w.lambdas }

/-- What has been found so far. -/
def found (w : Walker) : Found :=
  { declarations := w.declarations.map (·.1)
    members := w.members.map (·.1)
    references := w.references }

/-- Notes references. -/
def refer (w : Walker) (rs : List FileReference) : Walker :=
  { w with references := w.references ++ rs }

/-- Notes members with their spots. -/
def recordMembers (w : Walker) (ms : List (FileMember × Spot)) : Walker :=
  { w with members := w.members ++ ms }

/-- Enters a lambda. -/
def pushLambda (w : Walker) (scope : List (String × ReceiverChain)) : Walker :=
  { w with lambdas := scope :: w.lambdas }

/-- Leaves a lambda. -/
def popLambda (w : Walker) : Walker := { w with lambdas := w.lambdas.tail }

/-- Enters a type under a name: notes its declaration, and puts it on top of those that are
open. -/
def pushType (w : Walker) (q : Spot) (t : Tree) (name : String) : Walker :=
  { w with
    types := (w.env.openType t name).2.types
    declarations := w.declarations ++ [((w.env.openType t name).1, q)] }

/-- Leaves a type. -/
def popType (w : Walker) : Walker := { w with types := w.types.tail }

/-- Enters a method or constructor with these type parameters, or leaves one with none. -/
def setTypeParams (w : Walker) (names : List String) : Walker := { w with methodTypeParams := names }

/-! ## Through code -/

mutual

/-- Goes through a node of code and all below it, given the nodes around it, nearest first. -/
def collect (locals : List (String × TypeRef)) (around : List Tree) : Tree → Walker → Walker
  | .node info children, w =>
    let t := Tree.node info children
    if info.kind == "lambda_expression" then
      let scope := w.env.lambdaParams (w.vars locals) around t
      (collectBody locals (t :: around) children (w.pushLambda scope)).popLambda
    else
      collectAll locals (t :: around) children
        (w.refer (w.env.reference? (w.vars locals) around t).toList)

/-- Goes through the named ones among nodes side by side. -/
def collectAll (locals : List (String × TypeRef)) (around : List Tree) :
    List Tree → Walker → Walker
  | [], w => w
  | t :: rest, w =>
    collectAll locals around rest (if t.info.named then collect locals around t w else w)

/-- Goes through the body among the children of a lambda, if there is one. -/
def collectBody (locals : List (String × TypeRef)) (around : List Tree) :
    List Tree → Walker → Walker
  | [], w => w
  | t :: rest, w =>
    if t.info.field == some "body" then collect locals around t w
    else collectBody locals around rest w

end

/-- Goes through a part of a node that is code outside of methods. -/
def collectPart (w : Walker) (part : Option Tree) : Walker :=
  match part with
  | some t => collect [] [] t w
  | none => w

/-- Goes through the body of a method or constructor with these parameters. -/
def collectMethod (w : Walker) (params : List Param) (body : Option Tree) : Walker :=
  match body with
  | some body => collect (w.env.variablesOf params body).locals [] body w
  | none => w

/-! ## Through members -/

/-- The variables with a name among the children of a declaration of fields, with their spots. -/
def declaratorsOf (q : Spot) (t : Tree) : List (Tree × Spot) :=
  (t.children.zipIdx.filter fun (c, _) =>
    c.info.field == some "declarator" && (c.field? "name").isSome).map fun (c, i) => (c, q ++ [i])

/-- Goes through a declaration of fields. One without a type is passed over. -/
def visitFields (q : Spot) (index : Nat) (t : Tree) (w : Walker) : Walker :=
  match t.field? "type" with
  | none => w
  | some _ =>
    let fields := declaratorsOf q t
    let members := (w.env.fieldMembers index t).members
    fields.foldl (fun w (d, _) => w.collectPart (d.field? "value"))
      (w.recordMembers (members.zip (fields.map (·.2))))

/-- Goes through a constant of an enum: the creation of it comes before its own code. -/
def visitEnumConstant (q : Spot) (index : Nat) (t : Tree) (w : Walker) : Walker :=
  match t.field? "name", w.env.owner? with
  | some _, some _ =>
    let constant := w.env.enumConstant index t
    let w := (w.recordMembers (constant.members.map (·, q))).refer (constant.references.take 1)
    (w.collectPart (t.field? "arguments")).collectPart (t.field? "body")
  | _, _ => w

/-- Goes through a method or constructor that is recorded as `members`. One without a name is
passed over. -/
def visitCallable (q : Spot) (t : Tree) (list : Option Tree) (members : List FileMember)
    (w : Walker) : Walker :=
  match t.field? "name" with
  | none => w
  | some _ =>
    let w := (w.setTypeParams (typeParameters w.file.source t)).recordMembers (members.map (·, q))
    let params := (list.map w.env.parameters).getD []
    (w.collectMethod params (t.field? "body")).setTypeParams []

/-- Goes through a node in a body that is neither a type nor a list of such nodes. -/
def visitMember (q : Spot) (index : Nat) (components : Option Tree) (t : Tree) (w : Walker) :
    Walker :=
  match t.kind with
  | "field_declaration" | "constant_declaration" => w.visitFields q index t
  | "method_declaration" | "annotation_type_element_declaration" =>
    w.visitCallable q t (t.field? "parameters") (w.env.methodMember index t).members
  | "constructor_declaration" | "compact_constructor_declaration" =>
    w.visitCallable q t ((t.field? "parameters").orElse fun _ => components)
      (w.env.constructorMember index components t).members
  | "enum_constant" => w.visitEnumConstant q index t
  | "static_initializer" | "block" => w.collectPart (some t)
  | _ => w

/-! ## Through types -/

/-- Notes the components of a record. They all stand at the list of them. -/
def visitComponents (q : Spot) (index : Nat) (t : Tree) (w : Walker) : Walker :=
  match t.kind == "record_declaration", t.field? "parameters" with
  | true, some params =>
    let spot := q ++ (t.place? "parameters").toList
    w.recordMembers ((w.env.componentMembers index params).map (·, spot))
  | _, _ => w

mutual

/-- Goes through a type at a spot. One without a name is passed over. -/
def visitType (q : Spot) : Tree → Walker → Walker
  | .node info children, w =>
    let t := Tree.node info children
    match t.field? "name" with
    | none => w
    | some name =>
      let index := w.declarations.length
      let w := (w.pushType q t (name.text w.file.source)).visitComponents q index t
      (visitBody q 0 index (t.field? "parameters") children w).popType

/-- Goes through the body among the children of a type, from child `i` on, if there is one. -/
def visitBody (q : Spot) (i : Nat) (index : Nat) (components : Option Tree) :
    List Tree → Walker → Walker
  | [], w => w
  | .node info children :: rest, w =>
    if info.field == some "body" then visitMembers (q ++ [i]) 0 index components children w
    else visitBody q (i + 1) index components rest w

/-- Goes through nodes side by side in the body of type `index`, from child `i` on. -/
def visitMembers (q : Spot) (i : Nat) (index : Nat) (components : Option Tree) :
    List Tree → Walker → Walker
  | [], w => w
  | .node info children :: rest, w =>
    let t := Tree.node info children
    visitMembers q (i + 1) index components rest <|
      if !info.named then w
      else if isTypeDeclaration info.kind then visitType (q ++ [i]) t w
      else if info.kind == "enum_body_declarations" then
        visitMembers (q ++ [i]) 0 index none children w
      else w.visitMember (q ++ [i]) index components t

end

/-- Goes through the types among the nodes of a file, from node `i` on. -/
def visitTop (i : Nat) : List Tree → Walker → Walker
  | [], w => w
  | t :: rest, w => visitTop (i + 1) rest (if t.declaresType then visitType [i] t w else w)

/-- The walk at the end of a file. -/
def walked (source : String) (root : Tree) : Walker :=
  visitTop 0 root.children { file := FileNames.ofTree source root }

/-! ## What it leaves behind -/

section Frames

variable {w : Walker} {rs : List FileReference}

@[simp] theorem env_refer : (w.refer rs).env = w.env := rfl

@[simp] theorem vars_refer (locals : List (String × TypeRef)) :
    (w.refer rs).vars locals = w.vars locals := rfl

@[simp] theorem refer_nil : w.refer [] = w := by
  unfold refer
  rw [List.append_nil]

@[simp] theorem refer_refer (more : List FileReference) :
    (w.refer rs).refer more = w.refer (rs ++ more) := by
  unfold refer
  rw [List.append_assoc]

/-- A lambda is left as it was entered. -/
@[simp]
theorem popLambda_pushLambda_refer (scope : List (String × ReceiverChain)) :
    ((w.pushLambda scope).refer rs).popLambda = w.refer rs := rfl

end Frames

mutual

/-- Going through code adds the references in it and leaves all stacks as they were. -/
theorem collect_eq (locals : List (String × TypeRef)) (around : List Tree) (t : Tree)
    (w : Walker) :
    collect locals around t w = w.refer (w.env.references (w.vars locals) around t) := by
  cases t with
  | node info children =>
    unfold collect Env.references
    dsimp only
    split
    · -- the lambda on top of the stack is the one whose parameters the body sees
      rw [collectBody_eq]
      exact popLambda_pushLambda_refer _
    · rw [collectAll_eq, env_refer, vars_refer, refer_refer]

/-- Going through nodes of code side by side adds the references in them. -/
theorem collectAll_eq (locals : List (String × TypeRef)) (around ts : List Tree) (w : Walker) :
    collectAll locals around ts w = w.refer (w.env.referencesOfAll (w.vars locals) around ts) := by
  cases ts with
  | nil =>
    unfold collectAll Env.referencesOfAll
    exact refer_nil.symm
  | cons t rest =>
    unfold collectAll Env.referencesOfAll
    rw [collectAll_eq locals around rest]
    split
    · rw [collect_eq, env_refer, vars_refer, refer_refer]
    · rw [List.nil_append]

/-- Going through the body of a lambda adds the references in it. -/
theorem collectBody_eq (locals : List (String × TypeRef)) (around ts : List Tree) (w : Walker) :
    collectBody locals around ts w =
      w.refer (w.env.referencesOfBody (w.vars locals) around ts) := by
  cases ts with
  | nil =>
    unfold collectBody Env.referencesOfBody
    exact refer_nil.symm
  | cons t rest =>
    unfold collectBody Env.referencesOfBody
    split
    · exact collect_eq locals around t w
    · exact collectBody_eq locals around rest w

end

/-- The walk is not inside a lambda or a method. -/
structure BetweenMembers (w : Walker) : Prop where
  lambdas : w.lambdas = []
  methodTypeParams : w.methodTypeParams = []

/-- A walk has come from one state to another: its stacks are as they were, and it has found
more. -/
structure Went (w w' : Walker) (more : Found) : Prop where
  file : w'.file = w.file
  types : w'.types = w.types
  lambdas : w'.lambdas = w.lambdas
  methodTypeParams : w'.methodTypeParams = w.methodTypeParams
  found : w'.found = w.found ++ more

section Went

variable {w w₁ w₂ : Walker} {a b : Found}

theorem Went.refl (w : Walker) : Went w w {} :=
  ⟨rfl, rfl, rfl, rfl, (Found.append_empty _).symm⟩

/-- One way after another leaves the stacks as they were and finds what both find. -/
theorem Went.trans (ha : Went w w₁ a) (hb : Went w₁ w₂ b) : Went w w₂ (a ++ b) where
  file := hb.file.trans ha.file
  types := hb.types.trans ha.types
  lambdas := hb.lambdas.trans ha.lambdas
  methodTypeParams := hb.methodTypeParams.trans ha.methodTypeParams
  found := by rw [hb.found, ha.found, Found.append_assoc]

/-- Names stand for the same at both ends of a way. -/
theorem Went.env (h : Went w w₁ a) : w₁.env = w.env := by
  unfold Walker.env
  rw [h.file, h.types, h.methodTypeParams]

/-- A way that starts between members ends between members. -/
theorem Went.between (h : Went w w₁ a) (hw : w.BetweenMembers) : w₁.BetweenMembers :=
  ⟨h.lambdas.trans hw.lambdas, h.methodTypeParams.trans hw.methodTypeParams⟩

/-- The number of the next type counts what was found on the way. -/
theorem Went.length (h : Went w w₁ a) :
    w₁.declarations.length = w.declarations.length + a.declarations.length := by
  have hlength := congrArg (·.declarations.length) h.found
  simpa [Walker.found] using hlength

/-- Noting references finds them. -/
theorem went_refer (w : Walker) (rs : List FileReference) :
    Went w (w.refer rs) { references := rs } :=
  ⟨rfl, rfl, rfl, rfl, by simp only [Walker.found, refer, Found.append_mk, List.append_nil]⟩

/-- Noting members finds them. -/
theorem went_recordMembers (w : Walker) (ms : List (FileMember × Spot)) :
    Went w (w.recordMembers ms) { members := ms.map (·.1) } :=
  ⟨rfl, rfl, rfl, rfl, by
    simp only [Walker.found, recordMembers, Found.append_mk, List.append_nil, List.map_append]⟩

end Went

/-! ## Members are left as they were entered -/

section Members

variable {w : Walker} {q : Spot} {index : Nat} {components : Option Tree} {t : Tree}

/-- Between members there are no variables. -/
theorem BetweenMembers.vars (h : w.BetweenMembers) : w.vars [] = {} := by
  unfold Walker.vars
  rw [h.lambdas]

/-- Going through a part of a node finds the references in it. -/
theorem collectPart_went (hw : w.BetweenMembers) (part : Option Tree) :
    Went w (w.collectPart part)
      { references := w.env.partReferences part } := by
  unfold collectPart
  cases part with
  | none => exact .refl w
  | some t =>
    dsimp only
    rw [collect_eq, hw.vars]
    exact went_refer w _

/-- Going through the values of variables finds the references in them. -/
theorem foldl_collectPart_went (fields : List (Tree × Spot)) (hw : w.BetweenMembers) :
    Went w (fields.foldl (fun w (d, _) => w.collectPart (d.field? "value")) w)
      { references := (fields.map (·.1)).flatMap fun d =>
          w.env.partReferences (d.field? "value") } := by
  induction fields generalizing w with
  | nil => exact .refl w
  | cons d rest ih =>
    have hhead := collectPart_went hw (d.1.field? "value")
    have hrest := ih (hhead.between hw)
    rw [hhead.env] at hrest
    exact hhead.trans hrest

/-- The variables with a name in a declaration of fields. -/
def namedDeclarators (t : Tree) : List Tree :=
  (t.fields "declarator").filter fun d => (d.field? "name").isSome

/-- The variables that are noted with spots are those with a name. -/
theorem declaratorsOf_fst (q : Spot) (t : Tree) :
    (declaratorsOf q t).map (·.1) = namedDeclarators t := by
  unfold declaratorsOf namedDeclarators Tree.fields
  -- the numbers of the children play no part
  have hnumbers := List.filter_map (f := Prod.fst) (l := t.children.zipIdx)
    (p := fun c => c.info.field == some "declarator" && (c.field? "name").isSome)
  rw [List.zipIdx_map_fst] at hnumbers
  rw [List.map_map, List.filter_filter]
  simp only [Bool.and_comm] at hnumbers ⊢
  exact hnumbers.symm

/-- The variables of a declaration of fields are recorded one by one, at their bytes. -/
theorem fieldMembers_named (env : Env) (index : Nat) (htype : (t.field? "type").isSome) :
    List.Forall₂ (fun (m : FileMember) (d : Tree) =>
        m.range.startByte = d.range.startByte ∧ m.range.endByte = d.range.endByte)
      (env.fieldMembers index t).members (namedDeclarators t) ∧
    (env.fieldMembers index t).references =
      (namedDeclarators t).flatMap fun d => env.partReferences (d.field? "value") := by
  obtain ⟨type, htype⟩ := Option.isSome_iff_exists.1 htype
  unfold Env.fieldMembers namedDeclarators
  simp only [htype, Found.foldl_append]
  induction t.fields "declarator" with
  | nil => exact ⟨.nil, rfl⟩
  | cons d rest ih =>
    simp only [List.map_cons, List.flatMap_cons, List.filter_cons]
    cases hname : d.field? "name" with
    | none =>
      -- a variable without a name is passed over
      simpa [hname] using ih
    | some name =>
      refine ⟨.cons ⟨rfl, rfl⟩ ih.1, ?_⟩
      exact congrArg (env.partReferences (d.field? "value") ++ ·) ih.2

/-- Going through a declaration of fields finds what it records. -/
theorem visitFields_went (hw : w.BetweenMembers) :
    Went w (w.visitFields q index t) (w.env.fieldMembers index t) := by
  unfold visitFields
  cases htype : t.field? "type" with
  | none =>
    have hnone : w.env.fieldMembers index t = {} := by
      unfold Env.fieldMembers
      rw [htype]
    rw [hnone]
    exact .refl w
  | some type =>
    obtain ⟨hmembers, hreferences⟩ :=
      fieldMembers_named w.env index (Option.isSome_of_mem htype : (t.field? "type").isSome)
    have hlength : (w.env.fieldMembers index t).members.length ≤
        ((declaratorsOf q t).map (·.2)).length := by
      -- one member for each variable with a name, so that no spot is left over
      apply Nat.le_of_eq
      rw [hmembers.length_eq, ← declaratorsOf_fst q, List.length_map, List.length_map]
    have hrecord := went_recordMembers w
      ((w.env.fieldMembers index t).members.zip ((declaratorsOf q t).map (·.2)))
    have hcode := foldl_collectPart_went (declaratorsOf q t) (hrecord.between hw)
    rw [List.map_fst_zip hlength] at hrecord
    rw [hrecord.env, declaratorsOf_fst, ← hreferences] at hcode
    have hboth := hrecord.trans hcode
    rw [Found.members_append_references] at hboth
    have hnoTypes := (w.env.fieldMembers_onlyMembers index t).noTypes
    generalize w.env.fieldMembers index t = found at hboth hnoTypes ⊢
    obtain ⟨ds, ms, rs⟩ := found
    subst hnoTypes
    exact hboth

/-- Going through a constant of an enum finds what it records. -/
theorem visitEnumConstant_went (hw : w.BetweenMembers) :
    Went w (w.visitEnumConstant q index t) (w.env.enumConstant index t) := by
  unfold visitEnumConstant Env.enumConstant
  cases t.field? "name" with
  | none => exact .refl w
  | some name =>
    cases w.env.owner? with
    | none => exact .refl w
    | some owner =>
      dsimp only
      generalize hms : List.map (·, q) _ = ms
      generalize hrs : List.take 1 _ = rs
      -- the member and the creation, then the arguments, then the body of the constant
      have hrecord := (went_recordMembers w ms).trans (went_refer (w.recordMembers ms) rs)
      have harguments := collectPart_went (hrecord.between hw) (t.field? "arguments")
      have hbody := collectPart_went (harguments.between (hrecord.between hw)) (t.field? "body")
      rw [harguments.env, hrecord.env] at hbody
      rw [hrecord.env] at harguments
      have hall := (hrecord.trans harguments).trans hbody
      rw [← hms, ← hrs] at hall ⊢
      exact hall

/-- Going through the body of a method finds the references in it. -/
theorem collectMethod_went (hw : w.lambdas = []) (params : List Param) (body : Option Tree) :
    Went w (w.collectMethod params body) { references := w.env.bodyReferences params body } := by
  unfold collectMethod Env.bodyReferences
  cases body with
  | none => exact .refl w
  | some body =>
    dsimp only
    -- outside of lambdas the variables are those of the method
    have hvars : w.vars (w.env.variablesOf params body).locals = w.env.variablesOf params body := by
      unfold vars Env.variablesOf
      rw [hw]
    rw [collect_eq, hvars]
    exact went_refer w _

/-- Noting members at one spot finds them. -/
theorem recordAt_went (w : Walker) (q : Spot) (members : List FileMember) :
    Went w (w.recordMembers (members.map (·, q))) { members } := by
  have hrecord := went_recordMembers w (members.map (·, q))
  rw [List.map_map] at hrecord
  rwa [show members.map ((·.1) ∘ (·, q)) = members from List.map_id members] at hrecord

/-- The type parameters of a method or constructor are dropped behind it. -/
theorem visitCallable_went (hw : w.BetweenMembers) (list : Option Tree) (found : Found)
    (hname : t.field? "name" = none → found = {})
    (hfound : ∀ name, t.field? "name" = some name →
      let env := (w.setTypeParams (typeParameters w.file.source t)).env
      found.declarations = [] ∧ found.references =
        env.bodyReferences ((list.map env.parameters).getD []) (t.field? "body")) :
    Went w (w.visitCallable q t list found.members) found := by
  unfold visitCallable
  split
  · next hnone =>
    rw [hname hnone]
    exact .refl w
  · next name hsome =>
    obtain ⟨hnoTypes, hreferences⟩ := hfound name hsome
    dsimp only
    generalize hinside : w.setTypeParams (typeParameters w.file.source t) = inside
    have hrecord := recordAt_went inside q found.members
    have hcode := collectMethod_went (hrecord.lambdas.trans (hinside ▸ hw.lambdas))
      ((list.map inside.env.parameters).getD []) (t.field? "body")
    have hall := hrecord.trans hcode
    subst hinside
    refine ⟨hall.file, hall.types, hall.lambdas, hw.methodTypeParams.symm, hall.found.trans ?_⟩
    obtain ⟨ds, ms, rs⟩ := found
    subst hnoTypes hreferences
    exact congrArg (w.found ++ ·) (Found.members_append_references ms _)

/-- What a member is, for the walk and for what is recorded. -/
theorem visitMember_cases (w : Walker) (q : Spot) (index : Nat) (components : Option Tree)
    (t : Tree) :
    (w.visitMember q index components t = w.visitFields q index t ∧
      w.env.memberOf index components t = w.env.fieldMembers index t) ∨
    (w.visitMember q index components t =
        w.visitCallable q t (t.field? "parameters") (w.env.methodMember index t).members ∧
      w.env.memberOf index components t = w.env.methodMember index t) ∨
    (w.visitMember q index components t =
        w.visitCallable q t ((t.field? "parameters").orElse fun _ => components)
          (w.env.constructorMember index components t).members ∧
      w.env.memberOf index components t = w.env.constructorMember index components t) ∨
    (w.visitMember q index components t = w.visitEnumConstant q index t ∧
      w.env.memberOf index components t = w.env.enumConstant index t) ∨
    (w.visitMember q index components t = w.collectPart (some t) ∧
      w.env.memberOf index components t = { references := w.env.references {} [] t }) ∨
    (w.visitMember q index components t = w ∧ w.env.memberOf index components t = {}) := by
  unfold visitMember Env.memberOf
  -- both look at the kind only, in the same way
  generalize t.kind = kind
  split <;> simp_all

/-- Going through a member finds what it records, and comes back between members. -/
theorem visitMember_went (hw : w.BetweenMembers) :
    Went w (w.visitMember q index components t) (w.env.memberOf index components t) := by
  rcases visitMember_cases w q index components t with
    ⟨hv, hm⟩ | ⟨hv, hm⟩ | ⟨hv, hm⟩ | ⟨hv, hm⟩ | ⟨hv, hm⟩ | ⟨hv, hm⟩
  · rw [hv, hm]
    exact visitFields_went hw
  · -- a method, which is passed over without a name
    rw [hv, hm]
    apply visitCallable_went hw
    · intro hname
      unfold Env.methodMember
      rw [hname]
    · intro name hname
      unfold Env.methodMember
      rw [hname]
      exact ⟨rfl, rfl⟩
  · -- a constructor, likewise
    rw [hv, hm]
    apply visitCallable_went hw
    · intro hname
      unfold Env.constructorMember
      rw [hname]
    · intro name hname
      unfold Env.constructorMember
      rw [hname]
      exact ⟨rfl, rfl⟩
  · rw [hv, hm]
    exact visitEnumConstant_went hw
  · rw [hv, hm]
    exact collectPart_went hw (some t)
  · rw [hv, hm]
    exact .refl w

end Members

/-! ## Types are left as they were entered -/

section Types

variable {w : Walker} {q : Spot} {index : Nat} {components : Option Tree} {t : Tree}

/-- Popping a type undoes what pushing it did to the stacks. -/
theorem Went.popType {w' : Walker} {name : String} {more : Found}
    (h : Went (w.pushType q t name) w' more) :
    Went w w'.popType ({ declarations := [(w.env.openType t name).1] } ++ more) where
  file := h.file
  types := congrArg List.tail h.types
  lambdas := h.lambdas
  methodTypeParams := h.methodTypeParams
  found := by
    rw [← Found.append_assoc]
    refine h.found.trans (congrArg (· ++ more) ?_)
    simp only [Walker.found, pushType, Found.append_mk, List.map_append, List.map_cons,
      List.map_nil, List.append_nil]

/-- What a type records of itself. -/
theorem visitComponents_went (w : Walker) (q : Spot) (index : Nat) (t : Tree) :
    Went w (w.visitComponents q index t)
      { members :=
          if t.kind == "record_declaration" then
            ((t.field? "parameters").map (w.env.componentMembers index)).getD []
          else [] } := by
  unfold visitComponents
  cases t.kind == "record_declaration" with
  | false => exact .refl w
  | true =>
    cases t.field? "parameters" with
    | none => exact .refl w
    | some params => exact recordAt_went w _ _

/-- Going through one node of a body. -/
theorem visitMembers_singleton (w : Walker) (q : Spot) (i index : Nat) (components : Option Tree)
    (info : NodeInfo) (children : List Tree) :
    visitMembers q i index components [.node info children] w =
      if !info.named then w
      else if isTypeDeclaration info.kind then visitType (q ++ [i]) (.node info children) w
      else if info.kind == "enum_body_declarations" then
        visitMembers (q ++ [i]) 0 index none children w
      else w.visitMember (q ++ [i]) index components (.node info children) := by
  simp only [visitMembers]

/-- Nodes of a body are gone through one after the other. -/
theorem visitMembers_cons (w : Walker) (q : Spot) (i index : Nat) (components : Option Tree)
    (t : Tree) (rest : List Tree) :
    visitMembers q i index components (t :: rest) w =
      visitMembers q (i + 1) index components rest
        (visitMembers q i index components [t] w) := by
  cases t with
  | node info children => simp only [visitMembers]

mutual

/-- Going through a type finds all that is in it and leaves the stacks as they were. -/
theorem visitType_went (q : Spot) : ∀ (t : Tree) (w : Walker), w.BetweenMembers →
    Went w (visitType q t w) (w.env.typeSymbols w.declarations.length t)
  | .node info children, w, hw => by
    unfold visitType Env.typeSymbols
    cases hname : (Tree.node info children).field? "name" with
    | none =>
      simp only [hname]
      exact .refl w
    | some name =>
      simp only [hname]
      -- the declaration, then the components of a record, then the body
      have hcomponents := visitComponents_went
        (w.pushType q (.node info children) (name.text w.file.source)) q
        w.declarations.length (.node info children)
      have hbetween := hcomponents.between ⟨hw.lambdas, hw.methodTypeParams⟩
      have hlength := hcomponents.length
      have hbody := visitBody_went q 0 w.declarations.length
        ((Tree.node info children).field? "parameters") children _ hbetween
        (hlength.trans (by simp [pushType]))
      rw [hcomponents.env] at hbody
      have hall := (hcomponents.trans hbody).popType
      rw [← Found.append_assoc] at hall
      exact hall

/-- Going through the body of a type finds all that is in it. -/
theorem visitBody_went (q : Spot) (i index : Nat) (components : Option Tree) :
    ∀ (ts : List Tree) (w : Walker), w.BetweenMembers → w.declarations.length = index + 1 →
      Went w (visitBody q i index components ts w) (w.env.bodySymbols index components ts)
  | [], w, _, _ => by
    unfold visitBody Env.bodySymbols
    exact .refl w
  | .node info children :: rest, w, hw, hindex => by
    unfold visitBody Env.bodySymbols
    split
    · rw [← hindex]
      exact visitMembers_went (q ++ [i]) 0 index components children w hw
    · exact visitBody_went q (i + 1) index components rest w hw hindex

/-- Going through the nodes of a body finds all that is in them. -/
theorem visitMembers_went (q : Spot) (i index : Nat) (components : Option Tree) :
    ∀ (ts : List Tree) (w : Walker), w.BetweenMembers →
      Went w (visitMembers q i index components ts w)
        (w.env.memberSymbols index components w.declarations.length ts)
  | [], w, _ => by
    unfold visitMembers Env.memberSymbols
    exact .refl w
  | .node info children :: rest, w, hw => by
    unfold visitMembers Env.memberSymbols
    dsimp only
    generalize hhere : (if (!info.named) = true then w
      else if isTypeDeclaration info.kind = true then visitType (q ++ [i]) (.node info children) w
      else if (info.kind == "enum_body_declarations") = true then
        visitMembers (q ++ [i]) 0 index none children w
      else w.visitMember (q ++ [i]) index components (.node info children)) = w'
    generalize hfound : (if (!info.named) = true then ({} : Found)
      else if isTypeDeclaration info.kind = true then
        w.env.typeSymbols w.declarations.length (.node info children)
      else if (info.kind == "enum_body_declarations") = true then
        w.env.memberSymbols index none w.declarations.length children
      else w.env.memberOf index components (.node info children)) = found
    -- this node first: the rest is numbered behind what is found in it
    have hnode : Went w w' found := by
      rw [← hhere, ← hfound]
      split
      · exact .refl w
      split
      · exact visitType_went (q ++ [i]) (.node info children) w hw
      split
      · exact visitMembers_went (q ++ [i]) 0 index none children w hw
      · exact visitMember_went hw
    have hrest := visitMembers_went q (i + 1) index components rest w' (hnode.between hw)
    rw [hnode.env, hnode.length] at hrest
    exact hnode.trans hrest

end

/-- Going through the types of a file finds all that is in them. -/
theorem visitTop_went (i : Nat) (ts : List Tree) (hw : w.BetweenMembers) :
    Went w (visitTop i ts w) (w.env.topSymbols w.declarations.length ts) := by
  induction ts generalizing i w with
  | nil => exact .refl w
  | cons t rest ih =>
    unfold visitTop Env.topSymbols
    have hnode : Went w (if t.declaresType then visitType [i] t w else w)
        (if t.info.named && isTypeDeclaration t.kind then
          w.env.typeSymbols w.declarations.length t else {}) := by
      unfold Tree.declaresType
      split
      · exact visitType_went [i] t w hw
      · exact .refl w
    have hrest := ih (i + 1) (hnode.between hw)
    rw [hnode.env, hnode.length] at hrest
    exact hnode.trans hrest

end Types

/-! ## The end of a file -/

/-- What a walk has found, as the symbols of its file. -/
def symbols (w : Walker) : FileSymbols :=
  { package := w.file.package
    imports := w.file.imports
    declarations := w.declarations.map (·.1)
    members := w.members.map (·.1)
    references := w.references }

/-- The declarations of the file are those that were noted, without the places where they stand. -/
theorem declaration_symbols_iff {w : Walker} {i : Nat} {d : FileDeclaration} :
    w.symbols.declarations[i]? = some d ↔ ∃ x, w.declarations[i]? = some x ∧ x.1 = d := by
  simp [symbols]

section Walked

variable (source : String) (root : Tree)

/-- Going through a file finds all that is in it. -/
theorem walked_went :
    Went { file := FileNames.ofTree source root } (walked source root)
      (Env.topSymbols { file := FileNames.ofTree source root } 0 root.children) :=
  visitTop_went 0 root.children ⟨rfl, rfl⟩

/-- What has been found at the end of a file is what is extracted from it. -/
theorem walked_symbols : (walked source root).symbols = extract source root := by
  have hwent := walked_went source root
  unfold symbols extract
  dsimp only
  rw [hwent.file]
  have hfound : (walked source root).found =
      Env.topSymbols { file := FileNames.ofTree source root } 0 root.children := hwent.found
  rw [← hfound]
  rfl

/-- At the end of a file every type and every lambda has been left. -/
theorem walked_stacks : (walked source root).types = [] ∧ (walked source root).lambdas = [] ∧
    (walked source root).methodTypeParams = [] :=
  ⟨(walked_went source root).types, (walked_went source root).lambdas,
    (walked_went source root).methodTypeParams⟩

end Walked

end Walker

end JavaAtlas.Java
