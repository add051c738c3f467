import JavaAtlas.Java.Diagnostics
import JavaAtlas.Proofs.Index.Enclosing
import JavaAtlas.Proofs.Java.Presentable
import JavaAtlas.Proofs.Java.WrittenType

namespace JavaAtlas.Java

/-! # Members that are declared twice

An error is reported for a member if one in front of it has the same key: the declaration both
belong to, whether they are fields, and a text made of the name and the types of the parameters,
each without its type arguments and the packages of its names.

* `mem_repeated_iff`: what is found twice by its key, by induction over the members;
* `memberSignature_eq_iff`: equal texts come from equal names and equal lists of types;
* `mem_duplicateMembers_iff`: the errors, by the keys of the members;
* `duplicateMembers_namesakes`: the errors, by the names and types.
-/

/-! ## Keys that occur twice -/

section Repeated

variable {e m : FileMember} {ms : List FileMember} {seen : List (Nat × Bool × String)}

/-- Two members stand one in front of the other in a list that has one more at its front. -/
theorem pair_sublist_cons {a : FileMember} :
    [e, m].Sublist (a :: ms) ↔ [e, m].Sublist ms ∨ e = a ∧ m ∈ ms := by
  rw [List.sublist_cons_iff]
  refine or_congr_right ⟨?_, ?_⟩
  · rintro ⟨rest, hcons, hrest⟩
    obtain ⟨rfl, rfl⟩ := List.cons_eq_cons.1 hcons
    exact ⟨rfl, List.singleton_sublist.1 hrest⟩
  · rintro ⟨rfl, hm⟩
    exact ⟨[m], rfl, List.singleton_sublist.2 hm⟩

/-- A member is found if its key has been seen before or is that of one in front of it. -/
theorem mem_repeated_iff : m ∈ repeated seen ms ↔
    (m ∈ ms ∧ memberKey m ∈ seen) ∨ ∃ e, [e, m].Sublist ms ∧ memberKey e = memberKey m := by
  -- On the members, with the keys seen before. A key comes again if it was seen or if an
  -- earlier member has it.
  induction ms generalizing seen with
  | nil => simp [repeated]
  | cons a ms ih =>
    simp only [pair_sublist_cons, repeated]
    by_cases hseen : memberKey a ∈ seen
    · rw [if_pos (List.contains_iff_mem.2 hseen), List.mem_cons, ih]
      constructor
      · rintro (rfl | ⟨hm, hkey⟩ | ⟨e, he, hkey⟩)
        · exact .inl ⟨List.mem_cons_self, hseen⟩
        · exact .inl ⟨List.mem_cons_of_mem a hm, hkey⟩
        · exact .inr ⟨e, .inl he, hkey⟩
      · rintro (⟨hm, hkey⟩ | ⟨e, he | ⟨rfl, hm⟩, hkey⟩)
        · rcases List.mem_cons.1 hm with rfl | hm
          · exact .inl rfl
          · exact .inr (.inl ⟨hm, hkey⟩)
        · exact .inr (.inr ⟨e, he, hkey⟩)
        · -- the key of the first one has been seen, so that of this one has
          exact .inr (.inl ⟨hm, hkey ▸ hseen⟩)
    · rw [if_neg fun hcontains => hseen (List.contains_iff_mem.1 hcontains), ih]
      constructor
      · rintro (⟨hm, hkey⟩ | ⟨e, he, hkey⟩)
        · rcases List.mem_cons.1 hkey with hkey | hkey
          · exact .inr ⟨a, .inr ⟨rfl, hm⟩, hkey.symm⟩
          · exact .inl ⟨List.mem_cons_of_mem a hm, hkey⟩
        · exact .inr ⟨e, .inl he, hkey⟩
      · rintro (⟨hm, hkey⟩ | ⟨e, he | ⟨rfl, hm⟩, hkey⟩)
        · rcases List.mem_cons.1 hm with rfl | hm
          · exact absurd hkey hseen
          · exact .inl ⟨hm, List.mem_cons_of_mem _ hkey⟩
        · exact .inr ⟨e, he, hkey⟩
        · exact .inl ⟨hm, hkey ▸ List.mem_cons_self⟩

end Repeated

/-- The errors are those of the members that have one of the same key in front of them. -/
theorem mem_duplicateMembers_iff {source : String} {symbols : FileSymbols} {k : Marker} :
    k ∈ duplicateMembers source symbols ↔
      ∃ e m owner, [e, m].Sublist symbols.members ∧ memberKey e = memberKey m ∧
        symbols.declarations[m.declIndex]? = some owner ∧ k = duplicateMarker source owner m := by
  -- Members without a declaration are left out beforehand. One with the key of another that has
  -- one has it too.
  have hpair : ∀ {e m : FileMember} {owner : FileDeclaration},
      symbols.declarations[m.declIndex]? = some owner → memberKey e = memberKey m →
        ([e, m].Sublist
          (symbols.members.filter fun m => m.declIndex < symbols.declarations.length) ↔
          [e, m].Sublist symbols.members) := by
    intro e m owner howner hkey
    have hm : m.declIndex < symbols.declarations.length := (List.getElem?_eq_some_iff.1 howner).1
    have he : e.declIndex = m.declIndex := congrArg (·.1) hkey
    constructor
    · intro h
      exact h.trans List.filter_sublist
    · intro h
      have hfilter := h.filter fun m => m.declIndex < symbols.declarations.length
      rwa [List.filter_eq_self.2 (by simp [he, hm])] at hfilter
  unfold duplicateMembers
  simp only [List.mem_filterMap, mem_repeated_iff, List.not_mem_nil, and_false, false_or,
    Option.map_eq_some_iff]
  constructor
  · rintro ⟨m, ⟨e, hsublist, hkey⟩, owner, howner, rfl⟩
    exact ⟨e, m, owner, (hpair howner hkey).1 hsublist, hkey, howner, rfl⟩
  · rintro ⟨e, m, owner, hsublist, hkey, howner, rfl⟩
    exact ⟨m, ⟨e, (hpair howner hkey).2 hsublist, hkey⟩, owner, howner, rfl⟩

/-! ## What is in a key -/

/-- A type without its type arguments and the packages of its names. -/
def TypeText.erased (t : TypeText) : List Char := withoutTypeArgs 0 t.simple.chars

/-- One type that is read as it should be: something is left without its type arguments, and no
comma is. -/
structure TypeText.Single (t : TypeText) : Prop where
  legal : t.Legal
  read : ¬ t.Misread
  left : t.erased ≠ []
  commas : ',' ∉ t.erased

/-- The types written for the parameters of a member. -/
def TakesTypes (m : FileMember) (ts : List TypeText) : Prop :=
  List.Forall₂ (fun p t => p.type.text = t.text ∧ t.Single) m.params ts

/-- Members that must not both be in a declaration: fields of one name, or methods and constructors
of one name whose parameters have types that are the same without their type arguments and the
packages of their names. -/
inductive Namesakes (e m : FileMember) : Prop where
  | fields (he : e.kind = .field) (hm : m.kind = .field) (hname : e.name = m.name)
  | callables (he : e.kind ≠ .field) (hm : m.kind ≠ .field) (hname : e.name = m.name)
      (htypes : ∀ ts us, TakesTypes e ts → TakesTypes m us →
        ts.map (·.erased) = us.map (·.erased))

section Signatures

variable {e m : FileMember} {ts us : List TypeText} {xs ys : List (List Char)}

/-- Parts that are not empty and hold no comma can be told from the text with commas between
them. -/
theorem intercalate_comma_inj (hxs : ∀ x ∈ xs, x ≠ [] ∧ ',' ∉ x) (hys : ∀ y ∈ ys, y ≠ [] ∧ ',' ∉ y)
    (h : [','].intercalate xs = [','].intercalate ys) : xs = ys := by
  -- An empty text is joined from nothing, since no part is empty.
  have hempty : ∀ {zs : List (List Char)}, (∀ z ∈ zs, z ≠ [] ∧ ',' ∉ z) →
      [','].intercalate zs = [] → zs = [] := by
    intro zs hzs hnil
    by_contra hne
    have hsplit := List.splitOn_intercalate ',' (fun z hz => (hzs z hz).2) hne
    rw [hnil, List.splitOn_nil] at hsplit
    exact (hzs [] (hsplit ▸ List.mem_singleton.2 rfl)).1 rfl
  by_cases hx : xs = []
  · rw [hx] at h ⊢
    exact (hempty hys h.symm).symm
  · by_cases hy : ys = []
    · rw [hy] at h
      exact absurd (hempty hxs h) hx
    · rw [← List.splitOn_intercalate ',' (fun x hx => (hxs x hx).2) hx, h,
        List.splitOn_intercalate ',' (fun y hy => (hys y hy).2) hy]

/-- What stands in front of the first parenthesis, and what stands behind it. -/
theorem append_parenthesis_inj {a b x y : List Char} (ha : '(' ∉ a) (hb : '(' ∉ b)
    (h : a ++ '(' :: x = b ++ '(' :: y) : a = b ∧ x = y := by
  -- The name is read back as what stands before the first parenthesis.
  have hfront : ∀ {c z : List Char}, '(' ∉ c → (c ++ '(' :: z).takeWhile (· != '(') = c := by
    intro c z hc
    rw [List.takeWhile_append_of_pos]
    · simp
    · intro d hd
      exact bne_iff_ne.2 fun heq => hc (heq ▸ hd)
  have hab : a = b := by
    rw [← hfront ha, h, hfront hb]
  rw [hab] at h
  exact ⟨hab, (List.cons_eq_cons.1 (List.append_cancel_left h)).2⟩

/-- The types of the parameters as they stand in the key of a member. -/
def erasedParams (m : FileMember) : List (List Char) :=
  m.params.map fun p => withoutTypeArgs 0 (presentableType p.type.text).toList

/-- The signature of a field is its name. -/
theorem memberSignature_field (h : m.kind = .field) : memberSignature m = m.name := by
  unfold memberSignature
  rw [h]

/-- The signature of a method is its name and the types of its parameters in parentheses. -/
theorem toList_memberSignature (h : m.kind ≠ .field) : (memberSignature m).toList =
    m.name.toList ++ '(' :: ([','].intercalate (erasedParams m) ++ [')']) := by
  have hsignature : memberSignature m =
      m.name ++ "(" ++ ",".intercalate ((erasedParams m).map String.ofList) ++ ")" := by
    unfold memberSignature erasedParams
    rw [List.map_map]
    cases hkind : m.kind with
    | field => exact absurd hkind h
    | method => rfl
    | constructor => rfl
  rw [hsignature]
  simp [Function.comp_def]

/-- Members have one key exactly if they are of one type, both fields or both not, with one
signature. -/
theorem memberKey_eq_iff : memberKey e = memberKey m ↔
    e.declIndex = m.declIndex ∧ (e.kind = .field ↔ m.kind = .field) ∧
      memberSignature e = memberSignature m := by
  simp only [memberKey, Prod.mk.injEq, beq_eq_beq]

/-- The parameters are erased one by one. -/
theorem TakesTypes.erasedParams (h : TakesTypes m ts) :
    erasedParams m = ts.map (·.erased) := by
  unfold Java.erasedParams
  unfold TakesTypes at h
  generalize m.params = ps at h
  induction h with
  | nil => rfl
  | cons hp _ ih =>
    obtain ⟨htext, hsingle⟩ := hp
    have hleft := (left_eq_simple_iff hsingle.legal).2 hsingle.read
    simp [ih, htext, presentableType_text, hleft, TypeText.erased]

/-- No erased parameter is empty or has a comma, so the list of them can be read back. -/
theorem TakesTypes.single (h : TakesTypes m ts) :
    ∀ x ∈ ts.map (·.erased), x ≠ [] ∧ ',' ∉ x := by
  intro x hx
  obtain ⟨t, ht, rfl⟩ := List.mem_map.1 hx
  obtain ⟨i, hi, rfl⟩ := List.getElem_of_mem ht
  have hsingle := (h.get (by rw [h.length_eq]; exact hi) hi).2
  exact ⟨hsingle.left, hsingle.commas⟩

/-- Of methods and constructors with equal texts the names are equal, and the lists of types are. -/
theorem memberSignature_eq_iff (he : e.kind ≠ .field) (hm : m.kind ≠ .field)
    (hename : '(' ∉ e.name.toList) (hmname : '(' ∉ m.name.toList) :
    memberSignature e = memberSignature m ↔
      e.name = m.name ∧
        [','].intercalate (erasedParams e) = [','].intercalate (erasedParams m) := by
  rw [← String.toList_inj, toList_memberSignature he, toList_memberSignature hm]
  constructor
  · intro h
    obtain ⟨hname, hparams⟩ := append_parenthesis_inj hename hmname h
    exact ⟨String.toList_inj.1 hname, List.append_cancel_right hparams⟩
  · rintro ⟨hname, hparams⟩
    rw [hname, hparams]

/-- Equal signatures are of members with equal names and erased parameters. -/
theorem namesakes_of_signature (hkind : e.kind = .field ↔ m.kind = .field)
    (hename : '(' ∉ e.name.toList) (hmname : '(' ∉ m.name.toList)
    (h : memberSignature e = memberSignature m) : Namesakes e m := by
  by_cases he : e.kind = .field
  · have hm : m.kind = .field := hkind.1 he
    rw [memberSignature_field he, memberSignature_field hm] at h
    exact .fields he hm h
  · have hm : m.kind ≠ .field := fun hm => he (hkind.2 hm)
    -- The lists can be compared since both can be read back from their texts.
    obtain ⟨hname, hparams⟩ := (memberSignature_eq_iff he hm hename hmname).1 h
    refine .callables he hm hname fun ts us hts hus => ?_
    rw [hts.erasedParams, hus.erasedParams] at hparams
    exact intercalate_comma_inj hts.single hus.single hparams

/-- Members with equal names and erased parameters have equal signatures. -/
theorem Namesakes.signature (h : Namesakes e m) (hename : '(' ∉ e.name.toList)
    (hmname : '(' ∉ m.name.toList)
    (htyped : m.kind ≠ .field → (∃ ts, TakesTypes e ts) ∧ ∃ us, TakesTypes m us) :
    (e.kind = .field ↔ m.kind = .field) ∧ memberSignature e = memberSignature m := by
  cases h with
  | fields he hm hname =>
    rw [memberSignature_field he, memberSignature_field hm]
    exact ⟨iff_of_true he hm, hname⟩
  | callables he hm hname htypes =>
    obtain ⟨⟨ts, hts⟩, us, hus⟩ := htyped hm
    have hparams : Java.erasedParams e = Java.erasedParams m := by
      rw [hts.erasedParams, hus.erasedParams, htypes ts us hts hus]
    refine ⟨iff_of_false he hm, (memberSignature_eq_iff he hm hename hmname).2 ⟨hname, ?_⟩⟩
    rw [hparams]

end Signatures

/-! ## The errors -/

/-- Every error is that of a member for which there is a namesake in front of it in the same
declaration, and every member for which there is one has its error, if the types of the parameters
are read as they should be. -/
theorem duplicateMembers_namesakes (source : String) (symbols : FileSymbols)
    (hnames : ∀ m ∈ symbols.members, '(' ∉ m.name.toList) :
    (∀ k ∈ duplicateMembers source symbols, ∃ e m owner,
      k = duplicateMarker source owner m ∧ symbols.declarations[m.declIndex]? = some owner ∧
        [e, m].Sublist symbols.members ∧ e.declIndex = m.declIndex ∧ Namesakes e m) ∧
    ∀ e m owner, symbols.declarations[m.declIndex]? = some owner → [e, m].Sublist symbols.members →
      e.declIndex = m.declIndex → Namesakes e m →
      (m.kind ≠ .field → (∃ ts, TakesTypes e ts) ∧ ∃ us, TakesTypes m us) →
        duplicateMarker source owner m ∈ duplicateMembers source symbols := by
  have hpair : ∀ {e m : FileMember}, [e, m].Sublist symbols.members →
      '(' ∉ e.name.toList ∧ '(' ∉ m.name.toList := by
    intro e m hsublist
    have he : e ∈ symbols.members := hsublist.subset (by simp)
    have hm : m ∈ symbols.members := hsublist.subset (by simp)
    exact ⟨hnames e he, hnames m hm⟩
  constructor
  · intro k hk
    obtain ⟨e, m, owner, hsublist, hkey, howner, rfl⟩ := mem_duplicateMembers_iff.1 hk
    obtain ⟨hindex, hkind, hsignature⟩ := memberKey_eq_iff.1 hkey
    obtain ⟨hename, hmname⟩ := hpair hsublist
    exact ⟨e, m, owner, rfl, howner, hsublist, hindex,
      namesakes_of_signature hkind hename hmname hsignature⟩
  · intro e m owner howner hsublist hindex hnamesakes htyped
    obtain ⟨hename, hmname⟩ := hpair hsublist
    obtain ⟨hkind, hsignature⟩ := hnamesakes.signature hename hmname htyped
    have hkey : memberKey e = memberKey m := memberKey_eq_iff.2 ⟨hindex, hkind, hsignature⟩
    exact mem_duplicateMembers_iff.2 ⟨e, m, owner, hsublist, hkey, howner, rfl⟩

/-! A class with two fields of one name and two methods that take lists. -/

/-- A field `size`. -/
def sizeField : FileMember :=
  { declIndex := 0
    kind := .field
    name := "size" }

/-- A method `put` with one parameter. -/
def putMember (type : String) : FileMember :=
  { declIndex := 0
    kind := .method
    name := "put"
    params := [{ name := "a", type := { text := type } }] }

/-- The type `java.util.List` with a type argument. -/
def listOfText (argument : String) : TypeText :=
  { pieces :=
      [.name { qualifiers := [{ name := "java" }, { name := "util" }], last := "List" }, .mark '<',
        .name { last := argument }, .mark '>'] }

/-- The class. -/
def twiceSymbols : FileSymbols :=
  { declarations := [{ qualname := "Dup", name := "Dup" }]
    members :=
      [sizeField, sizeField, putMember "java.util.List<String>",
        putMember "java.util.List<Integer>"] }

/-- The types of the two lists. -/
def stringListText : TypeText := listOfText "String"

@[inherit_doc stringListText]
def integerListText : TypeText := listOfText "Integer"

/-- The first list is one type. -/
theorem single_stringListText : stringListText.Single where
  legal :=
    ⟨⟨by decide, by decide⟩, tight_of_forall (by decide) (by decide)⟩
  read := by decide
  left := by decide
  commas := by decide

/-- The second list is one type. -/
theorem single_integerListText : integerListText.Single where
  legal :=
    ⟨⟨by decide, by decide⟩, tight_of_forall (by decide) (by decide)⟩
  read := by decide
  left := by decide
  commas := by decide

/-- Two methods that differ in the arguments of a list only are reported. -/
theorem duplicateMembers_namesakes_lists :
    (∀ m ∈ twiceSymbols.members, '(' ∉ m.name.toList) ∧
    (∀ k ∈ duplicateMembers "" twiceSymbols, ∃ e m owner,
      k = duplicateMarker "" owner m ∧ [e, m].Sublist twiceSymbols.members ∧ Namesakes e m) ∧
    ∃ k ∈ duplicateMembers "" twiceSymbols,
      k.message = "method put(List) is already defined in class Dup" := by
  have hnames : ∀ m ∈ twiceSymbols.members, '(' ∉ m.name.toList := by decide
  obtain ⟨hsound, hcomplete⟩ := duplicateMembers_namesakes "" twiceSymbols hnames
  refine ⟨hnames, ?_, ?_⟩
  · intro k hk
    obtain ⟨e, m, owner, hmarker, -, hsublist, -, hnamesakes⟩ := hsound k hk
    exact ⟨e, m, owner, hmarker, hsublist, hnamesakes⟩
  · have hstrings : TakesTypes (putMember "java.util.List<String>") [stringListText] :=
      .cons ⟨rfl, single_stringListText⟩ .nil
    have hintegers : TakesTypes (putMember "java.util.List<Integer>") [integerListText] :=
      .cons ⟨rfl, single_integerListText⟩ .nil
    have herased : erasedParams (putMember "java.util.List<String>") =
        erasedParams (putMember "java.util.List<Integer>") :=
      hstrings.erasedParams.trans hintegers.erasedParams.symm
    have hnamesakes : Namesakes (putMember "java.util.List<String>")
        (putMember "java.util.List<Integer>") :=
      .callables (by decide) (by decide) rfl fun ts us hts hus =>
        hts.erasedParams.symm.trans (herased.trans hus.erasedParams)
    have hfront : [putMember "java.util.List<String>", putMember "java.util.List<Integer>"].Sublist
        twiceSymbols.members := by decide
    have hmarked := hcomplete _ _ { qualname := "Dup", name := "Dup" } rfl hfront rfl hnamesakes
      fun _ => ⟨⟨_, hstrings⟩, _, hintegers⟩
    exact ⟨_, hmarked, by decide⟩

/-! A class with a constructor and a method of one name, and with two methods that take types of one
name from two packages. -/

/-- The text of the class. -/
def overloadSource : String := "class A{A(){}void A(){}void m(p.L a){}void m(q.L b){}}"

/-- A parameter whose type is a name in a package. -/
def paramNode (startByte : Nat) : Tree :=
  namedNode "formal_parameter" startByte (startByte + 5) none
    [namedNode "scoped_type_identifier" startByte (startByte + 3) (some "type"),
      namedNode "identifier" (startByte + 4) (startByte + 5) (some "name")]

/-- A method without a body's statements, whose name is one letter. -/
def voidMethodNode (startByte endByte : Nat) (params : List Tree) : Tree :=
  namedNode "method_declaration" startByte endByte none
    [namedNode "void_type" startByte (startByte + 4) (some "type"),
      namedNode "identifier" (startByte + 5) (startByte + 6) (some "name"),
      namedNode "formal_parameters" (startByte + 6) (endByte - 2) (some "parameters") params,
      namedNode "block" (endByte - 2) endByte (some "body")]

/-- Its tree, less the tokens that are not named. -/
def overloadTree : Tree :=
  namedNode "program" 0 54 none
    [namedNode "class_declaration" 0 54 none
      [namedNode "identifier" 6 7 (some "name"),
        namedNode "class_body" 7 54 (some "body")
          [namedNode "constructor_declaration" 8 13 none
            [namedNode "identifier" 8 9 (some "name"),
              namedNode "formal_parameters" 9 11 (some "parameters"),
              namedNode "constructor_body" 11 13 (some "body")],
            voidMethodNode 13 23 [],
            voidMethodNode 23 38 [paramNode 30],
            voidMethodNode 38 53 [paramNode 45]]]]

/-- The names in the class. -/
def overloadEnv : Env :=
  (Env.openType { file := FileNames.ofTree overloadSource overloadTree }
    overloadTree.children.head! "A").2

/-- The type that a parameter is declared with, without its type arguments, and as an array if it
takes any number of arguments. -/
def declaredType (p : Param) : Option String :=
  p.type.resolved.map fun type =>
    let erased := String.ofList (withoutTypeArgs 0 type.toList)
    if p.varargs then (erased.dropSuffix "...").toString ++ "[]" else erased

/-- What tells a member from the others of its file: its declaration, its kind, its name, and if it
is not a field, the types declared for its parameters. -/
def declared (m : FileMember) : Nat × MemberKind × String × List (Option String) :=
  (m.declIndex, m.kind, m.name, if m.kind = .field then [] else m.params.map declaredType)

/-- The members can be told from each other, and there are two errors. -/
theorem overloads_told_twice :
    let symbols := extract overloadSource overloadTree
    symbols.members.map declared =
        [(0, .constructor, "A", []), (0, .method, "A", []), (0, .method, "m", [some "p.L"]),
          (0, .method, "m", [some "q.L"])] ∧
      (symbols.members.map declared).Nodup ∧
      (duplicateMembers overloadSource symbols).map (·.message) =
        ["method A() is already defined in class A",
          "method m(L) is already defined in class A"] := by
  -- Evaluated as they stand, the two types do not get past the match on their kind.
  have htypes : ∀ startByte, overloadEnv.canonical
      (namedNode "scoped_type_identifier" startByte (startByte + 3) (some "type")) =
        overloadEnv.resolveDotted (Env.dropSpaces
          (squeeze (slice overloadSource startByte (startByte + 3)))) := fun _ =>
    canonical_dotted rfl
  have hmembers : (extract overloadSource overloadTree).members.map declared =
      [(0, .constructor, "A", []), (0, .method, "A", []), (0, .method, "m", [some "p.L"]),
        (0, .method, "m", [some "q.L"])] := by
    have hlist : (extract overloadSource overloadTree).members.map declared =
        [(0, .constructor, "A", []), (0, .method, "A", []),
          (0, .method, "m", [(overloadEnv.canonical
            (namedNode "scoped_type_identifier" 30 33 (some "type"))).map fun type =>
              String.ofList (withoutTypeArgs 0 type.toList)]),
          (0, .method, "m", [(overloadEnv.canonical
            (namedNode "scoped_type_identifier" 45 48 (some "type"))).map fun type =>
              String.ofList (withoutTypeArgs 0 type.toList)])] := by
      rfl
    rw [hlist, htypes 30, htypes 45]
    decide +kernel
  refine ⟨hmembers, ?_, by decide +kernel⟩
  rw [hmembers]
  decide

end JavaAtlas.Java
