import JavaAtlas.Proofs.ClassFile.Descriptor
import JavaAtlas.Proofs.ClassFile.Reading

namespace JavaAtlas.ClassFile

/-! # Reading attributes

Annotations are read as the names of their types, with everything in them passed over. Attributes
are taken in one after the other; as no known one stands twice, their order does not matter for
what they say.

* `reads_skipElementValue`, `reads_annotationNames`: annotations;
* `reads_attributes`, `foldl_attributes_said`: attributes in any order, those that mean nothing
  included;
* `reads_memberAttributes`, `reads_classAttributes`: what they say about their owner.
-/

/-! ## Annotations -/

section Annotations

open ElementValue

/-- The bytes of a named value. -/
def elementBytes (e : UInt16 × ElementValue) : List UInt8 :=
  numberBytes 2 e.1.toNat ++ encode e.2

/-- Named values are written one after the other. -/
theorem encodeElements_eq_flatMap (elements : List (UInt16 × ElementValue)) :
    encodeElements elements = elements.flatMap elementBytes := by
  induction elements with
  | nil => rfl
  | cons e elements ih => rw [encodeElements, ih, List.flatMap_cons, elementBytes]

/-- Values are written one after the other. -/
theorem encodeValues_eq_flatMap (values : List ElementValue) :
    encodeValues values = values.flatMap encode := by
  induction values with
  | nil => rfl
  | cons v values ih => rw [encodeValues, ih, List.flatMap_cons]

/-- An annotation in an annotation is a letter, its type, and its counted elements. -/
theorem encode_nested (typeIndex : UInt16) (elements : List (UInt16 × ElementValue)) :
    (ElementValue.nested typeIndex elements).encode =
      [letterByte '@'] ++ (numberBytes 2 typeIndex.toNat ++ countedBytes elementBytes elements) := by
  rw [encode, encodeElements_eq_flatMap]
  rfl

/-- An array is a letter and its counted values. -/
theorem encode_array (values : List ElementValue) :
    (ElementValue.array values).encode = [letterByte '['] ++ countedBytes encode values := by
  rw [encode, encodeValues_eq_flatMap]
  rfl

/-- Of things written one after the other, none takes more bytes than all. -/
theorem length_le_length_flatMap {α : Type} {f : α → List UInt8} {xs : List α} {x : α}
    (hx : x ∈ xs) : (f x).length ≤ (xs.flatMap f).length := by
  rw [List.flatMap_def]
  exact (List.sublist_flatten_of_mem (List.mem_map_of_mem hx)).length_le

/-- Named values are passed over if the values are. -/
theorem reads_elements {elements : List (UInt16 × ElementValue)} {fuel : Nat}
    (hcount : elements.length < 2 ^ 16)
    (h : ∀ e ∈ elements, Reads (skipElementValue fuel) (encode e.2) ()) :
    Reads (counted (do skip 2; skipElementValue fuel)) (countedBytes elementBytes elements)
      (elements.map fun _ => ()) :=
  reads_counted hcount fun e he => (reads_skip_index _).bind (h e he)

/-- A value takes no more bytes than the elements that it is one of. -/
theorem length_encode_le {elements : List (UInt16 × ElementValue)} {e : UInt16 × ElementValue}
    (he : e ∈ elements) : (encode e.2).length ≤ (elements.flatMap elementBytes).length := by
  have hle : (elementBytes e).length ≤ (elements.flatMap elementBytes).length :=
    length_le_length_flatMap he
  rw [elementBytes, List.length_append] at hle
  omega

/-- A value of an element is passed over, with all that is nested in it. Every level of nesting
takes a byte, so that the bytes bound the depth. -/
theorem reads_skipElementValue {v : ElementValue} (h : v.Fits) {fuel : Nat}
    (hfuel : v.encode.length ≤ fuel) : Reads (skipElementValue fuel) v.encode () := by
  induction h generalizing fuel with
  | constant kind index =>
    obtain ⟨fuel, rfl⟩ : ∃ k, fuel = k + 1 := ⟨fuel - 1, by simp [encode] at hfuel; omega⟩
    cases kind with
    | primitive p => cases p <;> exact (reads_tag _).bind (reads_skip_index _)
    | string => exact (reads_tag _).bind (reads_skip_index _)
    | classInfo => exact (reads_tag _).bind (reads_skip_index _)
  | enumConstant typeIndex nameIndex =>
    obtain ⟨fuel, rfl⟩ : ∃ k, fuel = k + 1 := ⟨fuel - 1, by simp [encode] at hfuel; omega⟩
    exact (reads_tag _).bind (reads_skip (by simp))
  | nested typeIndex count all ih =>
    rename_i elements
    rw [encode_nested] at hfuel ⊢
    simp only [List.length_append, List.length_singleton, length_numberBytes, countedBytes] at hfuel
    obtain ⟨fuel, rfl⟩ : ∃ k, fuel = k + 1 := ⟨fuel - 1, by omega⟩
    have hnested : Reads (counted (do skip 2; skipElementValue fuel))
        (countedBytes elementBytes elements) (elements.map fun _ => ()) := by
      refine reads_elements count ?_
      intro e he
      -- the tag in front pays for one level of nesting
      have hle := length_encode_le he
      exact ih e he (by omega)
    exact (reads_tag _).bind ((reads_skip_index _).bind (hnested.bind_last (.pure ())))
  | array count all ih =>
    -- as for the elements of an annotation, without their names
    rename_i values
    rw [encode_array] at hfuel ⊢
    simp only [List.length_append, List.length_singleton, length_numberBytes, countedBytes] at hfuel
    obtain ⟨fuel, rfl⟩ : ∃ k, fuel = k + 1 := ⟨fuel - 1, by omega⟩
    have hnested : Reads (counted (skipElementValue fuel)) (countedBytes encode values)
        (values.map fun _ => ()) := by
      refine reads_counted count ?_
      intro v hv
      have hle : (encode v).length ≤ (values.flatMap encode).length :=
        length_le_length_flatMap hv
      exact ih v hv (by omega)
    exact (reads_tag _).bind (hnested.bind_last (.pure ()))

/-- The elements of an annotation are passed over, whatever stands behind them. -/
theorem reads_skipElements {elements : List (UInt16 × ElementValue)}
    (hcount : elements.length < 2 ^ 16) (h : ∀ e ∈ elements, e.2.Fits) :
    Reads skipElements (numberBytes 2 elements.length ++ encodeElements elements) () := by
  intro rest
  rw [encodeElements_eq_flatMap]
  -- the depth is bounded by all bytes that are left, those behind the elements included
  generalize hall : numberBytes 2 elements.length ++ elements.flatMap elementBytes ++ rest = all
  have helements : Reads (counted (do skip 2; skipElementValue (all.length + 1)))
      (countedBytes elementBytes elements) (elements.map fun _ => ()) := by
    refine reads_elements hcount ?_
    intro e he
    have hle := length_encode_le he
    refine reads_skipElementValue (h e he) ?_
    rw [← hall, List.length_append, List.length_append]
    omega
  have hread : Reads (do let _ ← counted (do skip 2; skipElementValue (all.length + 1)); return ())
      (countedBytes elementBytes elements) () := helements.bind_last (.pure ())
  have hrest := hread rest
  rw [countedBytes, hall] at hrest
  exact hrest

/-- Annotations are read as the simple names of their types. -/
theorem reads_annotationNames {l : Layout} {uses : List AnnotationUse}
    (hcount : uses.length < 2 ^ 16) (h : ∀ u ∈ uses, u.Fits l) :
    Reads (annotationNames l.pool) (countedBytes AnnotationUse.encode uses)
      (uses.map (·.simpleName)) := by
  refine reads_counted hcount ?_
  intro u hu
  have hfits := h u hu
  exact (reads_index _).bind ((reads_require hfits.type.utf8_eq).bind_nil
    ((reads_require (fieldType_descriptor hfits.legal)).bind_nil
      ((reads_skipElements hfits.count hfits.values).bind_last (.pure _))))

end Annotations

/-! ## Attributes -/

section Attributes

open AttributeContent

variable {α β σ : Type} {l : Layout} {apply : σ → α → σ}

/-- What attributes leave alone stays as it was. -/
theorem foldl_attributes_keeps {project : σ → β} {as : List (Attribute α)}
    (h : ∀ a ∈ as, ∀ s, project (apply s a.content) = project s) (s : σ) :
    project (as.foldl (fun s a => apply s a.content) s) = project s := by
  induction as generalizing s with
  | nil => rfl
  | cons a as ih =>
    rw [List.foldl_cons, ih fun b hb => h b (List.mem_cons_of_mem a hb)]
    exact h a List.mem_cons_self s

/-- What is noted of attributes is whether there is one of a kind. -/
theorem foldl_attributes_any {flag : σ → Bool} {kind : α → Bool}
    (h : ∀ s c, flag (apply s c) = (flag s || kind c)) (as : List (Attribute α)) {s : σ}
    (hs : flag s = false) :
    flag (as.foldl (fun s a => apply s a.content) s) = as.any fun a => kind a.content := by
  have hall : ∀ s, flag (as.foldl (fun s a => apply s a.content) s) =
      (flag s || as.any fun a => kind a.content) := by
    clear hs
    induction as with
    | nil => simp
    | cons a as ih =>
      intro s
      rw [List.foldl_cons, ih, h, List.any_cons, Bool.or_assoc]
  rw [hall, hs, Bool.false_or]

variable [AttributeContent α]

/-- An attribute is taken as its name and its bytes. -/
theorem reads_namedBody {a : Attribute α} (h : a.Fits l) :
    Reads (namedBody l.pool) a.encode (name a.content, body a.content) :=
  (reads_index _).bind ((reads_require h.name.utf8_eq).bind_nil
    ((reads_u4 h.length).bind ((reads_bytes _).bind_last (.pure _))))

/-- Attributes are taken in one after the other, each from its own bytes. The readers for members
and for classes are both loops of this form. -/
theorem reads_attributes (read : Nat → σ → Reader σ) (add : σ → String → Reader σ)
    (apply : σ → α → σ) (hzero : ∀ s, read 0 s = pure s)
    (hsucc : ∀ count s, read (count + 1) s = do
      let (name, body) ← namedBody l.pool
      let s ← within body (add s name)
      read count s)
    {as : List (Attribute α)} (hfits : ∀ a ∈ as, a.Fits l)
    (hadd : ∀ a ∈ as, ∀ s, ∃ left,
      add s (name a.content) (body a.content) = .ok (apply s a.content, left)) (s : σ) :
    Reads (read as.length s) (as.flatMap Attribute.encode)
      (as.foldl (fun s a => apply s a.content) s) := by
  induction as generalizing s with
  | nil =>
    rw [List.length_nil, hzero]
    exact .pure s
  | cons a as ih =>
    obtain ⟨left, hleft⟩ := hadd a List.mem_cons_self s
    have hrest := ih (fun b hb => hfits b (List.mem_cons_of_mem a hb))
      (fun b hb => hadd b (List.mem_cons_of_mem a hb)) (apply s a.content)
    rw [List.length_cons, hsucc, List.flatMap_cons, List.foldl_cons]
    exact (reads_namedBody (hfits a List.mem_cons_self)).bind ((reads_within hleft).bind_nil hrest)

/-- What is collected is what the one attribute of a name says, wherever it stands: the others
leave it alone. -/
theorem foldl_attributes_said {project : σ → List β} {ask : α → Option (List β)} (known : String)
    (hknown : known ∈ knownNames α)
    (hcontent : ∀ c, (ask c = none ∧ ∀ s, project (apply s c) = project s) ∨
      (name c = known ∧ ∃ said, ask c = some said ∧
        ∀ s, project s = [] → project (apply s c) = said))
    {as : List (Attribute α)} (hfits : Attribute.AllFit l as) {s : σ} (hs : project s = []) :
    project (as.foldl (fun s a => apply s a.content) s) = Attribute.said as ask := by
  have honce := hfits.once
  clear hfits
  induction as generalizing s with
  | nil => exact hs
  | cons a as ih =>
    obtain ⟨hfirst, hlater⟩ := List.pairwise_cons.mp honce
    rw [List.foldl_cons]
    unfold Attribute.said
    rw [List.findSome?_cons]
    obtain ⟨hask, hkeeps⟩ | ⟨hname, said, hask, hsays⟩ := hcontent a.content
    · rw [hask]
      exact ih (by rw [hkeeps, hs]) hlater
    · -- An attribute behind it that says something too would have the same name.
      have hsilent : ∀ b ∈ as, ∀ s, project (apply s b.content) = project s := by
        intro b hb
        obtain ⟨-, hkeeps⟩ | ⟨hsame, -⟩ := hcontent b.content
        · exact hkeeps
        · have hunknown := hfirst b hb (hname.trans hsame.symm)
          rw [hname] at hunknown
          exact absurd hknown hunknown
      rw [foldl_attributes_keeps hsilent, hsays s hs, hask]
      rfl

end Attributes

/-! ## Attributes of members -/

section MemberAttributes

variable {l : Layout}

/-- What is known of a member after one more attribute. -/
def MemberAttributes.apply (m : MemberAttributes) : MemberAttribute → MemberAttributes
  | .code _ => { m with hasCode := true }
  | .constantValue _ => { m with hasConstant := true }
  | .exceptions classes =>
    { m with exceptions := m.exceptions ++ classes.map fun c => javaName c.text }
  | .methodParameters params =>
    { m with paramNames := m.paramNames ++ params.map fun p => p.1.map (·.text) }
  | .annotations uses => { m with annotations := uses.map (·.simpleName) }
  | .unknown _ _ => m

/-- The name of a class that is thrown is read under its number. -/
theorem reads_className {c : Named} (h : l.HasClass c.index c.text) :
    Reads (do return javaName (← require (l.pool.className (← u2))))
      (numberBytes 2 c.index.toNat) (javaName c.text) :=
  (reads_index _).bind_last ((reads_require h.className_eq).bind_nil (.pure _))

/-- The name of a parameter is read under its number, unless it has none. -/
theorem reads_paramName {n : Option Named} (h : ∀ m ∈ n, l.HasText m.index m.text)
    (flags : UInt16) :
    Reads (paramName l.pool) (numberBytes 2 (optionalIndex n) ++ numberBytes 2 flags.toNat)
      (n.map (·.text)) := by
  cases n with
  | none => exact (reads_index 0).bind ((reads_skip_index _).bind_last (.pure none))
  | some n =>
    have htext := h n rfl
    refine (reads_index n.index).bind ((reads_skip_index _).bind_last ?_)
    rw [if_neg (Layout.toNat_ne_zero htext)]
    exact (reads_require htext.utf8_eq).bind_nil (.pure _)

/-- Taking in an attribute whose name means nothing changes nothing. -/
theorem MemberAttributes.add_unknown {name : String} (h : name ∉ MemberAttribute.knownNames)
    (p : Pool) (m : MemberAttributes) : m.add p name = pure m := by
  unfold MemberAttributes.add
  split
  -- every case but the last is one of the names
  all_goals first | rfl | exact absurd (by decide) h

/-- Every attribute of a member that fits is taken in, perhaps with some of its bytes left. -/
theorem MemberAttributes.add_eq_ok {c : MemberAttribute} (h : c.Fits l) (m : MemberAttributes) :
    ∃ left, m.add l.pool c.name c.body = .ok (m.apply c, left) := by
  cases c with
  -- what instructions and constants are does not matter, so their bytes are left
  | code body => exact ⟨body, rfl⟩
  | constantValue index => exact ⟨numberBytes 2 index.toNat, rfl⟩
  | exceptions classes =>
    have hread : Reads (m.add l.pool "Exceptions") (MemberAttribute.exceptions classes).body
        (m.apply (.exceptions classes)) :=
      (reads_counted h.1 fun c hc => reads_className (h.2 c hc)).bind_last (.pure _)
    exact ⟨[], hread.eq_ok⟩
  | methodParameters params =>
    have hread : Reads (m.add l.pool "MethodParameters")
        (MemberAttribute.methodParameters params).body (m.apply (.methodParameters params)) :=
      (reads_u1 h.1).bind
        ((reads_times fun p hp => reads_paramName (h.2 p hp) p.2).bind_last (.pure _))
    exact ⟨[], hread.eq_ok⟩
  | annotations uses =>
    have hread : Reads (m.add l.pool "RuntimeVisibleAnnotations")
        (MemberAttribute.annotations uses).body (m.apply (.annotations uses)) :=
      (reads_annotationNames h.1 h.2).bind_last (.pure _)
    exact ⟨[], hread.eq_ok⟩
  | unknown name body =>
    refine ⟨body, ?_⟩
    show m.add l.pool name body = _
    rw [MemberAttributes.add_unknown h]
    rfl

/-- What attributes say about a member. -/
def MemberAttributes.collect (as : List (Attribute MemberAttribute)) : MemberAttributes :=
  { annotations := Attribute.said as (·.annotations?)
    exceptions := Attribute.said as (·.exceptions?)
    paramNames := Attribute.said as (·.paramNames?)
    hasCode := as.any (·.content.isCode)
    hasConstant := as.any (·.content.isConstantValue) }

/-- Taken in one after the other, attributes say what they say together. -/
theorem MemberAttributes.foldl_apply {as : List (Attribute MemberAttribute)}
    (h : Attribute.AllFit l as) :
    as.foldl (fun m a => m.apply a.content) {} = collect as := by
  -- each thing that is known comes from the one kind of attribute that tells it
  have hannotations : (as.foldl (fun m a => MemberAttributes.apply m a.content) {}).annotations =
      Attribute.said as (·.annotations?) := by
    refine foldl_attributes_said "RuntimeVisibleAnnotations" (by decide) ?_ h rfl
    rintro (_ | _ | _ | _ | uses | _)
    case annotations => exact .inr ⟨rfl, _, rfl, fun _ _ => rfl⟩
    all_goals exact .inl ⟨rfl, fun _ => rfl⟩
  have hexceptions : (as.foldl (fun m a => MemberAttributes.apply m a.content) {}).exceptions =
      Attribute.said as (·.exceptions?) := by
    refine foldl_attributes_said "Exceptions" (by decide) ?_ h rfl
    rintro (_ | _ | classes | _ | _ | _)
    case exceptions => exact .inr ⟨rfl, _, rfl, fun m hm => by simp [MemberAttributes.apply, hm]⟩
    all_goals exact .inl ⟨rfl, fun _ => rfl⟩
  have hnames : (as.foldl (fun m a => MemberAttributes.apply m a.content) {}).paramNames =
      Attribute.said as (·.paramNames?) := by
    refine foldl_attributes_said "MethodParameters" (by decide) ?_ h rfl
    rintro (_ | _ | _ | params | _ | _)
    case methodParameters =>
      exact .inr ⟨rfl, _, rfl, fun m hm => by simp [MemberAttributes.apply, hm]⟩
    all_goals exact .inl ⟨rfl, fun _ => rfl⟩
  -- of instructions and constants it is only noted that there are some
  have hcode : (as.foldl (fun m a => MemberAttributes.apply m a.content) {}).hasCode =
      as.any (·.content.isCode) := by
    refine foldl_attributes_any ?_ as rfl
    rintro m (_ | _ | _ | _ | _ | _)
    all_goals simp [MemberAttributes.apply, MemberAttribute.isCode]
  have hconstant : (as.foldl (fun m a => MemberAttributes.apply m a.content) {}).hasConstant =
      as.any (·.content.isConstantValue) := by
    refine foldl_attributes_any ?_ as rfl
    rintro m (_ | _ | _ | _ | _ | _)
    all_goals simp [MemberAttributes.apply, MemberAttribute.isConstantValue]
  unfold collect
  rw [← hannotations, ← hexceptions, ← hnames, ← hcode, ← hconstant]

/-- The attributes of a member are read as what they say together. -/
theorem reads_memberAttributes {as : List (Attribute MemberAttribute)}
    (h : Attribute.AllFit l as) :
    Reads (memberAttributes l.pool as.length {}) (as.flatMap Attribute.encode)
      (MemberAttributes.collect as) := by
  rw [← MemberAttributes.foldl_apply h]
  exact reads_attributes (memberAttributes l.pool) (MemberAttributes.add l.pool)
    MemberAttributes.apply (fun _ => rfl) (fun _ _ => rfl) h.each
    (fun a ha m => m.add_eq_ok (h.each a ha).content) {}

end MemberAttributes

/-! ## Attributes of classes -/

section ClassAttributes

variable {l : Layout}

/-- What is known of a class after one more attribute. -/
def ClassAttributes.apply (s : ClassAttributes) : ClassAttribute → ClassAttributes
  | .annotations uses => { s with annotations := uses.map (·.simpleName) }
  | .innerClasses entries => { s with innerClasses := entries.map (·.expected) }
  | .unknown _ _ => s

/-- An entry for an inner class is read; outer class and name may be missing. -/
theorem reads_innerClass {e : InnerEntry} (h : e.Fits l) :
    Reads (innerClass l.pool) e.encode e.expected := by
  unfold InnerEntry.encode
  simp only [List.append_assoc]
  refine (reads_index _).bind ((reads_optionalIndex _).bind ((reads_optionalIndex _).bind
    ((reads_index _).bind_last ?_)))
  refine (reads_require h.inner.className_eq).bind_nil ?_
  refine reads_optional (fun n hn => (h.outer n hn).lookup) ?_
  refine reads_optional (fun n hn => (h.name n hn).lookup) ?_
  rw [Option.map_map]
  exact .pure _

/-- Taking in an attribute whose name means nothing changes nothing. -/
theorem ClassAttributes.add_unknown {name : String} (h : name ∉ ClassAttribute.knownNames)
    (p : Pool) (s : ClassAttributes) : s.add p name = pure s := by
  unfold ClassAttributes.add
  split
  all_goals first | rfl | exact absurd (by decide) h

/-- Every attribute of a class that fits is taken in, perhaps with some of its bytes left. -/
theorem ClassAttributes.add_eq_ok {c : ClassAttribute} (h : c.Fits l) (s : ClassAttributes) :
    ∃ left, s.add l.pool c.name c.body = .ok (s.apply c, left) := by
  cases c with
  | annotations uses =>
    have hread : Reads (s.add l.pool "RuntimeVisibleAnnotations")
        (ClassAttribute.annotations uses).body (s.apply (.annotations uses)) :=
      (reads_annotationNames h.1 h.2).bind_last (.pure _)
    exact ⟨[], hread.eq_ok⟩
  | innerClasses entries =>
    have hread : Reads (s.add l.pool "InnerClasses") (ClassAttribute.innerClasses entries).body
        (s.apply (.innerClasses entries)) :=
      (reads_counted h.1 fun e he => reads_innerClass (h.2 e he)).bind_last (.pure _)
    exact ⟨[], hread.eq_ok⟩
  | unknown name body =>
    refine ⟨body, ?_⟩
    show s.add l.pool name body = _
    rw [ClassAttributes.add_unknown h]
    rfl

/-- What attributes say about a class. -/
def ClassAttributes.collect (as : List (Attribute ClassAttribute)) : ClassAttributes :=
  { annotations := Attribute.said as (·.annotations?)
    innerClasses := Attribute.said as (·.innerClasses?) }

/-- Taken in one after the other, attributes of a class say what they say together. -/
theorem ClassAttributes.foldl_apply {as : List (Attribute ClassAttribute)}
    (h : Attribute.AllFit l as) :
    as.foldl (fun s a => s.apply a.content) {} = collect as := by
  have hannotations : (as.foldl (fun s a => ClassAttributes.apply s a.content) {}).annotations =
      Attribute.said as (·.annotations?) := by
    refine foldl_attributes_said "RuntimeVisibleAnnotations" (by decide) ?_ h rfl
    rintro (uses | _ | _)
    case annotations => exact .inr ⟨rfl, _, rfl, fun _ _ => rfl⟩
    all_goals exact .inl ⟨rfl, fun _ => rfl⟩
  have hinner : (as.foldl (fun s a => ClassAttributes.apply s a.content) {}).innerClasses =
      Attribute.said as (·.innerClasses?) := by
    refine foldl_attributes_said "InnerClasses" (by decide) ?_ h rfl
    rintro (_ | entries | _)
    case innerClasses => exact .inr ⟨rfl, _, rfl, fun _ _ => rfl⟩
    all_goals exact .inl ⟨rfl, fun _ => rfl⟩
  unfold collect
  rw [← hannotations, ← hinner]

/-- The attributes of a class are read as what they say together. -/
theorem reads_classAttributes {as : List (Attribute ClassAttribute)} (h : Attribute.AllFit l as) :
    Reads (classAttributes l.pool as.length {}) (as.flatMap Attribute.encode)
      (ClassAttributes.collect as) := by
  rw [← ClassAttributes.foldl_apply h]
  exact reads_attributes (classAttributes l.pool) (ClassAttributes.add l.pool)
    ClassAttributes.apply (fun _ => rfl) (fun _ _ => rfl) h.each
    (fun a ha s => s.add_eq_ok (h.each a ha).content) {}

end ClassAttributes

end JavaAtlas.ClassFile
