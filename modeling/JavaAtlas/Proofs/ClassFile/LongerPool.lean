import JavaAtlas.Proofs.ClassFile.Attributes
import JavaAtlas.Proofs.Outcome

namespace JavaAtlas.ClassFile

/-! # Reading over a longer constant pool

What stands behind the constant pool is read with its constants. With further constants behind them
everything that could be read is read the same, since a number that had a constant keeps it. And
nothing there is refused because of a text: the texts are all in the pool, and have been read.

* `Covered` says both of two readers, one for each pool, and goes through the ways in which readers
  are put together;
* `covered_memberParts`, `covered_classAttributes`, `covered_classBody`: the parts of a class and
  all of it.
-/

/-! ## Pools -/

/-- One pool is the front of another. -/
def Pool.FrontOf (p q : Pool) : Prop := p.entries.toList <+: q.entries.toList

theorem Pool.FrontOf.refl (p : Pool) : p.FrontOf p := List.prefix_refl _

/-- What is found is found again, and no text is at fault if nothing is found. -/
structure Found {α : Type} (x y : Except ClassError α) : Prop where
  again : ∀ a, x = .ok a → y = .ok a
  noText : ∀ fault, x ≠ .error (.utf8 fault)

/-- What does not depend on the pool is found again. -/
theorem Found.ok {α : Type} (a : α) : Found (.ok a : Except ClassError α) (.ok a) where
  again := fun _ h => h
  noText := by
    intro fault h
    cases h

/-- Where nothing is found, and not because of a text, nothing has to be found again. -/
theorem Found.error {α : Type} {e : ClassError} (h : ∀ fault, e ≠ .utf8 fault)
    (y : Except ClassError α) : Found (.error e) y where
  again := by
    intro a hok
    cases hok
  noText := fun fault herror => h fault (Except.error.inj herror)

/-- A number without a constant is another error than a text. -/
theorem invalidConstantIndex_ne (index : Nat) (fault : Utf8Fault) :
    ClassError.invalidConstantIndex index ≠ .utf8 fault := by
  intro h
  cases h

section Lookup

variable {p q : Pool}

/-- A number that has a constant keeps it. -/
theorem Pool.FrontOf.getElem? (h : p.FrontOf q) {index : Nat} {c : Constant}
    (hc : p.entries[index]? = some c) : q.entries[index]? = some c := by
  obtain ⟨more, hmore⟩ := h
  rw [← Array.getElem?_toList] at hc ⊢
  rw [← hmore, List.getElem?_append_left (List.getElem?_eq_some_iff.mp hc).1, hc]

/-- A text is found again, since it has been read with the pool. -/
theorem found_utf8 (h : p.FrontOf q) (index : Nat) : Found (p.utf8 index) (q.utf8 index) := by
  unfold Pool.utf8
  split
  next text hentry =>
    rw [h.getElem? hentry]
    exact .ok text
  next => exact .error (invalidConstantIndex_ne index) _

/-- The name of a class, which is a number of a text, is found again. -/
theorem found_className (h : p.FrontOf q) (index : Nat) :
    Found (p.className index) (q.className index) := by
  unfold Pool.className
  split
  next nameIndex hentry =>
    rw [h.getElem? hentry]
    exact found_utf8 h nameIndex
  next => exact .error (invalidConstantIndex_ne index) _

end Lookup

/-- Types do not depend on the pool. -/
theorem found_fieldType (descriptor : String) :
    Found (fieldType descriptor) (fieldType descriptor) := by
  by_cases h : ∃ t : FieldType, t.DescribedBy descriptor
  · obtain ⟨t, ht⟩ := h
    rw [← ht.2, fieldType_of_delimited ht.1]
    exact .ok _
  · obtain ⟨reason, hreason⟩ := fieldType_of_not_described h
    rw [hreason]
    exact .error (fun _ h => by cases h) _

/-- Types of methods do not depend on the pool. -/
theorem found_methodType (descriptor : String) :
    Found (methodType descriptor) (methodType descriptor) := by
  by_cases h : ∃ t : MethodType, t.DescribedBy descriptor
  · obtain ⟨t, ht⟩ := h
    rw [← ht.2, methodType_of_delimited ht.1]
    exact .ok _
  · obtain ⟨reason, hreason⟩ := methodType_of_not_described h
    rw [hreason]
    exact .error (fun _ h => by cases h) _

/-! ## Readers -/

/-- What one reader reads another reads the same, and the first one never finds a text at fault. -/
structure Covered {α : Type} (read read' : Reader α) : Prop where
  again : ∀ input r, read input = .ok r → read' input = .ok r
  noText : ∀ input fault, read input ≠ .error (.utf8 fault)

section Steps

variable {α β : Type} {read read' : Reader α}

theorem Covered.pure (a : α) : Covered (pure a) (pure a) where
  again := fun _ _ h => h
  noText := by
    intro input fault h
    cases h

/-- Two readers one after the other read the same if both do. -/
theorem Covered.bind {next next' : α → Reader β} (h : Covered read read')
    (hnext : ∀ a, Covered (next a) (next' a)) : Covered (read >>= next) (read' >>= next') := by
  have hbind : ∀ input, (read >>= next) input = read input >>= fun p => next p.1 p.2 :=
    fun _ => rfl
  have hbind' : ∀ input, (read' >>= next') input = read' input >>= fun p => next' p.1 p.2 :=
    fun _ => rfl
  constructor
  · -- both steps went well, so both are repeated
    intro input r hread
    rw [hbind, bind_eq_ok_iff] at hread
    obtain ⟨⟨a, rest⟩, hfirst, hsecond⟩ := hread
    rw [hbind', h.again input _ hfirst]
    exact (hnext a).again rest r hsecond
  · intro input fault hread
    rw [hbind] at hread
    -- a text would be at fault in one of the steps
    cases hfirst : read input with
    | error e =>
      rw [hfirst] at hread
      cases hread
      exact h.noText input fault hfirst
    | ok first =>
      rw [hfirst] at hread
      exact (hnext first.1).noText first.2 fault hread

/-- What is made of a value afterwards is the same. -/
theorem Covered.map (f : α → β) (h : Covered read read') : Covered (f <$> read) (f <$> read') := by
  rw [← bind_pure_comp, ← bind_pure_comp]
  exact h.bind fun a => .pure (f a)

/-- A reader that fails, and not because of a text, is covered by any. -/
theorem covered_fail {e : ClassError} (h : ∀ fault, e ≠ .utf8 fault) :
    Covered (fail e : Reader α) (fail e) where
  again := by
    intro input r hread
    cases hread
  noText := by
    intro input fault hread
    exact h fault (Except.error.inj hread)

/-- A check succeeds again if what it looks up is found again. -/
theorem Found.covered {x y : Except ClassError α} (h : Found x y) :
    Covered (require x) (require y) := by
  cases hx : x with
  | ok a =>
    rw [h.again a hx]
    exact .pure a
  | error e =>
    constructor
    · intro input r hread
      cases hread
    · intro input fault hread
      cases hread
      exact h.noText fault hx

/-- Bytes are taken as they are, whatever the pool. -/
theorem covered_bytes (count : Nat) : Covered (bytes count) (bytes count) where
  again := fun _ _ h => h
  noText := by
    intro input fault hread
    unfold bytes at hread
    split at hread <;> cases hread

/-- Numbers are made of bytes only. -/
theorem covered_number (count : Nat) : Covered (number count) (number count) :=
  (covered_bytes count).bind fun _ => .pure _

theorem covered_u1 : Covered u1 u1 := covered_number 1

theorem covered_u2 : Covered u2 u2 := covered_number 2

theorem covered_u4 : Covered u4 u4 := covered_number 4

/-- Bytes that are passed over do not depend on the pool. -/
theorem covered_skip (count : Nat) : Covered (skip count) (skip count) :=
  (covered_bytes count).bind fun _ => .pure ()

/-- A reader may be repeated. -/
theorem Covered.times (h : Covered read read') (count : Nat) :
    Covered (times read count) (times read' count) := by
  induction count with
  | zero => exact .pure []
  | succ count ih => exact h.bind fun _ => ih.bind fun _ => .pure _

/-- The count comes from the bytes, and so does not depend on the pool. -/
theorem Covered.counted (h : Covered read read') : Covered (counted read) (counted read') :=
  covered_u2.bind fun count => h.times count

/-- A reader of other bytes leaves the input as it is, in both cases. -/
theorem covered_within (body : List UInt8) (h : Covered read read') :
    Covered (within body read) (within body read') := by
  unfold within
  constructor
  · intro input r hread
    split at hread
    next a left hbody =>
      rw [h.again body _ hbody]
      exact hread
    next => cases hread
  · intro input fault hread
    split at hread
    next => cases hread
    next e hbody =>
      cases hread
      exact h.noText body fault hbody

/-- What may be missing is looked up if there is a number for it. -/
theorem covered_optional {x y : Except ClassError String} (hfound : Found x y)
    (index : Nat) {next next' : Option String → Reader β}
    (hnext : ∀ name, Covered (next name) (next' name)) :
    Covered (if index = 0 then pure none >>= next else some <$> require x >>= next)
      (if index = 0 then pure none >>= next' else some <$> require y >>= next') := by
  split
  · exact (Covered.pure none).bind hnext
  · exact (hfound.covered.map some).bind hnext

end Steps

/-! ## Annotations -/

/-- Values in annotations are passed over without the pool. -/
theorem covered_skipElementValue (fuel : Nat) :
    Covered (skipElementValue fuel) (skipElementValue fuel) := by
  induction fuel with
  | zero => exact covered_fail fun _ h => by cases h
  | succ fuel ih =>
    refine covered_u1.bind fun tag => ?_
    split
    -- letters of one constant, an enumeration, an annotation, an array
    all_goals try exact covered_skip _
    · refine (covered_skip 2).bind fun _ => ?_
      exact ((covered_skip 2).bind fun _ => ih).counted.bind fun _ => .pure ()
    · exact ih.counted.bind fun _ => .pure ()
    · exact covered_fail fun _ h => by cases h

/-- A reader may look at what is left, which says nothing of the pool. -/
theorem covered_get : Covered (get : Reader (List UInt8)) get where
  again := fun _ _ h => h
  noText := by
    intro input fault h
    cases h

/-- The elements of an annotation are passed over without the pool, too. -/
theorem covered_skipElements : Covered skipElements skipElements :=
  covered_get.bind fun _ => ((covered_skip 2).bind fun _ =>
    covered_skipElementValue _).counted.bind fun _ => .pure ()

section Parts

variable {p q : Pool} (h : p.FrontOf q)
include h

/-- Of an annotation only its type is looked up. -/
theorem covered_annotationNames : Covered (annotationNames p) (annotationNames q) :=
  Covered.counted <| covered_u2.bind fun index => (found_utf8 h index).covered.bind fun _ =>
    (found_fieldType _).covered.bind fun _ => covered_skipElements.bind fun _ => .pure _

/-! ## Attributes -/

/-- The name of an attribute is looked up, and its bytes are taken as they are. -/
theorem covered_namedBody : Covered (namedBody p) (namedBody q) :=
  covered_u2.bind fun index => (found_utf8 h index).covered.bind fun _ =>
    covered_u4.bind fun length => (covered_bytes length).bind fun _ => .pure _

/-- The name of a class stands under a number. -/
theorem covered_className :
    Covered (do return javaName (← require (p.className (← u2))))
      (do return javaName (← require (q.className (← u2)))) :=
  covered_u2.bind fun index => (found_className h index).covered.bind fun _ => .pure _

/-- The name of a parameter is looked up unless its number is zero. -/
theorem covered_paramName : Covered (paramName p) (paramName q) := by
  refine covered_u2.bind fun index => (covered_skip 2).bind fun _ => ?_
  split
  · exact .pure none
  · exact (found_utf8 h index).covered.bind fun _ => .pure _

/-- Each known attribute is read the same, and all others are passed over. -/
theorem MemberAttributes.covered_add (m : MemberAttributes) (name : String) :
    Covered (m.add p name) (m.add q name) := by
  by_cases hknown : name ∈ MemberAttribute.knownNames
  · simp only [MemberAttribute.knownNames, List.mem_cons, List.not_mem_nil, or_false] at hknown
    -- code and a constant are only noted, the others are read
    rcases hknown with rfl | rfl | rfl | rfl | rfl
    · exact .pure _
    · exact .pure _
    · exact (covered_className h).counted.bind fun _ => .pure _
    · exact covered_u1.bind fun count => ((covered_paramName h).times count).bind fun _ => .pure _
    · exact (covered_annotationNames h).bind fun _ => .pure _
  · rw [MemberAttributes.add_unknown hknown, MemberAttributes.add_unknown hknown]
    exact .pure m

/-- The attributes of a member are read one after the other. -/
theorem covered_memberAttributes (count : Nat) (m : MemberAttributes) :
    Covered (memberAttributes p count m) (memberAttributes q count m) := by
  -- what is kept so far changes with each attribute
  induction count generalizing m with
  | zero => exact .pure m
  | succ count ih =>
    exact (covered_namedBody h).bind fun _ =>
      (covered_within _ (m.covered_add h _)).bind fun m => ih m

/-! ## Members -/

/-- Name, type and attributes of a member are looked up in the order in which they stand. -/
theorem covered_memberParts : Covered (memberParts p) (memberParts q) := by
  refine covered_u2.bind fun _ => ?_
  refine covered_u2.bind fun name => (found_utf8 h name).covered.bind fun _ => ?_
  refine covered_u2.bind fun type => (found_utf8 h type).covered.bind fun _ => ?_
  exact covered_u2.bind fun count => (covered_memberAttributes h count _).bind fun _ => .pure _

/-- A field is left out because of its flags, which do not depend on the pool. -/
theorem covered_field : Covered (field? p) (field? q) := by
  refine (covered_memberParts h).bind fun parts => ?_
  dsimp only
  split
  · exact .pure none
  · exact (found_fieldType _).covered.bind fun _ => .pure _

/-- A method is left out because of its flags, too. -/
theorem covered_method : Covered (method? p) (method? q) := by
  refine (covered_memberParts h).bind fun parts => ?_
  dsimp only
  split
  · exact .pure none
  · exact (found_methodType _).covered.bind fun _ => .pure _

/-! ## Classes -/

/-- Outer class and name of an inner class may be missing. -/
theorem covered_innerClass : Covered (innerClass p) (innerClass q) := by
  refine covered_u2.bind fun inner => covered_u2.bind fun outer => ?_
  refine covered_u2.bind fun name => covered_u2.bind fun flags => ?_
  refine (found_className h inner).covered.bind fun _ => ?_
  exact covered_optional (found_className h outer) outer fun _ =>
    covered_optional (found_utf8 h name) name fun _ => .pure _

/-- What is said of the attributes of members holds of those of classes. -/
theorem ClassAttributes.covered_add (a : ClassAttributes) (name : String) :
    Covered (a.add p name) (a.add q name) := by
  by_cases hknown : name ∈ ClassAttribute.knownNames
  · simp only [ClassAttribute.knownNames, List.mem_cons, List.not_mem_nil, or_false] at hknown
    rcases hknown with rfl | rfl
    · exact (covered_annotationNames h).bind fun _ => .pure _
    · exact (covered_innerClass h).counted.bind fun _ => .pure _
  · rw [ClassAttributes.add_unknown hknown, ClassAttributes.add_unknown hknown]
    exact .pure a

/-- The attributes of a class are read one after the other. -/
theorem covered_classAttributes (count : Nat) (a : ClassAttributes) :
    Covered (classAttributes p count a) (classAttributes q count a) := by
  induction count generalizing a with
  | zero => exact .pure a
  | succ count ih =>
    exact (covered_namedBody h).bind fun _ =>
      (covered_within _ (a.covered_add h _)).bind fun a => ih a

/-- What can be read behind a pool is read the same behind a longer one, and never is a text at
fault. -/
theorem covered_classBody : Covered (classBody p) (classBody q) := by
  refine covered_u2.bind fun _ => covered_u2.bind fun this => covered_u2.bind fun super => ?_
  refine (found_className h this).covered.bind fun _ => ?_
  refine covered_optional (found_className h super) super fun _ => ?_
  refine (covered_className h).counted.bind fun _ => ?_
  refine (covered_field h).counted.bind fun _ => (covered_method h).counted.bind fun _ => ?_
  exact covered_u2.bind fun count => (covered_classAttributes h count _).bind fun _ => .pure _

end Parts

end JavaAtlas.ClassFile
