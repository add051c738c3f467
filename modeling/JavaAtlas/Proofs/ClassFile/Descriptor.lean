import Mathlib.Data.List.TakeWhile
import JavaAtlas.Proofs.ClassFile.Encoding
import JavaAtlas.Proofs.Path

namespace JavaAtlas.ClassFile

/-! # Descriptors

Descriptors are read byte by byte, while their grammar is one of characters. A byte that is looked
at is the first one of a character, so that it shows a character of one byte or none that means
anything; and the name of a class is cut out where a semicolon stands, so that what is cut out is a
text again.

* `fieldType_descriptor`, `methodType_descriptor`: types are read from their descriptors;
* `exists_of_readType`, `exists_of_readParams`, `exists_of_readResult`: whatever is read is made up
  of descriptors, and all else is refused for its form;
* `descriptors_read_exactly`: both said of the whole text, of which there is one decomposition only;
* `varargsType_source`: the type of a last parameter that takes any number of arguments.
-/

open Utf8

/-! ## The byte that is looked at -/

section Lead

variable {a c : Char} {bytes : List UInt8}

/-- A byte is looked at as the character with its number. -/
theorem toNat_byteChar (b : UInt8) : (byteChar b).toNat = b.toNat := by
  have hvalid : b.toNat.isValidChar := .inl (Nat.lt_of_lt_of_le b.toNat_lt (by decide))
  unfold byteChar
  rw [Char.ofNat, dif_pos hvalid]
  rfl

/-- A character of one byte is what its byte shows. -/
theorem byteChar_ofNat (ha : a.toNat < 0x80) : byteChar (UInt8.ofNat a.toNat) = a := by
  apply Char.toNat_inj.mp
  rw [toNat_byteChar, toNat_ofNat_of_lt (by omega)]

/-- The first byte of a character is shown as no other character of one byte. -/
theorem exists_lead (c : Char) (chars : List Char) :
    ∃ b more, charBytes (c :: chars) = b :: more ∧
      ∀ a : Char, a.toNat < 0x80 → c ≠ a → byteChar b ≠ a := by
  obtain ⟨b, more, hencode, -⟩ := step_encodeChar c
  refine ⟨b, more ++ charBytes chars, by rw [charBytes_cons, hencode, List.cons_append], ?_⟩
  rintro a ha hne rfl
  have hmem : b ∈ String.utf8EncodeChar c := by
    rw [hencode]
    exact List.mem_cons_self
  apply ne_of_mem_encodeChar ha hne hmem
  rw [toNat_byteChar, UInt8.ofNat_toNat]

/-- A character of one byte stands in front as that byte. -/
theorem charBytes_cons_of_lt (ha : a.toNat < 0x80) (chars : List Char) :
    charBytes (a :: chars) = UInt8.ofNat a.toNat :: charBytes chars := by
  rw [charBytes_cons, encodeChar_of_lt ha]
  rfl

end Lead

/-! ## Names of classes -/

section ClassName

variable {name after : List Char}

/-- Up to a semicolon the bytes are those of the characters up to it. -/
theorem takeWhile_semicolon (chars : List Char) :
    (charBytes chars).takeWhile (· != semicolon) = charBytes (chars.takeWhile (· != ';')) :=
  takeWhile_charBytes (a := ';') (by decide) chars

/-- From a semicolon on the bytes are those of the characters from it on. -/
theorem dropWhile_semicolon (chars : List Char) :
    (charBytes chars).dropWhile (· != semicolon) = charBytes (chars.dropWhile (· != ';')) :=
  dropWhile_charBytes (a := ';') (by decide) chars

theorem bne_semicolon_of_not_mem (h : ';' ∉ name) : ∀ c ∈ name, (c != ';') = true := by
  intro c hc
  rw [bne_iff_ne]
  rintro rfl
  exact h hc

/-- The name of a class ends at the first semicolon. -/
theorem readClassName_closed (h : ';' ∉ name) :
    readClassName (charBytes (name ++ ';' :: after)) =
      .ok (javaName (String.ofList name), charBytes after) := by
  have hnot := bne_semicolon_of_not_mem h
  have htake : (name ++ ';' :: after).takeWhile (· != ';') = name := by
    rw [List.takeWhile_append_of_pos hnot]
    simp
  have hdrop : charBytes ((name ++ ';' :: after).dropWhile (· != ';')) =
      semicolon :: charBytes after := by
    rw [List.dropWhile_append_of_pos hnot]
    rfl
  unfold readClassName
  rw [takeWhile_semicolon, dropWhile_semicolon, htake, hdrop, decode_charBytes]

/-- A name without a semicolon behind it is refused. -/
theorem readClassName_open (h : ';' ∉ name) :
    readClassName (charBytes name) =
      .error (.invalidDescriptor "unterminated reference descriptor") := by
  have hdrop : name.dropWhile (· != ';') = [] :=
    List.dropWhile_eq_nil_iff.mpr (bne_semicolon_of_not_mem h)
  unfold readClassName
  rw [dropWhile_semicolon, hdrop]
  rfl

end ClassName

/-! ## One type -/

/-- Only the letters of primitive types stand for one. -/
theorem primitive?_eq_none {c : Char} (h : ∀ p : Primitive, c ≠ p.letter) : primitive? c = none := by
  unfold primitive?
  split
  · exact absurd rfl (h .byte)
  · exact absurd rfl (h .char)
  · exact absurd rfl (h .double)
  · exact absurd rfl (h .float)
  · exact absurd rfl (h .int)
  · exact absurd rfl (h .long)
  · exact absurd rfl (h .short)
  · exact absurd rfl (h .boolean)
  · rfl

/-- The letters of primitive types are characters of one byte. -/
theorem Primitive.toNat_letter_lt (p : Primitive) : p.letter.toNat < 0x80 := by
  cases p <;> decide

section ReadType

variable {b : UInt8} {bytes : List UInt8}

/-- A bracket stands for an array of what follows. -/
theorem readType_array (h : byteChar b = '[') :
    readType (b :: bytes) = (readType bytes).map fun r => (r.1 ++ "[]", r.2) := by
  rw [readType, h]
  cases readType bytes <;> rfl

/-- The letter of references is followed by the name of a class. -/
theorem readType_reference (h : byteChar b = 'L') : readType (b :: bytes) = readClassName bytes := by
  rw [readType, h]
  rfl

/-- A letter of a primitive type is all of its descriptor. -/
theorem readType_primitive {p : Primitive} (h : byteChar b = p.letter) :
    readType (b :: bytes) = .ok (p.keyword, bytes) := by
  rw [readType, h]
  cases p <;> rfl

/-- What begins with anything else is refused for its form. -/
theorem readType_other (harray : byteChar b ≠ '[') (hreference : byteChar b ≠ 'L')
    (hprimitive : ∀ p : Primitive, byteChar b ≠ p.letter) :
    ∃ reason, readType (b :: bytes) = .error (.invalidDescriptor reason) := by
  unfold readType
  split
  next h => exact absurd h harray
  next h => exact absurd h hreference
  next =>
    rw [primitive?_eq_none hprimitive]
    exact ⟨_, rfl⟩

end ReadType

namespace FieldType

/-- The names of classes hold no semicolon, which ends them. -/
def Delimited : FieldType → Prop
  | .primitive _ => True
  | .reference internal => ';' ∉ internal.toList
  | .array element => element.Delimited

/-- Legal names hold no semicolon. -/
theorem Legal.delimited {t : FieldType} (h : t.Legal) : t.Delimited := by
  induction t with
  | primitive p => trivial
  | reference internal => exact h.1
  | array element ih => exact ih h

/-- A descriptor starts with none of the characters that end a list of parameters or stand for no
result. -/
theorem exists_chars_eq_cons (t : FieldType) :
    ∃ c cs, t.chars = c :: cs ∧ c ≠ ')' ∧ c ≠ 'V' := by
  cases t with
  | primitive p => cases p <;> exact ⟨_, _, rfl, by decide, by decide⟩
  | reference internal => exact ⟨_, _, rfl, by decide, by decide⟩
  | array element => exact ⟨_, _, rfl, by decide, by decide⟩

@[simp]
theorem chars_reference_append (internal : String) (rest : List Char) :
    (FieldType.reference internal).chars ++ rest = 'L' :: (internal.toList ++ ';' :: rest) := by
  simp [chars]

/-- A type is read from the front of a descriptor. -/
theorem readType_chars {t : FieldType} (h : t.Delimited) (rest : List Char) :
    readType (charBytes (t.chars ++ rest)) = .ok (t.source, charBytes rest) := by
  -- an array is read as its element is, behind one more bracket
  induction t with
  | primitive p =>
    show readType (charBytes (p.letter :: rest)) = _
    rw [charBytes_cons_of_lt p.toNat_letter_lt,
      readType_primitive (byteChar_ofNat p.toNat_letter_lt)]
    rfl
  | reference internal =>
    rw [chars_reference_append, charBytes_cons_of_lt (by decide),
      readType_reference (byteChar_ofNat (by decide)), readClassName_closed h,
      String.ofList_toList]
    rfl
  | array element ih =>
    rw [chars, List.cons_append, charBytes_cons_of_lt (by decide),
      readType_array (byteChar_ofNat (by decide)), ih h]
    rfl

/-- What stands in front of the first semicolon, and what stands behind it. -/
theorem append_semicolon_inj {name name' after after' : List Char} (h : ';' ∉ name)
    (h' : ';' ∉ name') (heq : name ++ ';' :: after = name' ++ ';' :: after') :
    name = name' ∧ after = after' := by
  have hnot := bne_semicolon_of_not_mem h
  have hnot' := bne_semicolon_of_not_mem h'
  have hname := congrArg (List.takeWhile (· != ';')) heq
  rw [List.takeWhile_append_of_pos hnot, List.takeWhile_append_of_pos hnot'] at hname
  obtain rfl : name = name' := by simpa using hname
  exact ⟨rfl, (List.cons.inj (List.append_cancel_left heq)).2⟩

/-- No descriptor goes on as another: what stands in front of a text is one type only. -/
theorem chars_append_inj {t u : FieldType} {rest rest' : List Char} (ht : t.Delimited)
    (hu : u.Delimited) (h : t.chars ++ rest = u.chars ++ rest') : t = u ∧ rest = rest' := by
  -- two descriptors differ in their first character, or are of the same kind
  induction t generalizing u with
  | primitive p =>
    cases u with
    | primitive q =>
      obtain ⟨hletter, hrest⟩ := List.cons.inj h
      have hpq : p = q := by cases p <;> cases q <;> first | rfl | exact absurd hletter (by decide)
      exact ⟨congrArg _ hpq, hrest⟩
    | reference internal => cases p <;> exact absurd (List.cons.inj h).1 (by decide)
    | array element => cases p <;> exact absurd (List.cons.inj h).1 (by decide)
  | reference internal =>
    cases u with
    | primitive q => cases q <;> exact absurd (List.cons.inj h).1 (by decide)
    | reference internal' =>
      rw [chars_reference_append, chars_reference_append] at h
      obtain ⟨hname, hrest⟩ := append_semicolon_inj ht hu (List.cons.inj h).2
      exact ⟨congrArg _ (String.toList_inj.mp hname), hrest⟩
    | array element => exact absurd (List.cons.inj h).1 (by decide)
  | array element ih =>
    cases u with
    | primitive q => cases q <;> exact absurd (List.cons.inj h).1 (by decide)
    | reference internal => exact absurd (List.cons.inj h).1 (by decide)
    | array element' =>
      rw [chars, chars, List.cons_append, List.cons_append] at h
      obtain ⟨rfl, hrest⟩ := ih ht (show element'.Delimited from hu) (List.cons.inj h).2
      exact ⟨rfl, hrest⟩

end FieldType

/-- Whatever is read as a type is its descriptor; all else is refused for its form. -/
theorem exists_of_readType (chars : List Char) :
    (∃ (t : FieldType) (rest : List Char), t.Delimited ∧ chars = t.chars ++ rest ∧
        readType (charBytes chars) = .ok (t.source, charBytes rest)) ∨
      ∃ reason, readType (charBytes chars) = .error (.invalidDescriptor reason) := by
  induction chars with
  | nil => exact .inr ⟨_, rfl⟩
  | cons c chars ih =>
    -- the first character tells the kind of type, if there is one
    by_cases harray : c = '['
    · subst harray
      rw [charBytes_cons_of_lt (by decide), readType_array (byteChar_ofNat (by decide))]
      rcases ih with ⟨t, rest, ht, rfl, hread⟩ | ⟨reason, hread⟩
      · exact .inl ⟨.array t, rest, ht, rfl, by rw [hread]; rfl⟩
      · exact .inr ⟨reason, by rw [hread]; rfl⟩
    · by_cases hreference : c = 'L'
      · subst hreference
        rw [charBytes_cons_of_lt (by decide), readType_reference (byteChar_ofNat (by decide))]
        by_cases hclosed : ';' ∈ chars
        · obtain ⟨name, rest, rfl, hname⟩ := List.eq_append_cons_of_mem hclosed
          refine .inl ⟨.reference (String.ofList name), rest, ?_, ?_, readClassName_closed hname⟩
          · show ';' ∉ (String.ofList name).toList
            rwa [String.toList_ofList]
          · rw [FieldType.chars_reference_append, String.toList_ofList]
        · exact .inr ⟨_, readClassName_open hclosed⟩
      · by_cases hprimitive : ∃ p : Primitive, c = p.letter
        · obtain ⟨p, rfl⟩ := hprimitive
          exact .inl ⟨.primitive p, chars, trivial, rfl,
            FieldType.readType_chars (t := .primitive p) trivial chars⟩
        · obtain ⟨b, more, hbytes, hlead⟩ := exists_lead c chars
          rw [hbytes]
          exact .inr (readType_other (hlead '[' (by decide) harray)
            (hlead 'L' (by decide) hreference) fun p =>
              hlead p.letter p.toNat_letter_lt fun h => hprimitive ⟨p, h⟩)

/-- The type of a field is read from its descriptor. -/
theorem fieldType_of_delimited {t : FieldType} (h : t.Delimited) :
    fieldType t.descriptor = .ok t.source := by
  have hread := FieldType.readType_chars h []
  rw [List.append_nil] at hread
  unfold fieldType FieldType.descriptor
  rw [utf8Bytes_eq_charBytes, String.toList_ofList, hread]
  rfl

/-- The type of a field that is legal is read from its descriptor. -/
theorem fieldType_descriptor {t : FieldType} (h : t.Legal) :
    fieldType t.descriptor = .ok t.source :=
  fieldType_of_delimited h.delimited

/-! ## Parameters and result -/

section ReadParams

variable {b : UInt8} {bytes : List UInt8}

/-- A parenthesis ends the parameters. -/
theorem readParams_end (h : byteChar b = ')') : readParams (b :: bytes) = .ok ([], bytes) := by
  unfold readParams
  exact if_pos h

/-- Before a parenthesis one type is read, and then the others. -/
theorem readParams_cons (h : byteChar b ≠ ')') :
    readParams (b :: bytes) = readType (b :: bytes) >>= fun r =>
      (readParams r.2).map fun s => (r.1 :: s.1, s.2) := by
  rw [readParams]
  rw [if_neg h]
  split
  next e hread =>
    rw [hread]
    rfl
  next type rest hread =>
    rw [hread]
    show (readParams rest >>= _) = (readParams rest).map _
    cases readParams rest <;> rfl

end ReadParams

/-- Parameters are read from their descriptors up to the parenthesis. -/
theorem readParams_chars {params : List FieldType} (h : ∀ p ∈ params, p.Delimited)
    (rest : List Char) :
    readParams (charBytes (params.flatMap (·.chars) ++ ')' :: rest)) =
      .ok (params.map (·.source), charBytes rest) := by
  induction params with
  | nil =>
    rw [List.flatMap_nil, List.nil_append, charBytes_cons_of_lt (by decide)]
    exact readParams_end (byteChar_ofNat (by decide))
  | cons t params ih =>
    have hread := FieldType.readType_chars (h t List.mem_cons_self)
      (params.flatMap (·.chars) ++ ')' :: rest)
    -- the descriptor in front does not look like the parenthesis at the end
    obtain ⟨c, cs, hchars, hparen, -⟩ := t.exists_chars_eq_cons
    obtain ⟨b, more, hbytes, hlead⟩ :=
      exists_lead c (cs ++ (params.flatMap (·.chars) ++ ')' :: rest))
    rw [← List.cons_append, ← hchars] at hbytes
    rw [List.flatMap_cons, List.append_assoc, hbytes, readParams_cons (hlead ')' (by decide) hparen),
      ← hbytes, hread]
    show (readParams (charBytes (params.flatMap (·.chars) ++ ')' :: rest))).map _ = _
    rw [ih fun p hp => h p (List.mem_cons_of_mem t hp)]
    rfl

/-- Whatever is read as parameters is made up of their descriptors. -/
theorem exists_of_readParams (chars : List Char) :
    (∃ (params : List FieldType) (rest : List Char), (∀ p ∈ params, p.Delimited) ∧
        chars = params.flatMap (·.chars) ++ ')' :: rest) ∨
      ∃ reason, readParams (charBytes chars) = .error (.invalidDescriptor reason) := by
  -- a parameter is not empty, so that less is left behind it
  induction hlength : chars.length using Nat.strongRecOn generalizing chars with
  | ind n ih =>
    cases chars with
    | nil =>
      refine .inr ⟨"truncated descriptor", ?_⟩
      rw [charBytes_nil, readParams]
    | cons c cs =>
      by_cases hparen : c = ')'
      · subst hparen
        exact .inl ⟨[], cs, by simp, rfl⟩
      · obtain ⟨b, more, hbytes, hlead⟩ := exists_lead c cs
        rw [hbytes, readParams_cons (hlead ')' (by decide) hparen), ← hbytes]
        rcases exists_of_readType (c :: cs) with ⟨t, rest, ht, hchars, hread⟩ | ⟨reason, hread⟩
        · obtain ⟨c', cs', ht', -⟩ := t.exists_chars_eq_cons
          have hlt : rest.length < n := by
            rw [← hlength, hchars, ht', List.length_append, List.length_cons]
            omega
          rcases ih rest.length hlt rest rfl with ⟨params, rest', hparams, hrest⟩ | ⟨reason, herror⟩
          · refine .inl ⟨t :: params, rest', List.forall_mem_cons.mpr ⟨ht, hparams⟩, ?_⟩
            rw [hchars, hrest, List.flatMap_cons, List.append_assoc]
          · refine .inr ⟨reason, ?_⟩
            rw [hread]
            show (readParams (charBytes rest)).map _ = _
            rw [herror]
            rfl
        · exact .inr ⟨reason, by rw [hread]; rfl⟩

namespace MethodType

/-- The names of classes hold no semicolon. -/
def Delimited (t : MethodType) : Prop :=
  (∀ p ∈ t.params, p.Delimited) ∧ ∀ r ∈ t.result, r.Delimited

theorem Legal.delimited {t : MethodType} (h : t.Legal) : t.Delimited :=
  ⟨fun p hp => (h.1 p hp).delimited, fun r hr => (h.2 r hr).delimited⟩

end MethodType

/-- The characters that say what a method gives back. -/
def resultChars (result : Option FieldType) : List Char := result.elim ['V'] (·.chars)

/-- The result is read from its descriptor, or from the letter for none. -/
theorem readResult_chars {result : Option FieldType} (h : ∀ r ∈ result, r.Delimited)
    (rest : List Char) :
    readResult (charBytes (resultChars result ++ rest)) =
      .ok (result.elim "void" (·.source), charBytes rest) := by
  cases result with
  | none =>
    show readResult (charBytes ('V' :: rest)) = _
    rw [charBytes_cons_of_lt (by decide), readResult, if_pos (byteChar_ofNat (by decide))]
    rfl
  | some r =>
    have hread := FieldType.readType_chars (h r rfl) rest
    obtain ⟨c, cs, hchars, -, hvoid⟩ := r.exists_chars_eq_cons
    obtain ⟨b, more, hbytes, hlead⟩ := exists_lead c (cs ++ rest)
    rw [← List.cons_append, ← hchars] at hbytes
    rw [hbytes] at hread
    show readResult (charBytes (r.chars ++ rest)) = _
    rw [hbytes, readResult, if_neg (hlead 'V' (by decide) hvoid), hread]
    rfl

/-- Whatever is read as a result is its descriptor, and all else is refused for its form. -/
theorem exists_of_readResult (chars : List Char) :
    (∃ (result : Option FieldType) (rest : List Char), (∀ r ∈ result, r.Delimited) ∧
        chars = resultChars result ++ rest) ∨
      ∃ reason, readResult (charBytes chars) = .error (.invalidDescriptor reason) := by
  cases chars with
  | nil => exact .inr ⟨_, rfl⟩
  | cons c cs =>
    by_cases hvoid : c = 'V'
    · subst hvoid
      exact .inl ⟨none, cs, by simp, rfl⟩
    · rcases exists_of_readType (c :: cs) with ⟨t, rest, ht, hchars, -⟩ | ⟨reason, hread⟩
      · refine .inl ⟨some t, rest, ?_, hchars⟩
        rintro r ⟨⟩
        exact ht
      · obtain ⟨b, more, hbytes, hlead⟩ := exists_lead c cs
        rw [hbytes] at hread ⊢
        exact .inr ⟨reason, by rw [readResult, if_neg (hlead 'V' (by decide) hvoid), hread]⟩

/-! ## The type of a method -/

section Method

variable {descriptor : String} {chars : List Char}

/-- Behind a parenthesis come the parameters, the result, and nothing else. -/
theorem methodType_open (hchars : descriptor.toList = '(' :: chars) :
    methodType descriptor = readParams (charBytes chars) >>= fun p => readResult p.2 >>= fun r =>
      if r.2.isEmpty then .ok (p.1, r.1) else .error (.invalidDescriptor descriptor) := by
  unfold methodType
  rw [utf8Bytes_eq_charBytes, hchars, charBytes_cons_of_lt (by decide)]
  exact if_pos (byteChar_ofNat (by decide))

/-- Without a parenthesis in front a descriptor is refused for its form. -/
theorem methodType_other (hchars : ∀ rest, descriptor.toList ≠ '(' :: rest) :
    ∃ reason, methodType descriptor = .error (.invalidDescriptor reason) := by
  unfold methodType
  rw [utf8Bytes_eq_charBytes]
  cases hlist : descriptor.toList with
  | nil => exact ⟨_, rfl⟩
  | cons c cs =>
    obtain ⟨b, more, hbytes, hlead⟩ := exists_lead c cs
    have hparen : c ≠ '(' := by
      rintro rfl
      exact hchars cs hlist
    rw [hbytes]
    exact ⟨_, if_neg (hlead '(' (by decide) hparen)⟩

end Method

/-- The parameters and the result of a method are read from its descriptor. -/
theorem methodType_of_delimited {t : MethodType} (h : t.Delimited) :
    methodType t.descriptor = .ok (t.params.map (·.source), t.resultSource) := by
  have hparams := readParams_chars h.1 (resultChars t.result)
  have hresult := readResult_chars h.2 []
  rw [List.append_nil] at hresult
  have hchars : t.descriptor.toList =
      '(' :: (t.params.flatMap (·.chars) ++ ')' :: resultChars t.result) := String.toList_ofList
  rw [methodType_open hchars, hparams]
  show (readResult (charBytes (resultChars t.result)) >>= _) = _
  rw [hresult]
  rfl

/-- The type of a method that is legal is read from its descriptor. -/
theorem methodType_descriptor {t : MethodType} (h : t.Legal) :
    methodType t.descriptor = .ok (t.params.map (·.source), t.resultSource) :=
  methodType_of_delimited h.delimited

/-! ## Whole descriptors -/

/-- A text is the descriptor of a type. -/
def FieldType.DescribedBy (t : FieldType) (descriptor : String) : Prop :=
  t.Delimited ∧ t.descriptor = descriptor

/-- A text is the descriptor of the type of a method. -/
def MethodType.DescribedBy (t : MethodType) (descriptor : String) : Prop :=
  t.Delimited ∧ t.descriptor = descriptor

section Whole

variable {descriptor : String}

/-- A text describes one type of a field at most. -/
theorem FieldType.DescribedBy.unique {t u : FieldType} (ht : t.DescribedBy descriptor)
    (hu : u.DescribedBy descriptor) : t = u := by
  have hchars : t.chars = u.chars := String.ofList_injective (ht.2.trans hu.2.symm)
  exact (FieldType.chars_append_inj ht.1 hu.1 (congrArg (· ++ []) hchars)).1

/-- The parenthesis ends the parameters, since no type starts with one. -/
theorem flatMap_chars_inj {params params' : List FieldType} {rest rest' : List Char}
    (h : ∀ p ∈ params, p.Delimited) (h' : ∀ p ∈ params', p.Delimited)
    (heq : params.flatMap (·.chars) ++ ')' :: rest = params'.flatMap (·.chars) ++ ')' :: rest') :
    params = params' ∧ rest = rest' := by
  induction params generalizing params' with
  | nil =>
    cases params' with
    | nil => exact ⟨rfl, (List.cons.inj heq).2⟩
    | cons u params' =>
      obtain ⟨c, cs, hchars, hparen, -⟩ := u.exists_chars_eq_cons
      rw [List.flatMap_cons, hchars] at heq
      exact absurd (List.cons.inj heq).1.symm hparen
  | cons t params ih =>
    cases params' with
    | nil =>
      obtain ⟨c, cs, hchars, hparen, -⟩ := t.exists_chars_eq_cons
      rw [List.flatMap_cons, hchars] at heq
      exact absurd (List.cons.inj heq).1 hparen
    | cons u params' =>
      obtain ⟨ht, hparams⟩ := List.forall_mem_cons.mp h
      obtain ⟨hu, hparams'⟩ := List.forall_mem_cons.mp h'
      rw [List.flatMap_cons, List.flatMap_cons, List.append_assoc, List.append_assoc] at heq
      obtain ⟨rfl, hmore⟩ := FieldType.chars_append_inj ht hu heq
      obtain ⟨rfl, hrest⟩ := ih hparams hparams' hmore
      exact ⟨rfl, hrest⟩

/-- What a method gives back is told by its characters. -/
theorem resultChars_inj {result result' : Option FieldType} (h : ∀ r ∈ result, r.Delimited)
    (h' : ∀ r ∈ result', r.Delimited) (heq : resultChars result = resultChars result') :
    result = result' := by
  cases result with
  | none =>
    cases result' with
    | none => rfl
    | some u =>
      obtain ⟨c, cs, hchars, -, hvoid⟩ := u.exists_chars_eq_cons
      exact absurd (List.cons.inj (heq.trans hchars)).1.symm hvoid
  | some t =>
    cases result' with
    | none =>
      obtain ⟨c, cs, hchars, -, hvoid⟩ := t.exists_chars_eq_cons
      exact absurd (List.cons.inj (hchars.symm.trans heq)).1 hvoid
    | some u =>
      have hchars : t.chars ++ [] = u.chars ++ [] := congrArg (· ++ []) heq
      rw [(FieldType.chars_append_inj (h t rfl) (h' u rfl) hchars).1]

/-- A text describes one type of a method at most. -/
theorem MethodType.DescribedBy.unique {t u : MethodType} (ht : t.DescribedBy descriptor)
    (hu : u.DescribedBy descriptor) : t = u := by
  have hchars := (List.cons.inj (String.ofList_injective (ht.2.trans hu.2.symm))).2
  obtain ⟨hparams, hrest⟩ := flatMap_chars_inj ht.1.1 hu.1.1 hchars
  have hresult := resultChars_inj ht.1.2 hu.1.2 hrest
  show MethodType.mk t.params t.result = MethodType.mk u.params u.result
  rw [hparams, hresult]

/-- A text that describes no type is refused for its form, also if a type stands in front of it. -/
theorem fieldType_of_not_described (h : ¬ ∃ t : FieldType, t.DescribedBy descriptor) :
    ∃ reason, fieldType descriptor = .error (.invalidDescriptor reason) := by
  unfold fieldType
  rw [utf8Bytes_eq_charBytes]
  rcases exists_of_readType descriptor.toList with ⟨t, rest, ht, hchars, hread⟩ | ⟨reason, hread⟩
  · rw [hread]
    cases rest with
    | nil =>
      rw [List.append_nil] at hchars
      refine absurd ⟨t, ht, ?_⟩ h
      rw [FieldType.descriptor, ← hchars, String.ofList_toList]
    | cons c cs =>
      -- something stands behind the type
      obtain ⟨b, more, hbytes, -⟩ := exists_lead c cs
      rw [hbytes]
      exact ⟨descriptor, rfl⟩
  · rw [hread]
    exact ⟨reason, rfl⟩

/-- A text that describes no type of a method is refused for its form. -/
theorem methodType_of_not_described (h : ¬ ∃ t : MethodType, t.DescribedBy descriptor) :
    ∃ reason, methodType descriptor = .error (.invalidDescriptor reason) := by
  by_cases hopen : ∃ chars, descriptor.toList = '(' :: chars
  · obtain ⟨chars, hchars⟩ := hopen
    rw [methodType_open hchars]
    rcases exists_of_readParams chars with ⟨params, rest, hparams, rfl⟩ | ⟨reason, hread⟩
    · rw [readParams_chars hparams]
      show ∃ reason, (readResult (charBytes rest) >>= _) = _
      rcases exists_of_readResult rest with ⟨result, left, hresult, rfl⟩ | ⟨reason, hread⟩
      · rw [readResult_chars hresult]
        cases left with
        | nil =>
          rw [List.append_nil] at hchars
          have hdescriptor : descriptor = (MethodType.mk params result).descriptor := by
            apply String.toList_inj.mp
            rw [hchars]
            exact String.toList_ofList.symm
          exact absurd ⟨⟨params, result⟩, ⟨hparams, hresult⟩, hdescriptor.symm⟩ h
        | cons c cs =>
          -- something stands behind the result
          obtain ⟨b, more, hbytes, -⟩ := exists_lead c cs
          rw [hbytes]
          exact ⟨descriptor, rfl⟩
      · rw [hread]
        exact ⟨reason, rfl⟩
    · rw [hread]
      exact ⟨reason, rfl⟩
  · exact methodType_other fun rest hchars => hopen ⟨rest, hchars⟩

end Whole

/-- A text is read as the type of a field, or as that of a method, exactly if it is the descriptor
of one, which then is the only one that it describes and is given as it is written in source. Every
other text is refused for its form: what is cut out of a text as a name is never found to be no
text. -/
theorem descriptors_read_exactly (descriptor : String) :
    (((∃! t : FieldType, t.DescribedBy descriptor) ∧
          ∃ t : FieldType, t.DescribedBy descriptor ∧ fieldType descriptor = .ok t.source) ∨
        (¬ ∃ t : FieldType, t.DescribedBy descriptor) ∧
          ∃ reason, fieldType descriptor = .error (.invalidDescriptor reason)) ∧
      (((∃! t : MethodType, t.DescribedBy descriptor) ∧
          ∃ t : MethodType, t.DescribedBy descriptor ∧
            methodType descriptor = .ok (t.params.map (·.source), t.resultSource)) ∨
        (¬ ∃ t : MethodType, t.DescribedBy descriptor) ∧
          ∃ reason, methodType descriptor = .error (.invalidDescriptor reason)) := by
  constructor
  · by_cases h : ∃ t : FieldType, t.DescribedBy descriptor
    · obtain ⟨t, ht⟩ := h
      refine .inl ⟨⟨t, ht, fun u hu => hu.unique ht⟩, t, ht, ?_⟩
      rw [← ht.2, fieldType_of_delimited ht.1]
    · exact .inr ⟨h, fieldType_of_not_described h⟩
  · by_cases h : ∃ t : MethodType, t.DescribedBy descriptor
    · obtain ⟨t, ht⟩ := h
      refine .inl ⟨⟨t, ht, fun u hu => hu.unique ht⟩, t, ht, ?_⟩
      rw [← ht.2, methodType_of_delimited ht.1]
    · exact .inr ⟨h, methodType_of_not_described h⟩

/-! ## Any number of arguments -/

theorem toList_append_brackets (text : String) :
    (text ++ "[]").toList = text.toList ++ ['[', ']'] := by
  rw [String.toList_append]
  rfl

/-- The brackets of an array are written as dots. -/
theorem varargsType_append_brackets (text : String) :
    varargsType (text ++ "[]") = text ++ "..." := by
  have hends : (text ++ "[]").endsWith "[]" = true := Path.endsWith_iff.mpr ⟨text, rfl⟩
  have hlength : (text ++ "[]").length - 2 = text.toList.length := by
    rw [← String.length_toList, toList_append_brackets]
    simp
  unfold varargsType
  rw [if_pos hends, hlength, toList_append_brackets, List.take_left', String.ofList_toList]
  rfl

/-- A type without brackets stays as it is. -/
theorem varargsType_of_not_mem {text : String} (h : '[' ∉ text.toList) :
    varargsType text = text := by
  unfold varargsType
  rw [if_neg]
  rw [Path.endsWith_iff]
  rintro ⟨front, rfl⟩
  rw [toList_append_brackets] at h
  simp at h

/-- The last parameter of a method that takes any number of arguments. -/
theorem varargsType_source {t : FieldType} (h : t.Legal) :
    varargsType t.source = t.variableSource := by
  cases t with
  | primitive p =>
    apply varargsType_of_not_mem
    cases p <;> decide +kernel
  | reference internal =>
    apply varargsType_of_not_mem
    -- a bracket in the written name would be one in the name of the class
    intro hmem
    unfold FieldType.source javaName at hmem
    rw [String.toList_ofList, List.mem_map] at hmem
    obtain ⟨c, hc, heq⟩ := hmem
    split at heq
    · cases heq
    · exact h.2 (heq ▸ hc)
  | array element => exact varargsType_append_brackets element.source

/-- The types of parameters, the last one as it is declared. -/
theorem paramSources_eq {params : List FieldType} (h : ∀ p ∈ params, p.Legal) (isVariable : Bool) :
    paramSources isVariable params =
      if isVariable then
        (params.map (·.source)).dropLast ++ (params.map (·.source)).getLast?.toList.map varargsType
      else params.map (·.source) := by
  induction params with
  | nil => cases isVariable <;> rfl
  | cons t params ih =>
    have hrest := ih fun p hp => h p (List.mem_cons_of_mem t hp)
    cases params with
    | nil =>
      cases isVariable with
      | false => rfl
      | true => simp [paramSources, varargsType_source (h t List.mem_cons_self)]
    | cons u params =>
      rw [paramSources, hrest]
      · cases isVariable <;> simp
      · exact List.cons_ne_nil u params

end JavaAtlas.ClassFile
