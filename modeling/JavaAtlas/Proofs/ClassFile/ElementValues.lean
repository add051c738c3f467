import JavaAtlas.Proofs.ClassFile.Attributes
import JavaAtlas.Proofs.ClassFile.RawPool

namespace JavaAtlas.ClassFile

/-! # Values in annotations are passed over exactly

The letter in front of a value says what follows it: so many bytes, or a count of further values,
nested to any depth. The counts are not to be trusted; what bounds the reading is the number of
bytes that are left, of which every level of nesting takes one.

* `skipElementValue_eq`: no depth beyond the number of bytes makes a difference, so that
  `elementValue` needs none;
* `elementValue_nested`, `elementValue_array`: it goes on with itself;
* `elementValue_takes`: what it takes off is a value, by induction on the depth;
* `blames_elementValue`: why it fails, by induction on the number of bytes;
* `elementValue_eq_unexpectedEof_iff`: where bytes are missing, some would complete a value;
* `element_value_passed_over_exactly`: what follows for a place in some bytes;
* `skipElements_eq_ok_iff`: the same for the elements of a whole annotation, as the readers of
  classes and members use it. It is a result of its own.
-/

open ElementValue

/-! ## Letters -/

/-- The kinds of values that are one constant. -/
def valueKinds : List ValueKind :=
  [.primitive .byte, .primitive .char, .primitive .double, .primitive .float, .primitive .int,
    .primitive .long, .primitive .short, .primitive .boolean, .string, .classInfo]

/-- The letters that stand in front of values. -/
def valueLetters : List Char := valueKinds.map ValueKind.letter ++ ['e', '@', '[']

/-- A byte is the letter of some values, or of none. -/
inductive LetterCase : UInt8 → Prop
  | constant (kind : ValueKind) : LetterCase (letterByte kind.letter)
  | enumConstant : LetterCase (letterByte 'e')
  | nested : LetterCase (letterByte '@')
  | array : LetterCase (letterByte '[')
  | unknown {tag : UInt8} (h : ∀ c ∈ valueLetters, tag ≠ letterByte c) : LetterCase tag

/-- Every byte is of one of these kinds. -/
theorem letterCase (tag : UInt8) : LetterCase tag := by
  by_cases h : ∃ c ∈ valueLetters, tag = letterByte c
  · obtain ⟨c, hc, rfl⟩ := h
    rcases List.mem_append.mp hc with hc | hc
    · obtain ⟨kind, -, rfl⟩ := List.mem_map.mp hc
      exact .constant kind
    · simp only [List.mem_cons, List.not_mem_nil, or_false] at hc
      rcases hc with rfl | rfl | rfl
      · exact .enumConstant
      · exact .nested
      · exact .array
  · exact .unknown fun c hc heq => h ⟨c, hc, heq⟩

/-- A value begins with a letter of values. -/
theorem exists_letter (v : ElementValue) :
    ∃ c ∈ valueLetters, v.encode.head? = some (letterByte c) := by
  cases v with
  | constant kind index =>
    refine ⟨kind.letter, ?_, rfl⟩
    cases kind with
    | primitive p => cases p <;> decide
    | string => decide
    | classInfo => decide
  | enumConstant typeIndex nameIndex => exact ⟨'e', by decide, rfl⟩
  | nested typeIndex elements => exact ⟨'@', by decide, rfl⟩
  | array values => exact ⟨'[', by decide, rfl⟩

/-- A byte is told by the character that a reader makes of it. -/
theorem eq_letterByte {tag : UInt8} {c : Char} (h : Char.ofNat tag.toNat = c) :
    tag = letterByte c := by
  have hvalid : tag.toNat.isValidChar := .inl (Nat.lt_trans tag.toNat_lt (by decide))
  have hnat : c.toNat = tag.toNat := by
    rw [← h, Char.ofNat, dif_pos hvalid]
    rfl
  rw [letterByte, hnat, UInt8.ofNat_toNat]

/-- Passes over an annotation in an annotation, given how its values are passed over. -/
def passNested (value : Reader Unit) : Reader Unit := do
  skip 2
  let _ ← counted (do skip 2; value)
  return ()

/-- Passes over counted values. -/
def passArray (value : Reader Unit) : Reader Unit := do
  let _ ← counted value
  return ()

section Depth

variable (depth : Nat) (rest : List UInt8)

/-- A constant is a number of the pool. -/
theorem skipElementValue_constant (kind : ValueKind) :
    skipElementValue (depth + 1) (letterByte kind.letter :: rest) = skip 2 rest := by
  cases kind with
  | primitive p => cases p <;> rfl
  | string => rfl
  | classInfo => rfl

/-- A constant of an enumeration is two numbers, of its type and of its name. -/
@[simp]
theorem skipElementValue_enumConstant :
    skipElementValue (depth + 1) (letterByte 'e' :: rest) = skip 4 rest := rfl

/-- An annotation is passed over with one level less to go. -/
@[simp]
theorem skipElementValue_nested :
    skipElementValue (depth + 1) (letterByte '@' :: rest) =
      passNested (skipElementValue depth) rest := rfl

/-- An array is passed over with one level less to go. -/
@[simp]
theorem skipElementValue_array :
    skipElementValue (depth + 1) (letterByte '[' :: rest) =
      passArray (skipElementValue depth) rest := rfl

/-- A byte that is no letter of values is refused, and named in the error. -/
theorem skipElementValue_unknown {tag : UInt8} (h : ∀ c ∈ valueLetters, tag ≠ letterByte c) :
    skipElementValue (depth + 1) (tag :: rest) = .error (.invalidElementTag tag.toNat) := by
  have hletter : ∀ c ∈ valueLetters, Char.ofNat tag.toNat ≠ c :=
    fun c hc heq => h c hc (eq_letterByte heq)
  rw [skipElementValue, ← List.singleton_append, (reads_tag tag).run_bind]
  refine congrFun (g := fail (.invalidElementTag tag.toNat)) ?_ rest
  split
  all_goals first
    | rfl
    | exact absurd ‹_› (hletter _ (by decide))

end Depth

/-! ## Depth -/

section Agreement

variable {α β : Type} {n : Nat} {read read' : Reader α}

/-- Two readers do the same with at most so many bytes. -/
def AgreeUpTo (n : Nat) (read read' : Reader α) : Prop :=
  ∀ ⦃input : List UInt8⦄, input.length ≤ n → read input = read' input

theorem AgreeUpTo.refl (read : Reader α) : AgreeUpTo n read read := fun _ _ => rfl

/-- A first step that succeeds leaves at most as many bytes to the second. -/
theorem AgreeUpTo.bind {next next' : α → Reader β} (h : AgreeUpTo n read read')
    (hread : Frugal read) (hnext : ∀ a, AgreeUpTo n (next a) (next' a)) :
    AgreeUpTo n (read >>= next) (read' >>= next') := by
  intro input hlength
  have hbind : ∀ (read : Reader α) (next : α → Reader β),
      (read >>= next) input = read input >>= fun p => next p.1 p.2 := fun _ _ => rfl
  rw [hbind, hbind, ← h hlength]
  -- the first step is the same, and if it fails so is everything
  cases hfirst : read input with
  | error e => rfl
  | ok p =>
    obtain ⟨a, rest⟩ := p
    obtain ⟨taken, rfl, -⟩ := hread hfirst
    rw [List.length_append] at hlength
    exact hnext a (show rest.length ≤ n by omega)

/-- Readers that do the same may both be repeated. -/
theorem AgreeUpTo.times (h : AgreeUpTo n read read') (hread : Frugal read) (count : Nat) :
    AgreeUpTo n (times read count) (times read' count) := by
  induction count with
  | zero => exact .refl _
  | succ count ih => exact h.bind hread fun _ => ih.bind (hread.times count) fun _ => .refl _

/-- They may be repeated as often as a count in front says. -/
theorem AgreeUpTo.counted (h : AgreeUpTo n read read') (hread : Frugal read) :
    AgreeUpTo n (counted read) (counted read') :=
  (AgreeUpTo.refl u2).bind frugal_u2 fun count => h.times hread count

end Agreement

section Nested

variable {n : Nat} {value value' : Reader Unit}

/-- An annotation is passed over frugally if its values are. -/
theorem Frugal.passNested (h : Frugal value) : Frugal (passNested value) :=
  (frugal_skip 2).bind fun _ => ((frugal_skip 2).bind fun _ => h).counted.bind fun _ => .pure ()

/-- An array is passed over frugally if its values are. -/
theorem Frugal.passArray (h : Frugal value) : Frugal (passArray value) :=
  h.counted.bind fun _ => .pure ()

/-- How values are passed over decides how an annotation is. -/
theorem AgreeUpTo.passNested (h : AgreeUpTo n value value') (hvalue : Frugal value) :
    AgreeUpTo n (passNested value) (passNested value') := by
  have hnamed : Frugal (do skip 2; value) := (frugal_skip 2).bind fun _ => hvalue
  have hstep : AgreeUpTo n (do skip 2; value) (do skip 2; value') :=
    (AgreeUpTo.refl _).bind (frugal_skip 2) fun _ => h
  exact (AgreeUpTo.refl _).bind (frugal_skip 2) fun _ =>
    (hstep.counted hnamed).bind hnamed.counted fun _ => .refl _

/-- How values are passed over decides how an array is. -/
theorem AgreeUpTo.passArray (h : AgreeUpTo n value value') (hvalue : Frugal value) :
    AgreeUpTo n (passArray value) (passArray value') :=
  (h.counted hvalue).bind hvalue.counted fun _ => .refl _

end Nested

/-- Whatever the depth, a value that is passed over is asked for byte by byte. -/
theorem frugal_skipElementValue (depth : Nat) : Frugal (skipElementValue depth) := by
  induction depth with
  | zero => exact frugal_fail _
  | succ depth ih =>
    refine frugal_u1.bind fun tag => ?_
    split
    -- the letters of one constant, an enumeration, an annotation, an array, and of nothing
    all_goals try exact frugal_skip _
    · exact ih.passNested
    · exact ih.passArray
    · exact frugal_fail _

/-- A value that is nested deeper than there are bytes is never reached. -/
theorem agree_skipElementValue (depth : Nat) :
    AgreeUpTo depth (skipElementValue depth) (skipElementValue (depth + 1)) := by
  induction depth with
  | zero =>
    intro input hlength
    rw [List.length_eq_zero_iff.mp (Nat.le_zero.mp hlength)]
    rfl
  | succ depth ih =>
    intro input hlength
    cases input with
    | nil => rfl
    | cons tag rest =>
      have hrest : rest.length ≤ depth := Nat.le_of_succ_le_succ hlength
      -- only values in values need the level that is lost, and they have a byte less
      cases letterCase tag with
      | constant kind => rw [skipElementValue_constant, skipElementValue_constant]
      | enumConstant => rfl
      | nested =>
        rw [skipElementValue_nested, skipElementValue_nested]
        exact ih.passNested (frugal_skipElementValue depth) hrest
      | array =>
        rw [skipElementValue_array, skipElementValue_array]
        exact ih.passArray (frugal_skipElementValue depth) hrest
      | unknown h => rw [skipElementValue_unknown _ _ h, skipElementValue_unknown _ _ h]

/-- Passes over a value, however deep it is nested. -/
def elementValue : Reader Unit := fun input => skipElementValue input.length input

/-- Any depth that is not less than the number of bytes does the same. -/
theorem skipElementValue_eq {depth : Nat} {input : List UInt8} (h : input.length ≤ depth) :
    skipElementValue depth input = elementValue input := by
  induction depth, h using Nat.le_induction with
  | base => rfl
  | succ depth h ih => rw [← agree_skipElementValue depth h, ih]

/-- A value is passed over frugally without a bound on the depth, too. -/
theorem frugal_elementValue : Frugal elementValue := by
  intro input _ rest hread
  -- any depth that is enough for the bytes takes the same ones
  have hdeep : ∀ depth, input.length ≤ depth →
      ∃ taken, input = taken ++ rest ∧ Needs (skipElementValue depth) taken () :=
    fun depth h => frugal_skipElementValue depth ((skipElementValue_eq h).trans hread)
  obtain ⟨taken, rfl, hneeds⟩ := hdeep input.length (Nat.le_refl _)
  refine ⟨taken, rfl, ?_, ?_⟩
  · -- more bytes behind the value make the bound larger, which changes nothing
    intro more
    obtain ⟨taken', htaken, hneeds'⟩ :=
      hdeep ((taken ++ rest).length + more.length) (Nat.le_add_right _ _)
    rw [← List.append_cancel_right htaken] at hneeds'
    have henough : (taken ++ more).length ≤ (taken ++ rest).length + more.length := by
      simp only [List.length_append]
      omega
    rw [← skipElementValue_eq henough]
    exact hneeds'.reads more
  · intro k hk
    have henough : (taken.take k).length ≤ (taken ++ rest).length := by
      simp only [List.length_take, List.length_append]
      omega
    rw [← skipElementValue_eq henough]
    exact hneeds.cut k hk

section Letters

variable (rest : List UInt8)

/-- Behind the letter of a constant there is a number. -/
theorem elementValue_constant (kind : ValueKind) :
    elementValue (letterByte kind.letter :: rest) = skip 2 rest :=
  skipElementValue_constant rest.length rest kind

/-- Behind the letter of enumerations there are two numbers. -/
@[simp]
theorem elementValue_enumConstant : elementValue (letterByte 'e' :: rest) = skip 4 rest := rfl

/-- Behind the letter of annotations there is one whose values are passed over like this one. -/
theorem elementValue_nested :
    elementValue (letterByte '@' :: rest) = passNested elementValue rest := by
  have hagree : AgreeUpTo rest.length (skipElementValue rest.length) elementValue :=
    fun _ h => skipElementValue_eq h
  exact hagree.passNested (frugal_skipElementValue _) (Nat.le_refl _)

/-- Behind the letter of arrays there are values that are passed over like this one. -/
theorem elementValue_array :
    elementValue (letterByte '[' :: rest) = passArray elementValue rest := by
  have hagree : AgreeUpTo rest.length (skipElementValue rest.length) elementValue :=
    fun _ h => skipElementValue_eq h
  exact hagree.passArray (frugal_skipElementValue _) (Nat.le_refl _)

/-- No other letter is taken. -/
theorem elementValue_unknown {tag : UInt8} (h : ∀ c ∈ valueLetters, tag ≠ letterByte c) :
    elementValue (tag :: rest) = .error (.invalidElementTag tag.toNat) :=
  skipElementValue_unknown rest.length rest h

end Letters

/-! ## What is taken off is a value -/

section Takes

variable {α β γ δ : Type} {read : Reader β} {encode : α → List UInt8} {Legal : α → Prop}

/-- Whatever a reader takes off are the bytes of something legal. -/
def Takes (read : Reader β) (encode : α → List UInt8) (Legal : α → Prop) : Prop :=
  ∀ ⦃input : List UInt8⦄ ⦃b : β⦄ ⦃rest : List UInt8⦄, read input = .ok (b, rest) →
    ∃ x, Legal x ∧ input = encode x ++ rest

/-- Two bytes are always a number. -/
theorem takes_index : Takes (skip 2) (fun i : UInt16 => numberBytes 2 i.toNat) fun _ => True := by
  intro input _ rest hread
  obtain ⟨i, rfl⟩ := exists_index_of_skip hread
  exact ⟨i, trivial, rfl⟩

/-- Four bytes are always two numbers. -/
theorem takes_twoIndices : Takes (skip 4)
    (fun p : UInt16 × UInt16 => numberBytes 2 p.1.toNat ++ numberBytes 2 p.2.toNat)
    fun _ => True := by
  intro input _ rest hread
  obtain ⟨taken, rfl, hlength⟩ := skip_eq_ok hread
  have hfirst : (taken.take 2).length = 2 := by simp [hlength]
  have hsecond : (taken.drop 2).length = 2 := by simp [hlength]
  obtain ⟨i, hi⟩ := exists_index_of_skip (reads_skip hfirst [])
  obtain ⟨j, hj⟩ := exists_index_of_skip (reads_skip hsecond [])
  rw [List.append_nil, List.append_nil] at hi hj
  refine ⟨(i, j), trivial, ?_⟩
  show taken ++ rest = numberBytes 2 i.toNat ++ numberBytes 2 j.toNat ++ rest
  rw [← hi, ← hj, List.take_append_drop]

/-- One thing after the other. -/
theorem Takes.bind {next : Reader δ} {encode' : γ → List UInt8} {Legal' : γ → Prop}
    (h : Takes read encode Legal) (hnext : Takes next encode' Legal') :
    Takes (do let _ ← read; next) (fun p : α × γ => encode p.1 ++ encode' p.2)
      fun p => Legal p.1 ∧ Legal' p.2 := by
  intro input _ rest hread
  obtain ⟨_, left, hfirst, hsecond⟩ := exists_of_run_bind hread
  obtain ⟨x, hx, rfl⟩ := h hfirst
  obtain ⟨y, hy, rfl⟩ := hnext hsecond
  exact ⟨(x, y), ⟨hx, hy⟩, (List.append_assoc _ _ _).symm⟩

/-- What is read several times over are the bytes of so many legal things. -/
theorem Takes.times (h : Takes read encode Legal) (count : Nat) :
    Takes (times read count) (·.flatMap encode)
      fun xs : List α => xs.length = count ∧ ∀ x ∈ xs, Legal x := by
  induction count with
  | zero =>
    rintro input _ rest ⟨⟩
    exact ⟨[], ⟨rfl, fun x hx => (List.not_mem_nil hx).elim⟩, rfl⟩
  | succ count ih =>
    intro input _ rest hread
    -- one of them is read first, then the others
    obtain ⟨b, left, hfirst, hread⟩ := exists_of_run_bind hread
    obtain ⟨more, left', htimes, hdone⟩ := exists_of_run_bind hread
    cases hdone
    obtain ⟨x, hx, rfl⟩ := h hfirst
    obtain ⟨xs, ⟨rfl, hxs⟩, rfl⟩ := ih htimes
    exact ⟨x :: xs, ⟨rfl, List.forall_mem_cons.mpr ⟨hx, hxs⟩⟩, by simp⟩

/-- The count that was read is that of the legal things behind it. -/
theorem Takes.counted (h : Takes read encode Legal) :
    Takes (counted read) (countedBytes encode)
      fun xs : List α => xs.length < 2 ^ 16 ∧ ∀ x ∈ xs, Legal x := by
  intro input _ rest hread
  obtain ⟨count, left, hcount, htimes⟩ := exists_of_run_bind hread
  obtain ⟨xs, ⟨rfl, hxs⟩, rfl⟩ := h.times count htimes
  obtain ⟨rfl, hlt⟩ := number_eq_ok hcount
  exact ⟨xs, ⟨hlt, hxs⟩, (List.append_assoc _ _ _).symm⟩

end Takes

/-- Named values, if only values are taken off as such. -/
theorem takes_elements {value : Reader Unit}
    (h : Takes value ElementValue.encode ElementValue.Fits) :
    Takes (counted (do skip 2; value)) (countedBytes elementBytes)
      fun elements => elements.length < 2 ^ 16 ∧ ∀ e ∈ elements, e.2.Fits := by
  intro input _ rest hread
  obtain ⟨elements, ⟨hcount, hall⟩, rfl⟩ := (takes_index.bind h).counted hread
  exact ⟨elements, ⟨hcount, fun e he => (hall e he).2⟩, rfl⟩

/-- What is passed over as a value are the bytes of one. -/
theorem skipElementValue_takes (depth : Nat) :
    Takes (skipElementValue depth) ElementValue.encode ElementValue.Fits := by
  induction depth with
  | zero =>
    intro input _ rest hread
    cases hread
  | succ depth ih =>
    intro input _ rest hread
    cases input with
    | nil => cases hread
    | cons tag behind =>
      cases letterCase tag with
      | constant kind =>
        rw [skipElementValue_constant] at hread
        obtain ⟨i, -, rfl⟩ := takes_index hread
        exact ⟨.constant kind i, .constant kind i, rfl⟩
      | enumConstant =>
        rw [skipElementValue_enumConstant] at hread
        obtain ⟨⟨i, j⟩, -, rfl⟩ := takes_twoIndices hread
        exact ⟨.enumConstant i j, .enumConstant i j, rfl⟩
      | nested =>
        rw [skipElementValue_nested] at hread
        obtain ⟨_, left, htype, hread⟩ := exists_of_run_bind hread
        obtain ⟨_, left', hvalues, hdone⟩ := exists_of_run_bind hread
        cases hdone
        obtain ⟨i, -, rfl⟩ := takes_index htype
        obtain ⟨elements, ⟨hcount, hall⟩, rfl⟩ := takes_elements ih hvalues
        refine ⟨.nested i elements, .nested i hcount hall, ?_⟩
        rw [encode_nested, List.append_assoc, List.append_assoc]
        rfl
      | array =>
        rw [skipElementValue_array] at hread
        obtain ⟨_, left, hvalues, hdone⟩ := exists_of_run_bind hread
        cases hdone
        obtain ⟨values, ⟨hcount, hall⟩, rfl⟩ := ih.counted hvalues
        refine ⟨.array values, .array hcount hall, ?_⟩
        rw [encode_array]
        rfl
      | unknown h =>
        rw [skipElementValue_unknown _ _ h] at hread
        cases hread

/-- Without a bound on the depth, too, only values are passed over. -/
theorem elementValue_takes : Takes elementValue ElementValue.encode ElementValue.Fits :=
  fun input _ _ hread => skipElementValue_takes input.length hread

/-- A value that fits is passed over. -/
theorem reads_elementValue {v : ElementValue} (h : v.Fits) : Reads elementValue v.encode () := by
  intro rest
  exact reads_skipElementValue h (by simp) rest

/-- Exactly the values that fit are passed over. -/
theorem elementValue_eq_ok_iff {input rest : List UInt8} :
    elementValue input = .ok ((), rest) ↔
      ∃ v : ElementValue, v.Fits ∧ input = v.encode ++ rest := by
  constructor
  · intro hread
    exact elementValue_takes hread
  · rintro ⟨v, hv, rfl⟩
    exact reads_elementValue hv rest

/-! ## Why a value cannot be passed over -/

/-- Why a reader fails: the bytes are too few, and it would take all of them with some more behind
them, or one of them stands where the letter of a value should. -/
inductive FaultIn {α : Type} (read : Reader α) (input : List UInt8) : ClassError → Prop
  | cut (more : List UInt8) (a : α) (goesOn : read (input ++ more) = .ok (a, [])) :
    FaultIn read input .unexpectedEof
  | letter {tag : UInt8} (mem : tag ∈ input) (unknown : ∀ c ∈ valueLetters, tag ≠ letterByte c) :
    FaultIn read input (.invalidElementTag tag.toNat)

/-- With at most so many bytes a reader fails for these reasons only. -/
structure Blames {α : Type} (n : Nat) (read : Reader α) : Prop where
  frugal : Frugal read
  succeeds : ∃ bs a, Reads read bs a
  fault : ∀ ⦃input : List UInt8⦄, input.length ≤ n → ∀ ⦃e : ClassError⦄,
    read input = .error e → FaultIn read input e

section Blames

variable {α β : Type} {n : Nat} {read : Reader α}

/-- A reader that reads nothing does not fail. -/
theorem Blames.pure (a : α) : Blames n (pure a : Reader α) where
  frugal := .pure a
  succeeds := ⟨[], a, .pure a⟩
  fault := by
    intro input _ e herror
    cases herror

/-- If the first step lacks bytes, it is given what it lacks and then what the second one takes. -/
theorem Blames.bind {next : α → Reader β} (h : Blames n read) (hnext : ∀ a, Blames n (next a)) :
    Blames n (read >>= next) where
  frugal := h.frugal.bind fun a => (hnext a).frugal
  succeeds := by
    obtain ⟨bs, a, hread⟩ := h.succeeds
    obtain ⟨cs, b, hthen⟩ := (hnext a).succeeds
    exact ⟨bs ++ cs, b, hread.bind hthen⟩
  fault := by
    intro input hlength e herror
    have hbind : (read >>= next) input = read input >>= fun p => next p.1 p.2 := rfl
    rw [hbind] at herror
    cases hfirst : read input with
    | error e' =>
      rw [hfirst] at herror
      cases herror
      cases h.fault hlength hfirst with
      | cut more a hmore =>
        -- with what it lacks, the first step would take everything
        obtain ⟨taken, htaken, hneeds⟩ := h.frugal hmore
        obtain ⟨cs, b, hthen⟩ := (hnext a).succeeds
        refine .cut (more ++ cs) b ?_
        rw [← List.append_assoc, htaken, List.append_nil, hneeds.reads.run_bind, hthen.eq_ok]
      | letter hmem hunknown => exact .letter hmem hunknown
    | ok p =>
      obtain ⟨a, rest⟩ := p
      rw [hfirst] at herror
      obtain ⟨taken, rfl, hneeds⟩ := h.frugal hfirst
      rw [List.length_append] at hlength
      cases (hnext a).fault (show rest.length ≤ n by omega) herror with
      | cut more b hmore =>
        -- the first step is done, and what lacks behind it lacks behind all
        refine .cut more b ?_
        rw [List.append_assoc, hneeds.reads.run_bind, hmore]
      | letter hmem hunknown => exact .letter (List.mem_append_right taken hmem) hunknown

/-- Where there are enough bytes the first ones are taken. -/
theorem bytes_of_le {count : Nat} {input : List UInt8} (h : count ≤ input.length) :
    bytes count input = .ok (input.take count, input.drop count) := by
  have hread := reads_bytes (input.take count) (input.drop count)
  rwa [List.length_take, Nat.min_eq_left h, List.take_append_drop] at hread

/-- Bytes are refused only if there are too few. -/
theorem blames_bytes (count : Nat) : Blames n (bytes count) where
  frugal := frugal_bytes count
  succeeds := by
    have hread := reads_bytes (List.replicate count 0)
    rw [List.length_replicate] at hread
    exact ⟨_, _, hread⟩
  fault := by
    intro input _ e herror
    by_cases hlength : input.length < count
    · unfold bytes at herror
      rw [takeBytes?_of_length_lt hlength] at herror
      cases herror
      -- any bytes will do for those that are missing
      have hread := (reads_bytes (input ++ List.replicate (count - input.length) 0)).eq_ok
      rw [List.length_append, List.length_replicate,
        Nat.add_sub_cancel' (Nat.le_of_lt hlength)] at hread
      exact .cut _ _ hread
    · -- there are enough, so that nothing fails
      rw [bytes_of_le (Nat.le_of_not_lt hlength)] at herror
      cases herror

/-- So bytes that are to be passed over may be too few, and nothing else. -/
theorem blames_skip (count : Nat) : Blames n (skip count) :=
  (blames_bytes count).bind fun _ => .pure ()

theorem blames_u2 : Blames n u2 := (blames_bytes 2).bind fun _ => .pure _

/-- A reader may be repeated. -/
theorem Blames.times (h : Blames n read) (count : Nat) : Blames n (times read count) := by
  induction count with
  | zero => exact .pure []
  | succ count ih => exact h.bind fun _ => ih.bind fun _ => .pure _

/-- A count in front may lack bytes, too. -/
theorem Blames.counted (h : Blames n read) : Blames n (counted read) :=
  blames_u2.bind fun count => h.times count

/-- An annotation fails for its values, or for lack of bytes. -/
theorem Blames.passNested {value : Reader Unit} (h : Blames n value) :
    Blames n (passNested value) :=
  (blames_skip 2).bind fun _ => ((blames_skip 2).bind fun _ => h).counted.bind fun _ => .pure ()

/-- An array fails for its values, or for lack of bytes. -/
theorem Blames.passArray {value : Reader Unit} (h : Blames n value) : Blames n (passArray value) :=
  h.counted.bind fun _ => .pure ()

end Blames

/-- What is at fault behind a letter is at fault. -/
theorem FaultIn.behind {tag : UInt8} {rest : List UInt8} {e : ClassError} {follow : Reader Unit}
    (hfollow : ∀ rest, elementValue (tag :: rest) = follow rest) (h : FaultIn follow rest e) :
    FaultIn elementValue (tag :: rest) e := by
  cases h with
  | cut more u hmore =>
    refine .cut more u ?_
    rw [List.cons_append, hfollow, hmore]
  | letter hmem hunknown => exact .letter (List.mem_cons_of_mem tag hmem) hunknown

/-- Where there is no byte at all, a value is missing. -/
theorem faultIn_elementValue_nil {e : ClassError} (h : elementValue [] = .error e) :
    FaultIn elementValue [] e := by
  cases h
  exact .cut _ _ (reads_elementValue (.constant .string 0)).eq_ok

/-- A value fails for lack of bytes or for a letter, however long the input is. -/
theorem blames_elementValue (n : Nat) : Blames n elementValue := by
  induction n with
  | zero =>
    refine ⟨frugal_elementValue, ⟨_, _, reads_elementValue (.constant .string 0)⟩, ?_⟩
    intro input hlength e herror
    obtain rfl := List.length_eq_zero_iff.mp (Nat.le_zero.mp hlength)
    exact faultIn_elementValue_nil herror
  | succ n ih =>
    refine ⟨ih.frugal, ih.succeeds, ?_⟩
    intro input hlength e herror
    cases input with
    | nil => exact faultIn_elementValue_nil herror
    | cons tag rest =>
      have hrest : rest.length ≤ n := Nat.le_of_succ_le_succ hlength
      -- what follows the letter is at fault
      have hbehind : ∀ follow : Reader Unit, (∀ rest, elementValue (tag :: rest) = follow rest) →
          Blames n follow → FaultIn elementValue (tag :: rest) e :=
        fun follow hfollow hblames =>
          .behind hfollow (hblames.fault hrest ((hfollow rest).symm.trans herror))
      cases letterCase tag with
      | constant kind =>
        exact hbehind _ (fun rest => elementValue_constant rest kind) (blames_skip 2)
      | enumConstant => exact hbehind _ elementValue_enumConstant (blames_skip 4)
      | nested => exact hbehind _ elementValue_nested ih.passNested
      | array => exact hbehind _ elementValue_array ih.passArray
      | unknown h =>
        rw [elementValue_unknown rest h] at herror
        cases herror
        exact .letter List.mem_cons_self h

theorem elementValue_eq_unexpectedEof_iff {input : List UInt8} :
    elementValue input = .error .unexpectedEof ↔
      ∃ (v : ElementValue) (more : List UInt8), v.Fits ∧ more ≠ [] ∧ v.encode = input ++ more := by
  constructor
  · intro herror
    cases (blames_elementValue _).fault (Nat.le_refl _) herror with
    | cut more u hmore =>
      obtain ⟨v, hv, hencode⟩ := elementValue_takes hmore
      rw [List.append_nil] at hencode
      refine ⟨v, more, hv, ?_, hencode.symm⟩
      rintro rfl
      rw [List.append_nil, herror] at hmore
      cases hmore
  · rintro ⟨v, more, hv, hmore, hencode⟩
    obtain ⟨taken, htaken, hneeds⟩ := frugal_elementValue (reads_elementValue hv).eq_ok
    rw [List.append_nil] at htaken
    have hshort : input.length < taken.length := by
      have hpos := List.length_pos_iff.mpr hmore
      rw [← htaken, hencode, List.length_append]
      omega
    have hcut := hneeds.cut input.length hshort
    rwa [← htaken, hencode, List.take_left] at hcut

/-! ## Elements -/

/-- Where elements are passed over, the depth is enough for any value. -/
theorem skipElements_eq : skipElements = (do
    let _ ← counted (do skip 2; elementValue)
    return ()) := by
  funext input
  have hvalue : AgreeUpTo input.length (skipElementValue (input.length + 1)) elementValue :=
    fun _ h => skipElementValue_eq (Nat.le_succ_of_le h)
  have hframe : Frugal (do skip 2; skipElementValue (input.length + 1)) :=
    (frugal_skip 2).bind fun _ => frugal_skipElementValue _
  have hnamed : AgreeUpTo input.length (do skip 2; skipElementValue (input.length + 1))
      (do skip 2; elementValue) :=
    (AgreeUpTo.refl _).bind (frugal_skip 2) fun _ => hvalue
  have hall : AgreeUpTo input.length
      (do let _ ← counted (do skip 2; skipElementValue (input.length + 1)); return ())
      (do let _ ← counted (do skip 2; elementValue); return ()) :=
    (hnamed.counted hframe).bind hframe.counted fun _ => .refl _
  exact hall (Nat.le_refl _)

/-- The elements of an annotation are passed over exactly if they are so many named values. -/
theorem skipElements_eq_ok_iff {input rest : List UInt8} :
    skipElements input = .ok ((), rest) ↔ ∃ elements : List (UInt16 × ElementValue),
      elements.length < 2 ^ 16 ∧ (∀ e ∈ elements, e.2.Fits) ∧
        input = countedBytes elementBytes elements ++ rest := by
  constructor
  · intro hread
    rw [skipElements_eq] at hread
    obtain ⟨_, left, hvalues, hdone⟩ := exists_of_run_bind hread
    cases hdone
    obtain ⟨elements, ⟨hcount, hall⟩, rfl⟩ := takes_elements elementValue_takes hvalues
    exact ⟨elements, hcount, hall, rfl⟩
  · rintro ⟨elements, hcount, hall, rfl⟩
    rw [countedBytes, ← encodeElements_eq_flatMap]
    exact reads_skipElements hcount hall rest

/-! ## A value at a place -/

/-- At any place of any bytes, a value is passed over exactly if one is written there, and then up
to its end. No bound on the depth of nesting makes a difference that is not less than the number of
bytes left. The bytes are too few exactly if they break off in the middle of a value; otherwise some
byte stands for a letter that no value has. -/
theorem element_value_passed_over_exactly (data : List UInt8) (place depth : Nat)
    (hdepth : (data.drop place).length ≤ depth) :
    let outcome := skipElementValue depth (data.drop place)
    (∀ deeper, depth ≤ deeper → skipElementValue deeper (data.drop place) = outcome) ∧
    (∀ left, outcome = .ok ((), left) ↔ ∃ v : ElementValue, v.Fits ∧
      v.encode <+: data.drop place ∧ left = data.drop (place + v.encode.length)) ∧
    (outcome = .error .unexpectedEof ↔ ∃ (v : ElementValue) (more : List UInt8),
      v.Fits ∧ more ≠ [] ∧ v.encode = data.drop place ++ more) ∧
    ∀ e, outcome = .error e → e = .unexpectedEof ∨ ∃ tag ∈ data.drop place,
      e = .invalidElementTag tag.toNat ∧ ∀ v : ElementValue, v.encode.head? ≠ some tag := by
  dsimp only
  rw [skipElementValue_eq hdepth]
  refine ⟨?_, ?_, elementValue_eq_unexpectedEof_iff, ?_⟩
  · intro deeper hdeeper
    exact skipElementValue_eq (Nat.le_trans hdepth hdeeper)
  · intro left
    rw [elementValue_eq_ok_iff]
    refine exists_congr fun v => and_congr_right fun _ => ?_
    rw [← List.drop_drop]
    constructor
    · intro h
      rw [h]
      exact ⟨List.prefix_append _ _, List.drop_left.symm⟩
    · rintro ⟨⟨behind, hbehind⟩, rfl⟩
      rw [← hbehind, List.drop_left]
  · intro e herror
    cases (blames_elementValue _).fault (Nat.le_refl _) herror with
    | cut => exact .inl rfl
    | @letter tag hmem hunknown =>
      refine .inr ⟨tag, hmem, rfl, fun v hhead => ?_⟩
      obtain ⟨c, hc, hletter⟩ := exists_letter v
      rw [hletter, Option.some.injEq] at hhead
      exact hunknown c hc hhead.symm

/-- An annotation in an annotation, with a constant of an enumeration and a text in an array, and
one byte in front of it and one behind. -/
def nestedValueBytes : List UInt8 :=
  [7, 64, 0, 1, 0, 1, 0, 2, 91, 0, 2, 101, 0, 3, 0, 4, 115, 0, 5, 9]

/-- The value between the two bytes is passed over, and the second one is left. -/
theorem element_value_passed_over_exactly_nested :
    (nestedValueBytes.drop 1).length ≤ 19 ∧
    skipElementValue 19 (nestedValueBytes.drop 1) = .ok ((), [9]) ∧
    (∃ v : ElementValue, v.Fits ∧ v.encode <+: nestedValueBytes.drop 1 ∧
      [9] = nestedValueBytes.drop (1 + v.encode.length)) ∧
    skipElementValue 19 (nestedValueBytes.drop 16) = .ok ((), [9]) ∧
    skipElementValue 19 (nestedValueBytes.drop 17) = .error (.invalidElementTag 0) := by
  have hread : skipElementValue 19 (nestedValueBytes.drop 1) = .ok ((), [9]) := by
    decide +kernel
  obtain ⟨-, hvalue, -⟩ := element_value_passed_over_exactly nestedValueBytes 1 19 (by decide)
  exact ⟨by decide, hread, (hvalue [9]).mp hread, by decide +kernel, by decide +kernel⟩

end JavaAtlas.ClassFile
