import JavaAtlas.Proofs.ClassFile.Truncation

namespace JavaAtlas.ClassFile

/-! # A constant pool and its bytes

A pool is described by the bytes of its constants, of texts too, so that nothing is said of what
the texts are. Every pool that is read is one of these, and each of them is read, or the first text
that is none is found at fault.

* `constant_encode`, `pool_encodeAll`: what is read from the bytes of a constant and of a pool;
* `exists_of_constant`, `exists_of_pool`: what is read as a constant or a pool has such bytes;
* `readAll_eq_error_iff`: some text is at fault.
-/

/-! ## Constants and their bytes -/

/-- A constant as it stands in a class file: of a text only the bytes are known. -/
inductive RawConstant where
  | text (body : List UInt8)
  | classRef (nameIndex : UInt16)
  | other (kind : ConstantKind) (payload : Vector UInt8 kind.size)
deriving DecidableEq

/-- What is kept of a constant that is neither a text nor a class. -/
def ConstantKind.kept (kind : ConstantKind) : List Constant :=
  if kind.isWide then [.other, .unusable] else [.other]

/-- All kinds of constants that are neither texts nor classes. -/
def ConstantKind.all : List ConstantKind :=
  [.integer, .float, .long, .double, .string, .fieldRef, .methodRef, .interfaceMethodRef,
    .nameAndType, .methodHandle, .methodType, .dynamic, .invokeDynamic, .moduleName, .packageName]

namespace RawConstant

/-- The bytes of a constant. -/
def encode : RawConstant → List UInt8
  | .text body => 1 :: (numberBytes 2 body.length ++ body)
  | .classRef nameIndex => 7 :: numberBytes 2 nameIndex.toNat
  | .other kind payload => kind.tag :: payload.toList

/-- The bytes of a text can be counted in two bytes. -/
def Fits : RawConstant → Prop
  | .text body => body.length < 2 ^ 16
  | .classRef _ | .other _ _ => True

instance : DecidablePred Fits
  | .text body => inferInstanceAs (Decidable (body.length < 2 ^ 16))
  | .classRef _ | .other _ _ => inferInstanceAs (Decidable True)

/-- How many numbers a constant takes up. -/
def numbers : RawConstant → Nat
  | .text _ | .classRef _ => 1
  | .other kind _ => if kind.isWide then 2 else 1

/-- What is kept of a constant, the bytes of a text being read as UTF-8. -/
def read : RawConstant → Except Utf8Fault (List Constant)
  | .text body => (Utf8.decode body).map fun text => [.utf8 text]
  | .classRef nameIndex => .ok [.classRef nameIndex.toNat]
  | .other kind _ => .ok kind.kept

/-- Each constant takes up a number. -/
theorem numbers_pos (k : RawConstant) : 0 < k.numbers := by
  cases k with
  | text body => exact Nat.zero_lt_one
  | classRef nameIndex => exact Nat.zero_lt_one
  | other kind payload =>
    rw [numbers]
    split
    · exact Nat.zero_lt_two
    · exact Nat.zero_lt_one

/-- As many entries are kept of a constant as it takes up numbers. -/
theorem length_of_read {k : RawConstant} {kept : List Constant} (h : k.read = .ok kept) :
    kept.length = k.numbers := by
  cases k with
  | text body =>
    rw [read] at h
    cases hbody : Utf8.decode body with
    | error fault =>
      rw [hbody] at h
      cases h
    | ok text =>
      rw [hbody] at h
      cases h
      rfl
  | classRef nameIndex =>
    cases h
    rfl
  | other kind payload =>
    cases h
    rw [numbers, ConstantKind.kept]
    split <;> rfl

/-- Only a text can be at fault. -/
theorem read_eq_error_iff {k : RawConstant} :
    (∃ fault, k.read = .error fault) ↔
      ∃ body, .text body = k ∧ ∃ fault, Utf8.decode body = .error fault := by
  constructor
  · rintro ⟨fault, h⟩
    cases k with
    | text body =>
      refine ⟨body, rfl, fault, ?_⟩
      rw [read] at h
      cases hbody : Utf8.decode body with
      | error e =>
        rw [hbody] at h
        cases h
        rfl
      | ok text =>
        rw [hbody] at h
        cases h
    | classRef nameIndex => cases h
    | other kind payload => cases h
  · rintro ⟨body, rfl, fault, hbody⟩
    exact ⟨fault, by rw [read, hbody]; rfl⟩

end RawConstant

/-- What is kept of constants one after the other; the first text that is none is at fault. -/
def readAll : List RawConstant → Except Utf8Fault (List Constant)
  | [] => .ok []
  | k :: ks => do
    let kept ← k.read
    let more ← readAll ks
    return kept ++ more

/-- How many numbers constants take up. -/
def numbersOf : List RawConstant → Nat
  | [] => 0
  | k :: ks => k.numbers + numbersOf ks

/-- The bytes of constants. -/
def encodeAll (ks : List RawConstant) : List UInt8 := ks.flatMap (·.encode)

section All

variable {ks ls : List RawConstant}

@[simp]
theorem numbersOf_cons (k : RawConstant) (ks : List RawConstant) :
    numbersOf (k :: ks) = k.numbers + numbersOf ks := rfl

/-- Constants behind others take up further numbers. -/
@[simp]
theorem numbersOf_append (ks ls : List RawConstant) :
    numbersOf (ks ++ ls) = numbersOf ks + numbersOf ls := by
  induction ks with
  | nil => exact (Nat.zero_add _).symm
  | cons k ks ih => rw [List.cons_append, numbersOf_cons, numbersOf_cons, ih, Nat.add_assoc]

/-- There are no more constants than numbers. -/
theorem length_le_numbersOf (ks : List RawConstant) : ks.length ≤ numbersOf ks := by
  induction ks with
  | nil => exact Nat.le_refl 0
  | cons k ks ih =>
    have := k.numbers_pos
    rw [numbersOf_cons, List.length_cons]
    omega

@[simp]
theorem encodeAll_cons (k : RawConstant) (ks : List RawConstant) :
    encodeAll (k :: ks) = k.encode ++ encodeAll ks := List.flatMap_cons

/-- The first ones of some constants are read before the others, and are at fault before them. -/
theorem readAll_append (ks ls : List RawConstant) :
    readAll (ks ++ ls) = readAll ks >>= fun kept => (readAll ls).map (kept ++ ·) := by
  induction ks with
  | nil =>
    show readAll ls = (readAll ls).map fun more => [] ++ more
    cases readAll ls <;> rfl
  | cons k ks ih =>
    rw [List.cons_append, readAll, readAll, ih]
    cases k.read with
    | error fault => rfl
    | ok kept =>
      cases readAll ks with
      | error fault => rfl
      | ok more =>
        -- both sides read the last ones when all others went well
        show (readAll ls).map (more ++ ·) >>= (fun all => .ok (kept ++ all)) =
          (readAll ls).map (kept ++ more ++ ·)
        cases readAll ls with
        | error fault => rfl
        | ok last => exact congrArg Except.ok (List.append_assoc kept more last).symm

/-- A text is at fault in the first constant or behind it. -/
theorem readAll_cons_eq_error_iff {k : RawConstant} :
    (∃ fault, readAll (k :: ks) = .error fault) ↔
      (∃ fault, k.read = .error fault) ∨ ∃ fault, readAll ks = .error fault := by
  rw [readAll]
  cases k.read with
  | error fault => exact iff_of_true ⟨fault, rfl⟩ (.inl ⟨fault, rfl⟩)
  | ok kept =>
    cases readAll ks with
    | error fault => exact iff_of_true ⟨fault, rfl⟩ (.inr ⟨fault, rfl⟩)
    | ok more =>
      refine iff_of_false ?_ ?_
      · rintro ⟨fault, h⟩
        cases h
      · rintro (⟨fault, h⟩ | ⟨fault, h⟩) <;> cases h

/-- Constants are all kept unless a text among them is at fault. -/
theorem readAll_eq_error_iff :
    (∃ fault, readAll ks = .error fault) ↔
      ∃ body, .text body ∈ ks ∧ ∃ fault, Utf8.decode body = .error fault := by
  induction ks with
  | nil =>
    refine iff_of_false ?_ ?_
    · rintro ⟨fault, h⟩
      cases h
    · rintro ⟨body, hmem, -⟩
      cases hmem
  | cons k ks ih =>
    rw [readAll_cons_eq_error_iff, RawConstant.read_eq_error_iff, ih]
    simp only [List.mem_cons, or_and_right, exists_or]

end All

/-! ## Numbers are read back to their bytes -/

section Numbers

variable {input rest : List UInt8} {count n : Nat}

/-- Bytes that are taken stand at the front, as many as are asked for. -/
theorem bytes_eq_ok {taken : List UInt8} (h : bytes count input = .ok (taken, rest)) :
    input = taken ++ rest ∧ taken.length = count := by
  unfold bytes at h
  split at h
  next r hr =>
    cases h
    exact takeBytes?_eq_some hr
  next => cases h

/-- Bytes are those of the number that they are read as. -/
theorem numberBytes_foldl (bs : List UInt8) (front : Nat) :
    numberBytes bs.length (bs.foldl (fun m b => m * 256 + b.toNat) front) = bs := by
  induction bs generalizing front with
  | nil => rfl
  | cons b bs ih =>
    -- what is read behind the first byte is less than one of its units
    have hsplit := foldl_numberBytes bs.length
      (bs.foldl (fun m b => m * 256 + b.toNat) (front * 256 + b.toNat)) (front * 256 + b.toNat)
    rw [ih] at hsplit
    have hpos : 0 < 256 ^ bs.length := Nat.pow_pos (by decide)
    have hlead : bs.foldl (fun m b => m * 256 + b.toNat) (front * 256 + b.toNat) / 256 ^ bs.length =
        front * 256 + b.toNat := by
      rw [hsplit, Nat.add_comm, Nat.add_mul_div_right _ _ hpos,
        Nat.div_eq_of_lt (Nat.mod_lt _ hpos), Nat.zero_add]
    have hbyte : UInt8.ofNat (front * 256 + b.toNat) = b := by
      apply UInt8.toNat_inj.mp
      rw [UInt8.toNat_ofNat']
      have := b.toNat_lt
      omega
    rw [List.length_cons, List.foldl_cons, numberBytes, ih, hlead, hbyte]

/-- A number that is read stands at the front as the bytes that it has. -/
theorem number_eq_ok (h : number count input = .ok (n, rest)) :
    input = numberBytes count n ++ rest ∧ n < 256 ^ count := by
  have hbytes : number count = bytes count >>= fun taken => pure (bigEndian taken) := rfl
  rw [hbytes] at h
  obtain ⟨taken, left, htaken, hn⟩ := exists_of_run_bind h
  cases hn
  obtain ⟨rfl, rfl⟩ := bytes_eq_ok htaken
  unfold bigEndian
  refine ⟨by rw [numberBytes_foldl], ?_⟩
  -- the number of some bytes is less than what does not fit into as many
  have hsplit := foldl_numberBytes taken.length
    (taken.foldl (fun m b => m * 256 + b.toNat) 0) 0
  rw [numberBytes_foldl, Nat.zero_mul, Nat.zero_add] at hsplit
  rw [hsplit]
  exact Nat.mod_lt _ (Nat.pow_pos (by decide))

/-- Bytes that are passed over stand at the front. -/
theorem skip_eq_ok {u : Unit} (h : skip count input = .ok (u, rest)) :
    ∃ taken, input = taken ++ rest ∧ taken.length = count := by
  obtain ⟨taken, left, htaken, hunit⟩ := exists_of_run_bind h
  cases hunit
  exact ⟨taken, bytes_eq_ok htaken⟩

/-- What fits into two bytes stays what it is in them. -/
theorem toNat_ofNat_index {n : Nat} (h : n < 2 ^ 16) : (UInt16.ofNat n).toNat = n := by
  rw [UInt16.toNat_ofNat', Nat.mod_eq_of_lt h]

/-- Two bytes that are passed over are some number. -/
theorem exists_index_of_skip {u : Unit} (h : skip 2 input = .ok (u, rest)) :
    ∃ n : UInt16, input = numberBytes 2 n.toNat ++ rest := by
  obtain ⟨taken, rfl, hlength⟩ := skip_eq_ok h
  have hnumber : number 2 (taken ++ rest) = .ok (bigEndian taken, rest) := by
    have htaken := (reads_bytes taken).map bigEndian rest
    rw [hlength] at htaken
    exact htaken
  obtain ⟨heq, hlt⟩ := number_eq_ok hnumber
  refine ⟨UInt16.ofNat (bigEndian taken), ?_⟩
  rw [toNat_ofNat_index hlt]
  exact heq

end Numbers

/-! ## One constant -/

section Constant

/-- A reader whose only fault can be a text. -/
def given {α : Type} (x : Except Utf8Fault α) : Reader α := fun rest =>
  match x with
  | .ok a => .ok (a, rest)
  | .error fault => .error (.utf8 fault)

/-- A text is its length, its bytes, and what these stand for. -/
theorem utf8Text_eq : utf8Text = u2 >>= fun length => bytes length >>= fun body =>
    given (Utf8.decode body) := by
  show (u2 >>= fun length => bytes length >>= fun body => _) = _
  congr 1
  funext length
  congr 1
  funext body
  cases Utf8.decode body <;> rfl

/-- A text that is written is read, or found at fault. -/
theorem utf8Text_body {body : List UInt8} (h : body.length < 2 ^ 16) (rest : List UInt8) :
    utf8Text (numberBytes 2 body.length ++ body ++ rest) = given (Utf8.decode body) rest := by
  rw [utf8Text_eq, List.append_assoc, (reads_u2 h).run_bind, (reads_bytes body).run_bind]

/-- What is read as a text has bytes that can be counted. -/
theorem exists_of_utf8Text {input rest : List UInt8} {text : String}
    (h : utf8Text input = .ok (text, rest)) :
    ∃ body : List UInt8, body.length < 2 ^ 16 ∧
      input = numberBytes 2 body.length ++ body ++ rest := by
  rw [utf8Text_eq] at h
  obtain ⟨length, left, hlength, hrest⟩ := exists_of_run_bind h
  obtain ⟨body, behind, hbody, hgiven⟩ := exists_of_run_bind hrest
  obtain ⟨rfl, hlt⟩ := number_eq_ok hlength
  obtain ⟨rfl, rfl⟩ := bytes_eq_ok hbody
  refine ⟨body, hlt, ?_⟩
  cases htext : Utf8.decode body with
  | ok text =>
    rw [htext] at hgiven
    cases hgiven
    rw [List.append_assoc]
  | error fault =>
    rw [htext] at hgiven
    cases hgiven

/-- The tag of a kind decides how many bytes are passed over and what is kept. -/
theorem constant_kind (kind : ConstantKind) (input : List UInt8) :
    constant (kind.tag :: input) = (skip kind.size >>= fun _ => pure kind.kept) input := by
  cases kind <;> rfl

/-- A byte that is no tag is refused. -/
theorem constant_unknown {b : UInt8} (htext : b ≠ 1) (hclass : b ≠ 7)
    (h : ∀ kind : ConstantKind, b ≠ kind.tag) (input : List UInt8) :
    constant (b :: input) = .error (.unsupportedConstant b.toNat) := by
  have htag : ∀ next : Nat → Reader (List Constant),
      (u1 >>= next) (b :: input) = next b.toNat input :=
    fun next => (reads_tag b).run_bind next input
  have hone : b.toNat ≠ 1 := fun heq => htext (UInt8.toNat_inj.mp heq)
  have hseven : b.toNat ≠ 7 := fun heq => hclass (UInt8.toNat_inj.mp heq)
  have hnot : ∀ n ∈ ConstantKind.all.map fun kind => kind.tag.toNat, b.toNat ≠ n := by
    intro n hn heq
    obtain ⟨kind, -, rfl⟩ := List.mem_map.mp hn
    exact h kind (UInt8.toNat_inj.mp heq)
  unfold constant
  rw [htag]
  generalize b.toNat = tag at hone hseven hnot
  -- the tags of all kinds stand in `hnot`, so that only the last case is left
  split
  case h_1 => exact absurd rfl hone
  case h_2 => exact absurd rfl hseven
  all_goals first | rfl | exact absurd rfl (hnot _ (by decide))

/-- A constant that is written is read, or its text is at fault. -/
theorem constant_encode {k : RawConstant} (h : k.Fits) (rest : List UInt8) :
    constant (k.encode ++ rest) = given k.read rest := by
  cases k with
  | text body =>
    -- a text is the only constant that may be at fault
    show (utf8Text (numberBytes 2 body.length ++ body ++ rest) >>= fun r =>
      .ok ([Constant.utf8 r.1], r.2)) = _
    rw [utf8Text_body h, RawConstant.read]
    cases Utf8.decode body <;> rfl
  | classRef nameIndex =>
    have hread : Reads constant (RawConstant.classRef nameIndex).encode
        [.classRef nameIndex.toNat] :=
      (reads_tag 7).bind ((reads_index nameIndex).bind_last (.pure _))
    exact hread rest
  | other kind payload =>
    have hlength : payload.toList.length = kind.size := by simp
    have hread : Reads (skip kind.size >>= fun _ => pure kind.kept) payload.toList kind.kept :=
      (reads_skip hlength).bind_last (.pure _)
    show constant (kind.tag :: (payload.toList ++ rest)) = _
    rw [constant_kind]
    exact hread rest

/-- What is read as a constant was written as one. -/
theorem exists_of_constant {input rest : List UInt8} {kept : List Constant}
    (h : constant input = .ok (kept, rest)) :
    ∃ k : RawConstant, k.Fits ∧ input = k.encode ++ rest := by
  cases input with
  | nil => cases h
  | cons b input =>
    -- the first byte tells the constant, if it is a tag at all
    by_cases htext : b = 1
    · subst htext
      obtain ⟨text, left, hread, heq⟩ := exists_of_run_bind
        (show (utf8Text >>= fun text => pure [.utf8 text]) input = .ok (kept, rest) from h)
      cases heq
      obtain ⟨body, hbody, rfl⟩ := exists_of_utf8Text hread
      exact ⟨.text body, hbody, rfl⟩
    · by_cases hclass : b = 7
      · subst hclass
        obtain ⟨index, left, hread, heq⟩ := exists_of_run_bind
          (show (u2 >>= fun index => pure [.classRef index]) input = .ok (kept, rest) from h)
        cases heq
        obtain ⟨rfl, hlt⟩ := number_eq_ok hread
        refine ⟨.classRef (UInt16.ofNat index), trivial, ?_⟩
        rw [RawConstant.encode, toNat_ofNat_index hlt]
        rfl
      · by_cases hkind : ∃ kind : ConstantKind, b = kind.tag
        · obtain ⟨kind, rfl⟩ := hkind
          rw [constant_kind] at h
          obtain ⟨_, left, hread, heq⟩ := exists_of_run_bind h
          cases heq
          obtain ⟨taken, rfl, hlength⟩ := skip_eq_ok hread
          exact ⟨.other kind ⟨taken.toArray, by simpa using hlength⟩, trivial, rfl⟩
        · rw [constant_unknown htext hclass (fun kind hb => hkind ⟨kind, hb⟩)] at h
          cases h

end Constant

/-! ## All constants -/

/-- A pool is counted: its numbers are reached with its last constant, and not before. The count may
be one short, if the last constant takes up two numbers. -/
structure Counted (count : Nat) (ks : List RawConstant) : Prop where
  reached : count ≤ 1 + numbersOf ks
  needed : ∀ front last, ks = front ++ [last] → 1 + numbersOf front < count

section Pool

/-- As long as numbers are missing another constant is read. -/
theorem constants_of_lt {count : Nat} {found : Array Constant} (h : found.size < count)
    (fuel : Nat) : constants count (fuel + 1) found =
      constant >>= fun more => constants count fuel (found ++ more.toArray) := by
  rw [constants, if_pos h]

/-- When all numbers are taken no constant is read. -/
theorem constants_of_le {count : Nat} {found : Array Constant} (h : count ≤ found.size)
    (fuel : Nat) : constants count fuel found = pure found := by
  cases fuel with
  | zero => rfl
  | succ fuel => rw [constants, if_neg (Nat.not_lt.mpr h)]

/-- Constants are read until all numbers are taken. -/
theorem constants_encodeAll {ks : List RawConstant} (hfits : ∀ k ∈ ks, k.Fits) {count fuel : Nat}
    {found : Array Constant} (hreached : count ≤ found.size + numbersOf ks)
    (hneeded : ∀ front last, ks = front ++ [last] → found.size + numbersOf front < count)
    (hfuel : ks.length ≤ fuel) (rest : List UInt8) :
    constants count fuel found (encodeAll ks ++ rest) =
      given ((readAll ks).map fun kept => found ++ kept.toArray) rest := by
  induction ks generalizing fuel found with
  | nil =>
    have hsame : found ++ ([] : List Constant).toArray = found := by simp
    rw [constants_of_le hreached]
    show Except.ok (found, rest) = .ok (found ++ ([] : List Constant).toArray, rest)
    rw [hsame]
  | cons k ks ih =>
    obtain ⟨front, last, hlast⟩ := List.eq_nil_or_concat (k :: ks) |>.resolve_left (by simp)
    -- as some constant is the last one, numbers are missing before the first one
    have hmore : found.size < count := by
      have := hneeded front last (by simpa using hlast)
      omega
    rw [List.length_cons] at hfuel
    obtain ⟨fuel, rfl⟩ : ∃ n, fuel = n + 1 := ⟨fuel - 1, by omega⟩
    rw [constants_of_lt hmore, encodeAll_cons, List.append_assoc, readAll]
    show (constant (k.encode ++ (encodeAll ks ++ rest)) >>= fun r =>
      constants count fuel (found ++ r.1.toArray) r.2) = _
    rw [constant_encode (hfits k List.mem_cons_self)]
    cases hk : k.read with
    | error fault => rfl
    | ok kept =>
      have hlength := RawConstant.length_of_read hk
      have hsize : (found ++ kept.toArray).size = found.size + k.numbers := by simp [hlength]
      show constants count fuel (found ++ kept.toArray) (encodeAll ks ++ rest) = _
      rw [ih (fun l hl => hfits l (List.mem_cons_of_mem k hl))
        (by rw [hsize]; rw [numbersOf_cons] at hreached; omega)
        (by
          intro front last heq
          have := hneeded (k :: front) last (by rw [heq]; rfl)
          rw [numbersOf_cons] at this
          omega)
        (by omega)]
      cases readAll ks with
      | error fault => rfl
      | ok more =>
        show given (.ok (found ++ kept.toArray ++ more.toArray)) rest =
          given (.ok (found ++ (kept ++ more).toArray)) rest
        simp

/-- What is kept of a constant that is read takes up its numbers. -/
theorem length_of_constant {k : RawConstant} (hk : k.Fits) {kept : List Constant}
    {rest left : List UInt8} (h : constant (k.encode ++ rest) = .ok (kept, left)) :
    kept.length = k.numbers := by
  rw [constant_encode hk] at h
  cases hread : k.read with
  | error fault =>
    rw [hread] at h
    cases h
  | ok kept' =>
    rw [hread] at h
    cases h
    exact RawConstant.length_of_read hread

/-- What is read as constants was written as constants, as many as are needed. -/
theorem exists_of_constants {count fuel : Nat} {found entries : Array Constant}
    {input rest : List UInt8} (hfuel : count ≤ found.size + fuel)
    (h : constants count fuel found input = .ok (entries, rest)) :
    ∃ ks : List RawConstant, (∀ k ∈ ks, k.Fits) ∧ input = encodeAll ks ++ rest ∧
      count ≤ found.size + numbersOf ks ∧
        ∀ front last, ks = front ++ [last] → found.size + numbersOf front < count := by
  have hnone : ∀ front last, ([] : List RawConstant) ≠ front ++ [last] := by simp
  induction fuel generalizing found input with
  | zero =>
    rw [constants_of_le hfuel] at h
    cases h
    exact ⟨[], by simp, rfl, hfuel, fun front last heq => absurd heq (hnone front last)⟩
  | succ fuel ih =>
    -- whether numbers are missing decides if one more constant is read
    rcases Nat.lt_or_ge found.size count with hmore | hdone
    · rw [constants_of_lt hmore] at h
      obtain ⟨kept, left, hkept, hrest⟩ := exists_of_run_bind h
      obtain ⟨k, hk, rfl⟩ := exists_of_constant hkept
      have hsize : (found ++ kept.toArray).size = found.size + k.numbers := by
        simp [length_of_constant hk hkept]
      have hpos := k.numbers_pos
      obtain ⟨ks, hks, hleft, hreached, hneeded⟩ := ih (by omega) hrest
      rw [hsize] at hreached hneeded
      refine ⟨k :: ks, List.forall_mem_cons.mpr ⟨hk, hks⟩, ?_, ?_, ?_⟩
      · rw [encodeAll_cons, List.append_assoc, ← hleft]
      · rw [numbersOf_cons]
        omega
      · intro front last heq
        cases front with
        | nil => exact hmore
        | cons first front =>
          obtain ⟨rfl, htail⟩ := List.cons.inj heq
          have := hneeded front last htail
          rw [numbersOf_cons]
          omega
    · rw [constants_of_le hdone] at h
      cases h
      exact ⟨[], by simp, rfl, hdone, fun front last heq => absurd heq (hnone front last)⟩

/-- The pool that is read over its constants. -/
def poolOf (kept : List Constant) : Pool := ⟨#[.unusable] ++ kept.toArray⟩

/-- A pool has no more constants than it counts. -/
theorem Counted.length_le {count : Nat} {ks : List RawConstant} (h : Counted count ks) :
    ks.length ≤ count := by
  rcases List.eq_nil_or_concat ks with rfl | ⟨front, last, heq⟩
  · exact Nat.zero_le _
  · have hneeded := h.needed front last (by simpa using heq)
    have hfront := length_le_numbersOf front
    rw [heq, List.length_concat]
    omega

/-- A pool that is written is read, or its first bad text is found at fault. -/
theorem pool_encodeAll {ks : List RawConstant} (hfits : ∀ k ∈ ks, k.Fits) {count : UInt16}
    (hcount : Counted count.toNat ks) (rest : List UInt8) :
    pool (numberBytes 2 count.toNat ++ (encodeAll ks ++ rest)) =
      given ((readAll ks).map poolOf) rest := by
  have hsteps : pool = u2 >>= fun n => constants n n #[.unusable] >>= fun entries =>
    pure ⟨entries⟩ := rfl
  rw [hsteps, (reads_index count).run_bind]
  show (constants count.toNat count.toNat #[.unusable] (encodeAll ks ++ rest) >>= _) = _
  rw [constants_encodeAll hfits hcount.reached hcount.needed hcount.length_le]
  cases readAll ks <;> rfl

/-- What is read as a pool was written as one, with some count. -/
theorem exists_of_pool {input rest : List UInt8} {p : Pool} (h : pool input = .ok (p, rest)) :
    ∃ (count : UInt16) (ks : List RawConstant), (∀ k ∈ ks, k.Fits) ∧ Counted count.toNat ks ∧
      input = numberBytes 2 count.toNat ++ (encodeAll ks ++ rest) := by
  obtain ⟨count, left, hcount, hrest⟩ := exists_of_run_bind h
  obtain ⟨entries, behind, hentries, heq⟩ := exists_of_run_bind hrest
  cases heq
  obtain ⟨rfl, hlt⟩ := number_eq_ok hcount
  obtain ⟨ks, hks, rfl, hreached, hneeded⟩ := exists_of_constants (Nat.le_add_left count 1) hentries
  refine ⟨UInt16.ofNat count, ks, hks, ?_, ?_⟩
  · rw [toNat_ofNat_index hlt]
    exact ⟨hreached, hneeded⟩
  · rw [toNat_ofNat_index hlt]

end Pool

end JavaAtlas.ClassFile
