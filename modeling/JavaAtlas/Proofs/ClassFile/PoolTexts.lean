import JavaAtlas.Proofs.ClassFile.LongerPool
import JavaAtlas.Proofs.ClassFile.RawPool
import JavaAtlas.Proofs.Text.ModifiedUtf8

namespace JavaAtlas.ClassFile

/-! # Texts that nothing refers to

A class file holds texts in units of sixteen bits. Each of them is read as UTF-8 where it stands in
the constant pool, whether or not anything refers to it.

* `parse_encode_raw`, `exists_raw_of_parse`: a class as its constants and the bytes behind them;
* `unread_texts_harmless_iff`: further texts change nothing if their units are all plain, and
  otherwise nothing of the class can be read.
-/

/-! ## A class as its constants and the bytes behind them -/

/-- A class file of which only the constants are told apart. -/
structure RawClass where
  minorVersion : UInt16
  majorVersion : UInt16
  /-- One more than the numbers of the constants. -/
  count : UInt16
  constants : List RawConstant
  body : List UInt8

namespace RawClass

/-- The bytes of a class file. -/
def encode (r : RawClass) : List UInt8 :=
  numberBytes 4 0xCAFEBABE ++ (numberBytes 2 r.minorVersion.toNat ++
    (numberBytes 2 r.majorVersion.toNat ++
      (numberBytes 2 r.count.toNat ++ (encodeAll r.constants ++ r.body))))

/-- The constants can be written and are counted. -/
structure Fits (r : RawClass) : Prop where
  constants : ∀ k ∈ r.constants, k.Fits
  counted : Counted r.count.toNat r.constants

/-- The constants of texts. -/
def textConstants (texts : List (List UInt16)) : List RawConstant :=
  texts.map fun t => .text (ModifiedUtf8.bytes t)

/-- A class file with texts behind its other constants. -/
def withTexts (r : RawClass) (texts : List (List UInt16)) : RawClass :=
  { r with
    count := UInt16.ofNat (1 + numbersOf (r.constants ++ textConstants texts))
    constants := r.constants ++ textConstants texts }

/-- What comes of a class file once its constants have been read. -/
def outcome (r : RawClass) : Except Utf8Fault (List Constant) → Except ClassError ParsedClass
  | .error fault => .error (.utf8 fault)
  | .ok kept => (classBody (poolOf kept) r.body).map (·.1)

end RawClass

/-- Any constants are a pool with the count that they need. -/
theorem counted_numbersOf (ks : List RawConstant) : Counted (1 + numbersOf ks) ks where
  reached := Nat.le_refl _
  needed := by
    rintro front last rfl
    have hpos := last.numbers_pos
    have hone : numbersOf [last] = last.numbers := Nat.add_zero _
    rw [numbersOf_append, hone]
    omega

/-- With further texts at the end of its pool, a class fits if the count of numbers does. -/
theorem RawClass.Fits.withTexts {r : RawClass} {texts : List (List UInt16)} (h : r.Fits)
    (htexts : ∀ t ∈ texts, (ModifiedUtf8.bytes t).length < 2 ^ 16)
    (hroom : 1 + numbersOf (r.withTexts texts).constants < 2 ^ 16) : (r.withTexts texts).Fits where
  constants := by
    intro k hk
    rcases List.mem_append.mp hk with hold | hnew
    · exact h.constants k hold
    · obtain ⟨t, ht, rfl⟩ := List.mem_map.mp hnew
      exact htexts t ht
  counted := by
    have hcount : (r.withTexts texts).count.toNat = 1 + numbersOf (r.withTexts texts).constants :=
      toNat_ofNat_index hroom
    rw [hcount]
    exact counted_numbersOf _

/-- Before the pool there are only the magic number and the versions. -/
theorem classFile_eq : classFile = u4 >>= fun magic =>
    if magic ≠ 0xCAFEBABE then fail .invalidMagic
    else skip 2 >>= fun _ => skip 2 >>= fun _ => pool >>= classBody := rfl

section Parse

variable {r : RawClass} {c : ParsedClass}

/-- A class file is read with its constants, unless a text among them is at fault. -/
theorem parse_encode_raw (h : r.Fits) :
    parse r.encode = r.outcome (readAll r.constants) := by
  have hmagic : Reads u4 (numberBytes 4 0xCAFEBABE) 0xCAFEBABE := reads_u4 (by decide)
  have hread : classFile r.encode = (pool >>= classBody) (numberBytes 2 r.count.toNat ++
      (encodeAll r.constants ++ r.body)) := by
    rw [classFile_eq, RawClass.encode, hmagic.run_bind, if_neg (by decide),
      (reads_skip_index _).run_bind, (reads_skip_index _).run_bind]
  show (classFile r.encode).map (·.1) = _
  rw [hread]
  show (pool _ >>= fun s => classBody s.1 s.2).map (·.1) = _
  rw [pool_encodeAll h.constants h.counted]
  cases readAll r.constants <;> rfl

/-- Every class that is read has constants that are read. -/
theorem exists_raw_of_parse {bytes : List UInt8} (h : parse bytes = .ok c) :
    ∃ r : RawClass, r.Fits ∧ r.encode = bytes := by
  obtain ⟨rest, hread⟩ := exists_of_map_fst_eq_ok (show (classFile bytes).map (·.1) = .ok c from h)
  rw [classFile_eq] at hread
  obtain ⟨magic, versions, hmagic, hread⟩ := exists_of_run_bind hread
  split at hread
  · cases hread
  next heq =>
    obtain rfl : magic = 0xCAFEBABE := not_not.mp heq
    -- the parts in front of the pool, in their order
    obtain ⟨_, major, hminor, hread⟩ := exists_of_run_bind hread
    obtain ⟨_, counted, hmajor, hread⟩ := exists_of_run_bind hread
    obtain ⟨p, body, hpool, -⟩ := exists_of_run_bind hread
    obtain ⟨rfl, -⟩ := number_eq_ok hmagic
    obtain ⟨minor, rfl⟩ := exists_index_of_skip hminor
    obtain ⟨major, rfl⟩ := exists_index_of_skip hmajor
    obtain ⟨count, ks, hks, hcount, rfl⟩ := exists_of_pool hpool
    exact ⟨⟨minor, major, count, ks, body⟩, ⟨hks, hcount⟩, rfl⟩

end Parse

/-! ## Texts in units of sixteen bits -/

/-- Every text of a class file is written in units of sixteen bits. -/
def RawClass.InUnits (r : RawClass) : Prop :=
  ∀ body, .text body ∈ r.constants → ∃ t, ModifiedUtf8.bytes t = body

section Texts

variable {r : RawClass} {c : ParsedClass} {texts : List (List UInt16)}

/-- Some text is at fault exactly if it has a unit that is not plain. -/
theorem readAll_textConstants_eq_error_iff (texts : List (List UInt16)) :
    (∃ fault, readAll (RawClass.textConstants texts) = .error fault) ↔
      ∃ t ∈ texts, ∃ u ∈ t, ¬ ModifiedUtf8.Plain u := by
  rw [readAll_eq_error_iff]
  constructor
  · rintro ⟨body, hmem, hfault⟩
    obtain ⟨t, ht, heq⟩ := List.mem_map.mp hmem
    cases heq
    exact ⟨t, ht, ModifiedUtf8.decode_eq_error_iff.mp hfault⟩
  · rintro ⟨t, ht, hunit⟩
    exact ⟨_, List.mem_map_of_mem ht, ModifiedUtf8.decode_eq_error_iff.mpr hunit⟩

/-- Behind a class that is read, only a text can be at fault. -/
theorem parse_withTexts (h : r.Fits) (hclass : parse r.encode = .ok c)
    (hmore : (r.withTexts texts).Fits) :
    parse (r.withTexts texts).encode = match readAll (RawClass.textConstants texts) with
      | .error fault => .error (.utf8 fault)
      | .ok _ => .ok c := by
  have houtcome : parse (r.withTexts texts).encode =
      r.outcome (readAll (r.constants ++ RawClass.textConstants texts)) := parse_encode_raw hmore
  rw [houtcome, readAll_append]
  rw [parse_encode_raw h] at hclass
  cases hkept : readAll r.constants with
  | error fault =>
    rw [hkept] at hclass
    cases hclass
  | ok kept =>
    rw [hkept] at hclass
    obtain ⟨rest, hbody⟩ := exists_of_map_fst_eq_ok hclass
    cases readAll (RawClass.textConstants texts) with
    | error fault => rfl
    | ok more =>
      have hfront : (poolOf kept).FrontOf (poolOf (kept ++ more)) :=
        ⟨more, by simp [poolOf]⟩
      show (classBody (poolOf (kept ++ more)) r.body).map (·.1) = .ok c
      rw [(covered_classBody hfront).again _ _ hbody]
      rfl

/-- A class file is refused because of a text exactly if one of its texts is at fault. -/
theorem parse_encode_eq_utf8_iff (h : r.Fits) :
    (∃ fault, parse r.encode = .error (.utf8 fault)) ↔
      ∃ fault, readAll r.constants = .error fault := by
  rw [parse_encode_raw h]
  cases readAll r.constants with
  | error fault => exact ⟨fun _ => ⟨fault, rfl⟩, fun _ => ⟨fault, rfl⟩⟩
  | ok kept =>
    refine ⟨?_, by rintro ⟨fault, hfault⟩; cases hfault⟩
    rintro ⟨fault, hfault⟩
    -- what stands behind the pool is never refused because of a text
    exfalso
    change (classBody (poolOf kept) r.body).map (·.1) = _ at hfault
    cases hbody : classBody (poolOf kept) r.body with
    | ok p =>
      rw [hbody] at hfault
      cases hfault
    | error e =>
      rw [hbody] at hfault
      cases hfault
      exact (covered_classBody (Pool.FrontOf.refl _)).noText _ fault hbody

/-- Every class that is read is made of constants and what stands behind them. Further texts that
nothing refers to leave it as it was exactly if all their units are plain; if one is not, nothing
of the class is read. And if all texts of a class file are written in units of sixteen bits, it is
refused because of a text exactly if some unit is not plain. -/
theorem unread_texts_harmless_iff (bytes : List UInt8) :
    (∀ c, parse bytes = .ok c → ∃ r : RawClass, r.Fits ∧ r.encode = bytes) ∧
    ∀ r : RawClass, r.Fits → r.encode = bytes →
      (∀ (c : ParsedClass) (texts : List (List UInt16)), parse bytes = .ok c →
        (∀ t ∈ texts, (ModifiedUtf8.bytes t).length < 2 ^ 16) →
        1 + numbersOf (r.withTexts texts).constants < 2 ^ 16 →
        (parse (r.withTexts texts).encode = .ok c ↔
            ∀ t ∈ texts, ∀ u ∈ t, ModifiedUtf8.Plain u) ∧
          ((∃ fault, parse (r.withTexts texts).encode = .error (.utf8 fault)) ↔
            ∃ t ∈ texts, ∃ u ∈ t, ¬ ModifiedUtf8.Plain u)) ∧
      (r.InUnits →
        ((∃ fault, parse bytes = .error (.utf8 fault)) ↔
          ∃ t, .text (ModifiedUtf8.bytes t) ∈ r.constants ∧ ∃ u ∈ t, ¬ ModifiedUtf8.Plain u)) := by
  refine ⟨fun c h => exists_raw_of_parse h, ?_⟩
  rintro r h rfl
  refine ⟨?_, ?_⟩
  · intro c texts hclass hlengths hroom
    rw [parse_withTexts h hclass (h.withTexts hlengths hroom)]
    have hfault := readAll_textConstants_eq_error_iff texts
    have hplain : (∀ t ∈ texts, ∀ u ∈ t, ModifiedUtf8.Plain u) ↔
        ¬ ∃ t ∈ texts, ∃ u ∈ t, ¬ ModifiedUtf8.Plain u := by
      simp only [not_exists, not_and, not_not]
    rw [hplain, ← hfault]
    cases readAll (RawClass.textConstants texts) <;> simp
  · intro hunits
    rw [parse_encode_eq_utf8_iff h, readAll_eq_error_iff]
    constructor
    · rintro ⟨body, hmem, hfault⟩
      obtain ⟨t, rfl⟩ := hunits body hmem
      exact ⟨t, hmem, ModifiedUtf8.decode_eq_error_iff.mp hfault⟩
    · rintro ⟨t, hmem, hunit⟩
      exact ⟨_, hmem, ModifiedUtf8.decode_eq_error_iff.mpr hunit⟩

end Texts

/-- A class with nothing in it. -/
def emptyClass : RawClass :=
  { minorVersion := 0
    majorVersion := 61
    count := 5
    constants := [.text [65], .classRef 1,
      -- `java/lang/Object`
      .text [106, 97, 118, 97, 47, 108, 97, 110, 103, 47, 79, 98, 106, 101, 99, 116], .classRef 3]
    body := [0, 0x21, 0, 2, 0, 4, 0, 0, 0, 0, 0, 0, 0, 0] }

/-- What is read of it. -/
def emptyParsed : ParsedClass :=
  { binaryName := "A"
    accessFlags := 0x21
    superClass := some "java.lang.Object"
    interfaces := []
    fields := []
    methods := []
    annotations := []
    innerClasses := [] }

/-- The class has a pool of its own constants. -/
theorem emptyClass_fits : emptyClass.Fits where
  constants := by decide
  counted := by
    have hcount : emptyClass.count.toNat = 1 + numbersOf emptyClass.constants := by decide
    rw [hcount]
    exact counted_numbersOf _

theorem parse_emptyClass : parse emptyClass.encode = .ok emptyParsed := by decide +kernel

/-- A letter does no harm, and a character of two units does. -/
theorem unread_texts_harmless_letter :
    parse emptyClass.encode = .ok emptyParsed ∧
      parse (emptyClass.withTexts [[0x61]]).encode = .ok emptyParsed ∧
        ∃ fault, parse (emptyClass.withTexts [[0x61], [0xD83D, 0xDE00]]).encode =
          .error (.utf8 fault) := by
  have hletter : ∀ t ∈ [[(0x61 : UInt16)]], ∀ u ∈ t, ModifiedUtf8.Plain u := by
    rw [List.forall_mem_singleton, List.forall_mem_singleton]
    decide
  have hhalf : ∃ t ∈ [[(0x61 : UInt16)], [0xD83D, 0xDE00]], ∃ u ∈ t, ¬ ModifiedUtf8.Plain u :=
    ⟨[0xD83D, 0xDE00], by decide, 0xD83D, by decide, by decide⟩
  obtain ⟨-, hall⟩ := unread_texts_harmless_iff emptyClass.encode
  obtain ⟨hmore, -⟩ := hall emptyClass emptyClass_fits rfl
  have hread := (hmore emptyParsed [[0x61]] parse_emptyClass (by decide) (by decide)).1
  have hrefused := (hmore emptyParsed [[0x61], [0xD83D, 0xDE00]] parse_emptyClass (by decide)
    (by decide)).2
  exact ⟨parse_emptyClass, hread.mpr hletter, hrefused.mpr hhalf⟩

/-- A zero that nothing refers to keeps a class from being read. -/
theorem unread_zero_refused :
    parse emptyClass.encode = .ok emptyParsed ∧
      parse (emptyClass.withTexts [[0]]).encode = .error (.utf8 (.invalid 1 0)) := by
  decide +kernel

end JavaAtlas.ClassFile
