import Mathlib.Data.List.Basic
import JavaAtlas.Text.Utf8

namespace JavaAtlas.Utf8

/-! # Text and its bytes

Reading the bytes of a text gives the text.

* `step_encodeChar`: the bytes of a character are read as that character;
* `decode_charBytes`, `decode_utf8Bytes`: so are those of a text;
* `takeWhile_charBytes`, `dropWhile_charBytes`: bytes can be cut where a character of one byte
  stands, since none of the bytes of other characters is that one.
-/

/-! ## Bytes as numbers -/

section Bytes

variable {n : Nat}

/-- A number that fits into a byte stays what it is. -/
theorem toNat_ofNat_of_lt (h : n < 256) : (UInt8.ofNat n).toNat = n := by
  rw [UInt8.toNat_ofNat', Nat.mod_eq_of_lt h]

/-- How many bytes a character has is told by the number of the first one. -/
theorem width_of_toNat {b : UInt8} :
    width b = if b.toNat < 0x80 then 1 else if b.toNat < 0xC2 then 0 else if b.toNat < 0xE0 then 2
      else if b.toNat < 0xF0 then 3 else if b.toNat < 0xF5 then 4 else 0 := rfl

/-- A byte behind the first one has six bits of its own. -/
theorem isTail_ofNat (h : n < 64) : isTail (UInt8.ofNat (n + 0x80)) = true := by
  unfold isTail
  rw [Bool.and_eq_true, decide_eq_true_iff, decide_eq_true_iff, UInt8.le_iff_toNat_le,
    UInt8.le_iff_toNat_le, toNat_ofNat_of_lt (by omega)]
  constructor
  · exact Nat.le_add_left _ _
  · show n + 0x80 ≤ 0xBF
    omega

/-- The six bits are found again. -/
theorem bits_ofNat (h : n < 64) : bits (UInt8.ofNat (n + 0x80)) = n := by
  unfold bits
  rw [toNat_ofNat_of_lt (by omega)]
  omega

/-- A second byte is refused only behind four first bytes, for being too small or too large. -/
theorem isSecond_of_toNat {first second : UInt8} (htail : isTail second = true)
    (hE0 : first.toNat = 0xE0 → 0xA0 ≤ second.toNat)
    (hED : first.toNat = 0xED → second.toNat ≤ 0x9F)
    (hF0 : first.toNat = 0xF0 → 0x90 ≤ second.toNat)
    (hF4 : first.toNat = 0xF4 → second.toNat ≤ 0x8F) : isSecond first second = true := by
  have htail' := htail
  unfold isTail at htail'
  rw [Bool.and_eq_true, decide_eq_true_iff, decide_eq_true_iff] at htail'
  -- the four first bytes that leave out second ones, then all others
  unfold isSecond
  split
  next h =>
    rw [beq_iff_eq] at h
    rw [Bool.and_eq_true, decide_eq_true_iff, decide_eq_true_iff, UInt8.le_iff_toNat_le]
    exact ⟨hE0 (by rw [h]; rfl), htail'.2⟩
  · split
    next h =>
      rw [beq_iff_eq] at h
      rw [Bool.and_eq_true, decide_eq_true_iff, decide_eq_true_iff,
        UInt8.le_iff_toNat_le (a := second)]
      exact ⟨htail'.1, hED (by rw [h]; rfl)⟩
    · split
      next h =>
        rw [beq_iff_eq] at h
        rw [Bool.and_eq_true, decide_eq_true_iff, decide_eq_true_iff, UInt8.le_iff_toNat_le]
        exact ⟨hF0 (by rw [h]; rfl), htail'.2⟩
      · split
        next h =>
          rw [beq_iff_eq] at h
          rw [Bool.and_eq_true, decide_eq_true_iff, decide_eq_true_iff,
            UInt8.le_iff_toNat_le (a := second)]
          exact ⟨htail'.1, hF4 (by rw [h]; rfl)⟩
        · exact htail

end Bytes

/-! ## Characters -/

section Step

variable {index : Nat} {first b c d : UInt8} {rest : List UInt8}

/-- A character of one byte is that byte. -/
theorem step_one (hw : width first = 1) :
    step index first rest = .ok (Char.ofNat first.toNat, rest) := by
  unfold step
  rw [hw]
  cases rest <;> rfl

/-- A character of two bytes has five bits in the first and six in the second. -/
theorem step_two (hw : width first = 2) (hb : isTail b = true) :
    step index first (b :: rest) = .ok (Char.ofNat (first.toNat % 32 * 64 + bits b), rest) := by
  unfold step
  rw [hw]
  simp [hb]

/-- A character of three bytes has four bits in the first. -/
theorem step_three (hw : width first = 3) (hb : isSecond first b = true) (hc : isTail c = true) :
    step index first (b :: c :: rest) =
      .ok (Char.ofNat (first.toNat % 16 * 4096 + bits b * 64 + bits c), rest) := by
  unfold step
  rw [hw]
  simp [hb, hc]

/-- A second byte that may not follow the first one is at fault. -/
theorem step_three_refused (hw : width first = 3) (hb : isSecond first b = false) :
    step index first (b :: rest) = .error (.invalid 1 index) := by
  unfold step
  rw [hw]
  simp [hb]

/-- A character of four bytes has three bits in the first. -/
theorem step_four (hw : width first = 4) (hb : isSecond first b = true) (hc : isTail c = true)
    (hd : isTail d = true) :
    step index first (b :: c :: d :: rest) =
      .ok (Char.ofNat (first.toNat % 8 * 262144 + bits b * 4096 + bits c * 64 + bits d), rest) := by
  unfold step
  rw [hw]
  simp [hb, hc, hd]

end Step

/-! ## Numbers of characters

One lemma for each number of bytes: the first byte tells the width, the others pass as what may
follow it, and the bits of all of them make up the number again.
-/

section Encoded

variable {v index : Nat} {rest : List UInt8}

/-- The byte that holds the lowest six bits of a number, as those behind the first do. -/
def tailByte (v : Nat) : UInt8 := UInt8.ofNat (v % 64 + 0x80)

/-- The byte of the lowest bits as a number. -/
@[simp]
theorem toNat_tailByte (v : Nat) : (tailByte v).toNat = v % 64 + 0x80 :=
  toNat_ofNat_of_lt (by omega)

/-- It may stand behind the first byte. -/
@[simp]
theorem isTail_tailByte (v : Nat) : isTail (tailByte v) = true :=
  isTail_ofNat (Nat.mod_lt v (by decide))

/-- It gives back the lowest six bits. -/
@[simp]
theorem bits_tailByte (v : Nat) : bits (tailByte v) = v % 64 :=
  bits_ofNat (Nat.mod_lt v (by decide))

/-- Up to 128, numbers are read from one byte. -/
theorem step_oneByte (h : v < 0x80) :
    step index (UInt8.ofNat v) rest = .ok (Char.ofNat v, rest) := by
  have hfirst := toNat_ofNat_of_lt (show v < 256 by omega)
  have hw : width (UInt8.ofNat v) = 1 := by
    rw [width_of_toNat, hfirst, if_pos h]
  rw [step_one hw, hfirst]

/-- From there up to 2048, numbers are read from two bytes. -/
theorem step_twoBytes (hlow : 0x80 ≤ v) (hhigh : v < 0x800) :
    step index (UInt8.ofNat (v / 64 % 32 + 0xc0)) (tailByte v :: rest) =
      .ok (Char.ofNat v, rest) := by
  have hfirst := toNat_ofNat_of_lt (show v / 64 % 32 + 0xc0 < 256 by omega)
  have hw : width (UInt8.ofNat (v / 64 % 32 + 0xc0)) = 2 := by
    rw [width_of_toNat, hfirst, if_neg (by omega), if_neg (by omega), if_pos (by omega)]
  have hsum : (v / 64 % 32 + 0xc0) % 32 * 64 + v % 64 = v := by omega
  rw [step_two hw (isTail_tailByte v), hfirst, bits_tailByte, hsum]

/-- Surrogates are the numbers that the second byte leaves out here. -/
theorem step_threeBytes (hlow : 0x800 ≤ v) (hhigh : v < 0x10000)
    (hvalid : v < 0xd800 ∨ 0xdfff < v) :
    step index (UInt8.ofNat (v / 4096 % 16 + 0xe0)) (tailByte (v / 64) :: tailByte v :: rest) =
      .ok (Char.ofNat v, rest) := by
  have hfirst := toNat_ofNat_of_lt (show v / 4096 % 16 + 0xe0 < 256 by omega)
  have hw : width (UInt8.ofNat (v / 4096 % 16 + 0xe0)) = 3 := by
    rw [width_of_toNat, hfirst, if_neg (by omega), if_neg (by omega), if_neg (by omega),
      if_pos (by omega)]
  have hsecond : isSecond (UInt8.ofNat (v / 4096 % 16 + 0xe0)) (tailByte (v / 64)) = true := by
    apply isSecond_of_toNat (isTail_tailByte _) <;> rw [hfirst, toNat_tailByte] <;> omega
  have hsum : (v / 4096 % 16 + 0xe0) % 16 * 4096 + v / 64 % 64 * 64 + v % 64 = v := by omega
  rw [step_three hw hsecond (isTail_tailByte v), hfirst, bits_tailByte, bits_tailByte, hsum]

/-- Numbers beyond 65536 are read from four bytes, up to the last one that a character has. -/
theorem step_fourBytes (hlow : 0x10000 ≤ v) (hhigh : v < 0x110000) :
    step index (UInt8.ofNat (v / 262144 % 8 + 0xf0))
        (tailByte (v / 4096) :: tailByte (v / 64) :: tailByte v :: rest) =
      .ok (Char.ofNat v, rest) := by
  have hfirst := toNat_ofNat_of_lt (show v / 262144 % 8 + 0xf0 < 256 by omega)
  have hw : width (UInt8.ofNat (v / 262144 % 8 + 0xf0)) = 4 := by
    rw [width_of_toNat, hfirst, if_neg (by omega), if_neg (by omega), if_neg (by omega),
      if_neg (by omega), if_pos (by omega)]
  have hsecond : isSecond (UInt8.ofNat (v / 262144 % 8 + 0xf0)) (tailByte (v / 4096)) = true := by
    apply isSecond_of_toNat (isTail_tailByte _) <;> rw [hfirst, toNat_tailByte] <;> omega
  have hsum : (v / 262144 % 8 + 0xf0) % 8 * 262144 + v / 4096 % 64 * 4096 +
      v / 64 % 64 * 64 + v % 64 = v := by
    omega
  rw [step_four hw hsecond (isTail_tailByte _) (isTail_tailByte v), hfirst, bits_tailByte,
    bits_tailByte, bits_tailByte, hsum]

end Encoded

/-- The bytes of a character are read as that character. -/
theorem step_encodeChar (c : Char) :
    ∃ first more, String.utf8EncodeChar c = first :: more ∧
      ∀ index rest, step index first (more ++ rest) = .ok (c, rest) := by
  have hvalid : c.val.toNat < 0xd800 ∨ (0xdfff < c.val.toNat ∧ c.val.toNat < 0x110000) := c.valid
  have hc : Char.ofNat c.val.toNat = c := Char.ofNat_toNat c
  unfold String.utf8EncodeChar
  dsimp only
  generalize c.val.toNat = v at hvalid hc
  subst hc
  -- the ranges that the writer tells apart
  split
  next hone => exact ⟨_, _, rfl, fun _ _ => step_oneByte (by omega)⟩
  next hone =>
    split
    next htwo => exact ⟨_, _, rfl, fun _ _ => step_twoBytes (by omega) (by omega)⟩
    next htwo =>
      split
      next hthree =>
        exact ⟨_, _, rfl, fun _ _ => step_threeBytes (by omega) (by omega) (by omega)⟩
      next hthree => exact ⟨_, _, rfl, fun _ _ => step_fourBytes (by omega) (by omega)⟩

/-! ## Texts -/

/-- The bytes of characters. -/
def charBytes (chars : List Char) : List UInt8 := chars.flatMap String.utf8EncodeChar

@[simp] theorem charBytes_nil : charBytes [] = [] := rfl

@[simp] theorem charBytes_cons (c : Char) (chars : List Char) :
    charBytes (c :: chars) = String.utf8EncodeChar c ++ charBytes chars := List.flatMap_cons

/-- The bytes of a text are those of its characters. -/
theorem utf8Bytes_eq_charBytes (text : String) : utf8Bytes text = charBytes text.toList := by
  unfold utf8Bytes charBytes
  have hbytes : text.toUTF8 = text.toList.utf8Encode := String.utf8Encode_toList.symm
  rw [hbytes, List.utf8Encode]
  simp

/-- With fuel for each byte, characters are read from their bytes, one by one. -/
theorem decodeFrom_charBytes {chars : List Char} {index fuel : Nat}
    (hfuel : (charBytes chars).length ≤ fuel) :
    decodeFrom index fuel (charBytes chars) = .ok chars := by
  induction chars generalizing index fuel with
  | nil => simp [decodeFrom]
  | cons c chars ih =>
    obtain ⟨first, more, hencode, hstep⟩ := step_encodeChar c
    rw [charBytes_cons, hencode, List.cons_append] at hfuel ⊢
    rw [List.length_cons, List.length_append] at hfuel
    obtain ⟨fuel, rfl⟩ : ∃ k, fuel = k + 1 := ⟨fuel - 1, by omega⟩
    rw [decodeFrom, hstep]
    simp only [bind, Except.bind]
    rw [ih (by omega)]
    rfl

/-- The bytes of characters are read as a text of them. -/
theorem decode_charBytes (chars : List Char) :
    decode (charBytes chars) = .ok (String.ofList chars) := by
  unfold decode
  rw [decodeFrom_charBytes (Nat.le_refl _)]
  rfl

/-- The bytes of a text are read as that text. -/
theorem decode_utf8Bytes (text : String) : decode (utf8Bytes text) = .ok text := by
  rw [utf8Bytes_eq_charBytes, decode_charBytes, String.ofList_toList]

/-! ## Characters of one byte -/

section Ascii

variable {a c : Char}

/-- A character with a number below 128 has one byte. -/
theorem encodeChar_of_lt (h : c.toNat < 0x80) :
    String.utf8EncodeChar c = [UInt8.ofNat c.toNat] := by
  unfold String.utf8EncodeChar
  exact if_pos (Nat.le_of_lt_succ h)

/-- Of a character of several bytes each byte says that it is not one by itself. -/
theorem le_toNat_of_mem_encodeChar (h : 0x80 ≤ c.toNat) {b : UInt8}
    (hb : b ∈ String.utf8EncodeChar c) : 0x80 ≤ b.toNat := by
  have htail : ∀ v, 0x80 ≤ (UInt8.ofNat (v % 64 + 128)).toNat := by
    intro v
    rw [toNat_ofNat_of_lt (by omega)]
    omega
  have hlead : ∀ v, v < 128 → 0x80 ≤ (UInt8.ofNat (v + 128)).toNat := by
    intro v hv
    rw [toNat_ofNat_of_lt (by omega)]
    omega
  unfold String.utf8EncodeChar at hb
  dsimp only at hb
  change 0x80 ≤ c.val.toNat at h
  -- two, three or four bytes, the first of them with the larger part
  split at hb
  · omega
  · split at hb
    · rcases List.mem_pair.mp hb with rfl | rfl
      · exact hlead (c.val.toNat / 64 % 32 + 64) (by omega)
      · exact htail _
    · split at hb <;> simp only [List.mem_cons, List.not_mem_nil, or_false] at hb
      · rcases hb with rfl | rfl | rfl
        · exact hlead (c.val.toNat / 4096 % 16 + 96) (by omega)
        · exact htail _
        · exact htail _
      · rcases hb with rfl | rfl | rfl | rfl
        · exact hlead (c.val.toNat / 262144 % 8 + 112) (by omega)
        · exact htail _
        · exact htail _
        · exact htail _

/-- The byte of a character of one byte is in no other character. -/
theorem ne_of_mem_encodeChar (ha : a.toNat < 0x80) (hne : c ≠ a) {b : UInt8}
    (hb : b ∈ String.utf8EncodeChar c) : b ≠ UInt8.ofNat a.toNat := by
  rintro rfl
  have hbyte : (UInt8.ofNat a.toNat).toNat = a.toNat := toNat_ofNat_of_lt (by omega)
  by_cases hc : c.toNat < 0x80
  · rw [encodeChar_of_lt hc, List.mem_singleton] at hb
    have hnat := congrArg UInt8.toNat hb
    rw [hbyte, toNat_ofNat_of_lt (by omega)] at hnat
    exact hne (Char.toNat_inj.mp hnat.symm)
  · have := le_toNat_of_mem_encodeChar (Nat.le_of_not_lt hc) hb
    omega

/-- Up to a character of one byte, the bytes are those of the characters in front of it. -/
theorem takeWhile_charBytes (ha : a.toNat < 0x80) (chars : List Char) :
    (charBytes chars).takeWhile (· != UInt8.ofNat a.toNat) =
      charBytes (chars.takeWhile (· != a)) := by
  induction chars with
  | nil => rfl
  | cons c chars ih =>
    by_cases hc : c = a
    · subst hc
      simp [encodeChar_of_lt ha]
    · -- no byte of another character stops the search
      have hall : ∀ b ∈ String.utf8EncodeChar c, (b != UInt8.ofNat a.toNat) = true :=
        fun b hb => bne_iff_ne.mpr (ne_of_mem_encodeChar ha hc hb)
      rw [charBytes_cons, List.takeWhile_append_of_pos hall, ih, List.takeWhile_cons,
        if_pos (bne_iff_ne.mpr hc), charBytes_cons]

/-- From a character of one byte on, the bytes are those of the characters from it on. -/
theorem dropWhile_charBytes (ha : a.toNat < 0x80) (chars : List Char) :
    (charBytes chars).dropWhile (· != UInt8.ofNat a.toNat) =
      charBytes (chars.dropWhile (· != a)) := by
  induction chars with
  | nil => rfl
  | cons c chars ih =>
    by_cases hc : c = a
    · subst hc
      simp [encodeChar_of_lt ha]
    · have hall : ∀ b ∈ String.utf8EncodeChar c, (b != UInt8.ofNat a.toNat) = true :=
        fun b hb => bne_iff_ne.mpr (ne_of_mem_encodeChar ha hc hb)
      rw [charBytes_cons, List.dropWhile_append_of_pos hall, ih, List.dropWhile_cons,
        if_pos (bne_iff_ne.mpr hc)]

end Ascii

end JavaAtlas.Utf8
