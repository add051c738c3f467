import JavaAtlas.Proofs.Text.Utf8

namespace JavaAtlas.ModifiedUtf8

/-! # Text in units of sixteen bits

The form in which compilers write texts into class files. A text is a list of units of sixteen
bits, of which two stand for a character beyond the first 65536, and every unit is written by
itself: zero in two bytes, so that no byte is zero, and the halves of a character in three bytes
each.

* `decode_of_plain`: units that are characters by themselves, zero apart, are written as in UTF-8;
* `decode_of_not_plain`: a text with any other unit is none in UTF-8.
-/

open Utf8

/-- The bytes of a unit. -/
def unitBytes (u : UInt16) : List UInt8 :=
  let v := u.toNat
  if 0 < v ∧ v < 0x80 then [UInt8.ofNat v]
  else if v < 0x800 then [UInt8.ofNat (v / 64 + 0xC0), tailByte v]
  else [UInt8.ofNat (v / 4096 + 0xE0), tailByte (v / 64), tailByte v]

/-- The bytes of a text. -/
def bytes (units : List UInt16) : List UInt8 := units.flatMap unitBytes

/-- A unit other than zero that is a character by itself, and not one half of one. -/
def Plain (u : UInt16) : Prop := u.toNat ≠ 0 ∧ (u.toNat < 0xD800 ∨ 0xDFFF < u.toNat)

instance : DecidablePred Plain := fun _ => inferInstanceAs (Decidable (_ ∧ _))

section Unit

variable {u : UInt16}

/-- The character that a unit is. -/
def charOf (u : UInt16) : Char := Char.ofNat u.toNat

/-- A plain unit is the number of its character. -/
theorem toNat_charOf (h : Plain u) : (charOf u).val.toNat = u.toNat := by
  have hlt := u.toNat_lt
  have hvalid : u.toNat.isValidChar := by
    unfold Nat.isValidChar
    have := h.2
    omega
  unfold charOf
  rw [Char.ofNat, dif_pos hvalid]
  rfl

/-- A plain unit is written as its character is in UTF-8. -/
theorem unitBytes_of_plain (h : Plain u) : unitBytes u = String.utf8EncodeChar (charOf u) := by
  have hzero := h.1
  have hlt := u.toNat_lt
  unfold String.utf8EncodeChar unitBytes
  dsimp only
  rw [toNat_charOf h]
  generalize u.toNat = v at hzero hlt
  -- the same numbers of bytes for the same ranges
  by_cases hone : v ≤ 127
  · rw [if_pos ⟨by omega, by omega⟩, if_pos hone]
  · rw [if_neg (by omega), if_neg hone]
    by_cases htwo : v ≤ 2047
    · rw [if_pos (by omega), if_pos htwo, Nat.mod_eq_of_lt (show v / 64 < 32 by omega)]
      rfl
    · rw [if_neg (by omega), if_neg htwo, if_pos (show v ≤ 65535 by omega),
        Nat.mod_eq_of_lt (show v / 4096 < 16 by omega)]
      rfl

/-- Neither the two bytes of zero nor those of one half of a character start one in UTF-8. -/
theorem step_of_not_plain (h : ¬ Plain u) :
    ∃ first more, unitBytes u = first :: more ∧
      ∀ index rest, step index first (more ++ rest) = .error (.invalid 1 index) := by
  by_cases hzero : u.toNat = 0
  · refine ⟨0xC0, [0x80], ?_, fun _ _ => rfl⟩
    unfold unitBytes
    rw [hzero]
    rfl
  · -- the first byte of a half leaves out just the second bytes that halves have
    have hhalf : 0xD800 ≤ u.toNat ∧ u.toNat ≤ 0xDFFF := by
      unfold Plain at h
      omega
    refine ⟨0xED, [tailByte (u.toNat / 64), tailByte u.toNat], ?_, ?_⟩
    · unfold unitBytes
      dsimp only
      rw [if_neg (by omega), if_neg (by omega), show u.toNat / 4096 = 13 by omega]
      rfl
    · intro index rest
      have hsecond : isSecond 0xED (tailByte (u.toNat / 64)) = false := by
        have hbyte := toNat_tailByte (u.toNat / 64)
        have hhigh : ¬ tailByte (u.toNat / 64) ≤ 0x9F := by
          rw [UInt8.le_iff_toNat_le, hbyte]
          show ¬ u.toNat / 64 % 64 + 0x80 ≤ 0x9F
          omega
        show (decide (0x80 ≤ tailByte (u.toNat / 64)) && decide (tailByte (u.toNat / 64) ≤ 0x9F)) =
          false
        rw [decide_eq_false hhigh, Bool.and_false]
      exact step_three_refused rfl hsecond

end Unit

section Text

variable {units : List UInt16}

/-- A text of plain units is written as its characters are. -/
theorem bytes_of_plain (h : ∀ u ∈ units, Plain u) : bytes units = charBytes (units.map charOf) := by
  unfold bytes charBytes
  rw [List.flatMap_map]
  exact List.flatMap_congr fun u hu => unitBytes_of_plain (h u hu)

/-- A text of plain units is read as its characters. -/
theorem decode_of_plain (h : ∀ u ∈ units, Plain u) :
    decode (bytes units) = .ok (String.ofList (units.map charOf)) := by
  rw [bytes_of_plain h, decode_charBytes]

/-- Reading goes on to the first unit that is not plain, and fails there. -/
theorem decodeFrom_of_not_plain (h : ∃ u ∈ units, ¬ Plain u) (index : Nat) {fuel : Nat}
    (hfuel : (bytes units).length ≤ fuel) :
    ∃ fault, decodeFrom index fuel (bytes units) = .error fault := by
  induction units generalizing index fuel with
  | nil => simp at h
  | cons u units ih =>
    have hbytes : bytes (u :: units) = unitBytes u ++ bytes units := List.flatMap_cons
    -- a plain unit is read, so that the fault comes behind it
    by_cases hplain : Plain u
    · obtain ⟨first, more, hencode, hstep⟩ := step_encodeChar (charOf u)
      rw [hbytes, unitBytes_of_plain hplain, hencode, List.cons_append] at hfuel ⊢
      rw [List.length_cons, List.length_append] at hfuel
      obtain ⟨fuel, rfl⟩ : ∃ k, fuel = k + 1 := ⟨fuel - 1, by omega⟩
      have hrest : ∃ u ∈ units, ¬ Plain u := by
        obtain ⟨v, hv, hnot⟩ := h
        rcases List.mem_cons.mp hv with rfl | hmem
        · exact absurd hplain hnot
        · exact ⟨v, hmem, hnot⟩
      obtain ⟨fault, hfault⟩ := ih hrest (index + width first) (show (bytes units).length ≤ fuel by omega)
      refine ⟨fault, ?_⟩
      rw [decodeFrom, hstep]
      show (decodeFrom (index + width first) fuel (bytes units) >>= _) = _
      rw [hfault]
      rfl
    · obtain ⟨first, more, hunit, hstep⟩ := step_of_not_plain hplain
      rw [hbytes, hunit, List.cons_append] at hfuel ⊢
      obtain ⟨fuel, rfl⟩ : ∃ k, fuel = k + 1 :=
        ⟨fuel - 1, by rw [List.length_cons] at hfuel; omega⟩
      refine ⟨.invalid 1 index, ?_⟩
      rw [decodeFrom, hstep]
      rfl

/-- A text with a unit that is not plain is refused. -/
theorem decode_of_not_plain (h : ∃ u ∈ units, ¬ Plain u) :
    ∃ fault, decode (bytes units) = .error fault := by
  obtain ⟨fault, hfault⟩ := decodeFrom_of_not_plain h 0 (Nat.le_refl _)
  refine ⟨fault, ?_⟩
  unfold decode
  rw [hfault]
  rfl

/-- A text is none in UTF-8 exactly if it has a unit that is not plain. -/
theorem decode_eq_error_iff :
    (∃ fault, decode (bytes units) = .error fault) ↔ ∃ u ∈ units, ¬ Plain u := by
  constructor
  · rintro ⟨fault, hfault⟩
    by_contra hnone
    have hplain : ∀ u ∈ units, Plain u := by
      intro u hu
      by_contra hnot
      exact hnone ⟨u, hu, hnot⟩
    rw [decode_of_plain hplain] at hfault
    cases hfault
  · exact decode_of_not_plain

end Text

/-- A zero takes two bytes, and a character of two units takes six. -/
example :
    bytes [0x61, 0, 0xD83D, 0xDE00] = [0x61, 0xC0, 0x80, 0xED, 0xA0, 0xBD, 0xED, 0xB8, 0x80] := by
  decide

end JavaAtlas.ModifiedUtf8
