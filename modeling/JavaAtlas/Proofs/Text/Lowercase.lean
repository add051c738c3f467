import JavaAtlas.Text.Lowercase

namespace JavaAtlas

/-! # Dots in small letters

A dot has no case, and no character but a dot has a dot in its small form. So a text with a dot can
be a part of another one, whatever the case, only if that one has a dot, too.
-/

set_option maxRecDepth 20000 in
/-- The table of runs, read from its text, has small forms behind the dot only. -/
theorem lowerRunsText_eq_ofList : ∃ chars, lowerRunsText = String.ofList chars ∧
    ∀ r ∈ ((CodeRanges.wordsOf chars).filter (· ≠ [])).map LowerRun.ofText,
      ('.'.toNat : Int) < r.first + r.shift := by
  unfold lowerRunsText
  refine ⟨_, by with_reducible rfl, ?_⟩
  decide +kernel

/-- The small forms in all runs lie behind the dot. -/
theorem dot_lt_of_mem_lowerRuns {r : LowerRun} (h : r ∈ lowerRuns) :
    ('.'.toNat : Int) < r.first + r.shift := by
  obtain ⟨chars, htext, hruns⟩ := lowerRunsText_eq_ofList
  refine hruns r ?_
  rwa [lowerRuns, htext, String.toList_ofList] at h

/-- The run that is found for a character begins at it or before it. -/
theorem first_le_of_lowerRun? {c : Nat} {r : LowerRun} (h : lowerRun? c = some r) :
    r ∈ lowerRuns ∧ r.first ≤ c := by
  unfold lowerRun? at h
  have hrun := List.find?_some h
  simp only [Bool.and_eq_true, decide_eq_true_eq] at hrun
  exact ⟨List.mem_of_find?_eq_some h, hrun.1.1⟩

/-- Only the number of the dot is shown as a dot. -/
theorem toNat_dot_of_ofNat {n : Nat} (h : Char.ofNat n = '.') : n = '.'.toNat := by
  unfold Char.ofNat at h
  by_cases hvalid : n.isValidChar
  · rw [dif_pos hvalid] at h
    exact congrArg Char.toNat h
  · rw [dif_neg hvalid] at h
    exact absurd h (by decide)

/-- Among plain characters only the dot has the dot as its small form. -/
theorem toLower_eq_dot_iff {c : Char} : c.toLower = '.' ↔ c = '.' := by
  constructor
  · intro h
    unfold Char.toLower at h
    split at h
    next hupper =>
      -- the small form of a capital lies behind the capital letters
      have hfirst : 'A'.val.toNat ≤ c.val.toNat := hupper.1
      have hlast : c.val.toNat ≤ 'Z'.val.toNat := hupper.2
      have hdot : (c.val + ('a'.val - 'A'.val)).toNat = '.'.val.toNat :=
        congrArg (·.val.toNat) h
      rw [UInt32.toNat_add] at hdot
      simp only [Char.reduceVal, UInt32.reduceSub, UInt32.reduceToNat] at hfirst hlast hdot
      omega
    next => exact h
  · rintro rfl
    rfl

/-- Among all characters, too, only the dot has a dot in its small form. -/
theorem dot_mem_lowerChar_iff {c : Char} : '.' ∈ lowerChar c ↔ c = '.' := by
  unfold lowerChar
  split
  · rw [List.mem_singleton, eq_comm, toLower_eq_dot_iff]
  next hlarge =>
    -- a character beyond the plain ones is mapped by a rule of its own, by a run, or to itself
    have hdot : c ≠ '.' := by
      rintro rfl
      exact hlarge (by decide)
    refine iff_of_false ?_ hdot
    split
    · decide
    · split
      next r hr =>
        intro hmem
        obtain ⟨hrun, hfirst⟩ := first_le_of_lowerRun? hr
        have hlt := dot_lt_of_mem_lowerRuns hrun
        have hcode := toNat_dot_of_ofNat (List.mem_singleton.mp hmem).symm
        omega
      next =>
        rw [List.mem_singleton]
        exact hdot.symm

/-- What stands before a character does not matter for dots. -/
theorem dot_mem_lowerFrom_iff (before text : List Char) :
    '.' ∈ lowerFrom before text ↔ '.' ∈ text := by
  induction text generalizing before with
  | nil => rfl
  | cons c rest ih =>
    have hmapped : ('.' ∈ if c.toNat == 0x3A3 then
        [if nextIsCased before && !nextIsCased rest then '\u03c2' else '\u03c3']
        else lowerChar c) ↔ '.' = c := by
      split
      next hsigma =>
        -- the last letter of a word may have a form of its own
        refine iff_of_false ?_ ?_
        · rw [List.mem_singleton]
          split <;> decide
        · rintro rfl
          revert hsigma
          decide
      next => rw [dot_mem_lowerChar_iff, eq_comm]
    rw [lowerFrom, List.mem_append, List.mem_cons, ih, hmapped]

/-- A text has a dot exactly if its lowercase form has one. -/
theorem dot_mem_toLowercase_iff (text : String) :
    '.' ∈ (toLowercase text).toList ↔ '.' ∈ text.toList := by
  rw [toLowercase, String.toList_ofList, dot_mem_lowerFrom_iff]

end JavaAtlas
