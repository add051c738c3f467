import Mathlib.Data.List.Basic

namespace JavaAtlas

/-! # Joined texts

Texts with a separator between them: when there is nothing in them, how they begin and end, and
which characters they have.
-/

/-- Joined texts that are not empty are empty only if there are none. -/
theorem intercalate_eq_empty_iff {sep : String} {parts : List String}
    (hparts : ∀ s ∈ parts, s ≠ "") : sep.intercalate parts = "" ↔ parts = [] := by
  constructor
  · intro h
    cases parts with
    | nil => rfl
    | cons s rest =>
      have hs : s ≠ "" := hparts s List.mem_cons_self
      cases rest with
      | nil =>
        rw [String.intercalate_singleton] at h
        exact absurd h hs
      | cons t rest =>
        rw [String.intercalate_cons_cons] at h
        simp [hs] at h
  · rintro rfl
    exact String.intercalate_nil

/-- A further text is joined behind a separator. -/
theorem intercalate_concat {sep s : String} {parts : List String} (hne : parts ≠ []) :
    sep.intercalate (parts ++ [s]) = sep.intercalate parts ++ sep ++ s := by
  rw [String.intercalate_append_of_ne_nil hne (List.cons_ne_nil s []),
    String.intercalate_singleton]

/-- The characters of a joined text stand in its parts or between them. -/
theorem mem_toList_intercalate {sep : String} {parts : List String} {ch : Char}
    (h : ch ∈ (sep.intercalate parts).toList) : ch ∈ sep.toList ∨ ∃ s ∈ parts, ch ∈ s.toList := by
  induction parts with
  | nil => simp at h
  | cons s parts ih =>
    -- only between two parts there is a separator
    by_cases hnil : parts = []
    · rw [hnil, String.intercalate_singleton] at h
      exact Or.inr ⟨s, List.mem_cons_self, h⟩
    · rw [String.intercalate_cons_of_ne_nil hnil, String.toList_append, String.toList_append,
        List.mem_append, List.mem_append] at h
      rcases h with (h | h) | h
      · exact Or.inr ⟨s, List.mem_cons_self, h⟩
      · exact Or.inl h
      · exact (ih h).imp_right fun ⟨t, ht, hch⟩ => ⟨t, List.mem_cons_of_mem s ht, hch⟩

/-- The characters of a part are in the joined text. -/
theorem mem_toList_intercalate_of_mem {sep s : String} {parts : List String} (hs : s ∈ parts)
    {ch : Char} (hch : ch ∈ s.toList) : ch ∈ (sep.intercalate parts).toList := by
  induction parts with
  | nil => cases hs
  | cons t parts ih =>
    by_cases hnil : parts = []
    · rw [hnil, List.mem_singleton] at hs
      rwa [hnil, String.intercalate_singleton, ← hs]
    · rw [String.intercalate_cons_of_ne_nil hnil, String.toList_append, String.toList_append,
        List.mem_append, List.mem_append]
      rcases List.mem_cons.mp hs with rfl | hs
      · exact Or.inl (Or.inl hch)
      · exact Or.inr (ih hs)

/-- A joined text begins as its first part does. -/
theorem head?_intercalate_cons {sep s : String} (hs : s ≠ "") (rest : List String) :
    (sep.intercalate (s :: rest)).toList.head? = s.toList.head? := by
  have hne : s.toList ≠ [] := by
    simpa using hs
  cases rest with
  | nil => rw [String.intercalate_singleton]
  | cons t rest =>
    rw [String.intercalate_cons_cons, String.append_assoc, String.toList_append,
      List.head?_append_of_ne_nil _ hne]

end JavaAtlas
