import Mathlib.Data.List.Basic
import JavaAtlas.Index.View

namespace JavaAtlas

/-! # Rows in the order of their keys

Sorting by a key keeps the rows, puts them in order, and leaves those of equal keys as they were.
The last is what lets rows be left out before or after sorting with the same result.
-/

variable {α β : Type} {le : β → β → Bool}

/-- A comparison by which keys can be put in order; different keys may be as good as equal. -/
structure KeyOrder (le : β → β → Bool) : Prop where
  trans : ∀ a b c, le a b → le b c → le a c
  total : ∀ a b, le a b || le b a

/-- Places in a text are totally ordered. -/
theorem keyOrder_int : KeyOrder fun a b : Int => decide (a ≤ b) where
  trans := by
    intro a b c hab hbc
    simp only [decide_eq_true_eq] at hab hbc ⊢
    omega
  total := by
    intro a b
    simpa using Int.le_total a b

/-- Ordering rows changes nothing but their order. -/
theorem sortByKey_perm (le : β → β → Bool) (key : α → β) (values : List α) :
    (sortByKey le key values).Perm values :=
  List.mergeSort_perm values _

/-- The rows are the same in any order. -/
@[simp] theorem mem_sortByKey {key : α → β} {a : α} {values : List α} :
    a ∈ sortByKey le key values ↔ a ∈ values :=
  (sortByKey_perm le key values).mem_iff

/-- There is no first row only if there is none. -/
theorem head?_sortByKey_eq_none_iff {key : α → β} {values : List α} :
    (sortByKey le key values).head? = none ↔ values = [] := by
  rw [List.head?_eq_none_iff, ← List.length_eq_zero_iff,
    (sortByKey_perm le key values).length_eq, List.length_eq_zero_iff]

/-- A list that is cut where a test begins to hold is cut at one place only. -/
theorem cut_unique {p : α → Bool} {l₁ l₂ k₁ k₂ : List α} (h : l₁ ++ l₂ = k₁ ++ k₂)
    (hl₁ : ∀ b ∈ l₁, p b = false) (hl₂ : ∀ b ∈ l₂, p b = true)
    (hk₁ : ∀ b ∈ k₁, p b = false) (hk₂ : ∀ b ∈ k₂, p b = true) : l₁ = k₁ ∧ l₂ = k₂ := by
  induction l₁ generalizing k₁ with
  | nil =>
    cases k₁ with
    | nil => exact ⟨rfl, h⟩
    | cons b k₁ =>
      have hb : b ∈ l₂ := by
        rw [← List.nil_append l₂, h]
        exact List.mem_cons_self
      exact absurd (hl₂ b hb) (by simp [hk₁])
  | cons a l₁ ih =>
    cases k₁ with
    | nil =>
      have ha : a ∈ k₂ := by
        rw [← List.nil_append k₂, ← h]
        exact List.mem_cons_self
      exact absurd (hk₂ a ha) (by simp [hl₁])
    | cons b k₁ =>
      rw [List.cons_append, List.cons_append, List.cons.injEq] at h
      obtain ⟨rfl, h⟩ := h
      rw [List.forall_mem_cons] at hl₁ hk₁
      obtain ⟨rfl, rfl⟩ := ih h hl₁.2 hk₁.2
      exact ⟨rfl, rfl⟩

namespace KeyOrder

variable (order : KeyOrder le) (key : α → β)
include order

/-- The keys ascend. -/
theorem pairwise_sortByKey (values : List α) :
    (sortByKey le key values).Pairwise fun a b => le (key a) (key b) :=
  List.pairwise_mergeSort (fun a b c => order.trans (key a) (key b) (key c))
    (fun a b => order.total (key a) (key b)) values

/-- A row goes in front of the first one that it may precede. -/
theorem sortByKey_cons (a : α) (values : List α) :
    ∃ l₁ l₂, sortByKey le key (a :: values) = l₁ ++ a :: l₂ ∧
      sortByKey le key values = l₁ ++ l₂ ∧
      (∀ b ∈ l₁, le (key a) (key b) = false) ∧ ∀ b ∈ l₂, le (key a) (key b) = true := by
  obtain ⟨l₁, l₂, hcons, hrest, hbefore⟩ :=
    List.mergeSort_cons (fun a b c => order.trans (key a) (key b) (key c))
      (fun a b => order.total (key a) (key b)) a values
  -- what stands behind it has no smaller key, since the whole is ordered
  have hsorted := order.pairwise_sortByKey key (a :: values)
  rw [sortByKey, hcons, List.pairwise_append, List.pairwise_cons] at hsorted
  refine ⟨l₁, l₂, hcons, hrest, ?_, hsorted.2.1.1⟩
  intro b hb
  simpa using hbefore b hb

/-- Leaving rows out and ordering them may be done either way round. -/
theorem filter_sortByKey (p : α → Bool) (values : List α) :
    (sortByKey le key values).filter p = sortByKey le key (values.filter p) := by
  induction values with
  | nil => simp [sortByKey]
  | cons a values ih =>
    obtain ⟨l₁, l₂, hcons, hrest, hbefore, hafter⟩ := order.sortByKey_cons key a values
    rw [hrest, List.filter_append] at ih
    rw [hcons, List.filter_append, List.filter_cons, List.filter_cons]
    split
    · -- The row stays; the others are cut at its place whether they are filtered or not.
      obtain ⟨k₁, k₂, hcons', hrest', hbefore', hafter'⟩ :=
        order.sortByKey_cons key a (values.filter p)
      have hcut : l₁.filter p = k₁ ∧ l₂.filter p = k₂ :=
        cut_unique (ih.trans hrest') (fun b hb => hbefore b (List.mem_of_mem_filter hb))
          (fun b hb => hafter b (List.mem_of_mem_filter hb)) hbefore' hafter'
      rw [hcons', hcut.1, hcut.2]
    · exact ih

/-- The first row has a least key. -/
theorem le_of_head?_sortByKey {values : List α} {a : α}
    (h : (sortByKey le key values).head? = some a) :
    a ∈ values ∧ ∀ b ∈ values, le (key a) (key b) := by
  obtain ⟨rest, hsorted⟩ := List.head?_eq_some_iff.1 h
  have hpairwise := order.pairwise_sortByKey key values
  -- the rows are the first one and those behind it
  have hmem : ∀ b, b ∈ values ↔ b = a ∨ b ∈ rest := by
    intro b
    rw [← (sortByKey_perm le key values).mem_iff, hsorted, List.mem_cons]
  rw [hsorted, List.pairwise_cons] at hpairwise
  refine ⟨(hmem a).2 (.inl rfl), ?_⟩
  intro b hb
  rcases (hmem b).1 hb with rfl | hb
  · simpa using order.total (key b) (key b)
  · exact hpairwise.1 b hb

end KeyOrder

end JavaAtlas
