import Mathlib.Data.List.Basic

namespace JavaAtlas

/-! # Steps that may fail

What is known when a chain of steps, or one step for each element of a list, succeeds.
-/

/-- Two steps succeed exactly if the first does, and the second does with its result. -/
theorem bind_eq_ok_iff {α β ε : Type} {x : Except ε α} {f : α → Except ε β} {b : β} :
    x >>= f = .ok b ↔ ∃ a, x = .ok a ∧ f a = .ok b := by
  cases x with
  | error e => simp [bind, Except.bind]
  | ok a => simp [bind, Except.bind]

theorem exists_of_map_fst_eq_ok {α β ε : Type} {x : Except ε (α × β)} {a : α}
    (h : x.map (·.1) = .ok a) : ∃ b, x = .ok (a, b) := by
  cases x with
  | error e => cases h
  | ok p =>
    cases h
    exact ⟨p.2, rfl⟩

/-- A result that is there is that of a success. -/
theorem eq_ok_of_toOption_eq_some {α ε : Type} {x : Except ε α} {a : α}
    (h : x.toOption = some a) : x = .ok a := by
  cases x with
  | error e => cases h
  | ok b =>
    cases h
    rfl

/-- A result that is changed afterwards comes from one that was there before. -/
theorem map_eq_ok_iff {α β ε : Type} {f : α → β} {x : Except ε α} {b : β} :
    x.map f = .ok b ↔ ∃ a, x = .ok a ∧ f a = b := by
  cases x with
  | error e => simp [Except.map]
  | ok a => simp [Except.map]

/-- Whatever is said of an error, a success stays what it is. -/
theorem mapError_eq_ok_iff {α ε δ : Type} {f : ε → δ} {x : Except ε α} {a : α} :
    x.mapError f = .ok a ↔ x = .ok a := by
  cases x with
  | error e => simp [Except.mapError]
  | ok b => simp [Except.mapError]

/-- An error that is said in other words comes from one that was there before. -/
theorem mapError_eq_error_iff {α ε δ : Type} {f : ε → δ} {x : Except ε α} {e : δ} :
    x.mapError f = .error e ↔ ∃ c, x = .error c ∧ f c = e := by
  cases x with
  | error c => simp [Except.mapError]
  | ok b => simp [Except.mapError]

section MapM

variable {α β ε : Type} {f : α → Except ε β} {xs : List α}

/-- A step for each element succeeds only if it does for the first one and for the rest. -/
theorem mapM_cons_eq_ok {x : α} {ys : List β} (h : (x :: xs).mapM f = .ok ys) :
    ∃ y rest, f x = .ok y ∧ xs.mapM f = .ok rest ∧ ys = y :: rest := by
  rw [List.mapM_cons] at h
  cases hx : f x with
  | error e =>
    rw [hx] at h
    cases h
  | ok y =>
    cases hxs : xs.mapM f with
    | error e =>
      rw [hx, hxs] at h
      cases h
    | ok rest =>
      rw [hx, hxs] at h
      cases h
      exact ⟨y, rest, rfl, rfl, rfl⟩

/-- The results are those of the single elements. -/
theorem mem_of_mapM_eq_ok {ys : List β} (h : xs.mapM f = .ok ys) {y : β} :
    y ∈ ys ↔ ∃ x ∈ xs, f x = .ok y := by
  induction xs generalizing ys with
  | nil =>
    cases h
    simp
  | cons x xs ih =>
    obtain ⟨z, rest, hx, hxs, rfl⟩ := mapM_cons_eq_ok h
    -- the first result is that of the first element, the others are those of the rest
    simp [ih hxs, hx, eq_comm]

/-- A step for each element succeeds exactly if it does for every single one. -/
theorem exists_mapM_eq_ok_iff :
    (∃ ys, xs.mapM f = .ok ys) ↔ ∀ x ∈ xs, ∃ y, f x = .ok y := by
  induction xs with
  | nil => simp [pure, Except.pure]
  | cons x xs ih =>
    rw [List.forall_mem_cons, ← ih]
    -- the results of the rest stand behind that of the first element
    constructor
    · rintro ⟨ys, h⟩
      obtain ⟨y, rest, hx, hxs, -⟩ := mapM_cons_eq_ok h
      exact ⟨⟨y, hx⟩, ⟨rest, hxs⟩⟩
    · rintro ⟨⟨y, hx⟩, ⟨rest, hxs⟩⟩
      exact ⟨y :: rest, by rw [List.mapM_cons, hx, hxs]; rfl⟩

/-- Where each step is known to succeed, the results are known. -/
theorem mapM_eq_ok_map {g : α → β} (h : ∀ x ∈ xs, f x = .ok (g x)) :
    xs.mapM f = .ok (xs.map g) := by
  induction xs with
  | nil => rfl
  | cons x xs ih =>
    obtain ⟨hx, hxs⟩ := List.forall_mem_cons.1 h
    rw [List.mapM_cons, hx, ih hxs]
    rfl

end MapM

end JavaAtlas
