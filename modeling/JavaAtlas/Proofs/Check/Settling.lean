import Mathlib.Data.List.Induction
import JavaAtlas.Check.Settling

namespace JavaAtlas

/-! # The first three equal readings

Diagnostics are looked at until they have settled, or until there is no time for another look. What
comes of it depends on the readings among the looks, and on nothing that lies between them.

* `lookAgain`, `readingsOf`: looks one after the other, and what was read by them;
* `SettlesAt`: the reading with which three in a row are equal for the first time;
* `succ_le_streak_iff`: what the readings so far are remembered by;
* `run_lookUntilSettled`: what a run comes to, round by round;
* `lookUntilSettled_cases`: settled exactly at that reading, or timed out after all of them.
-/

/-! ## Looks and readings -/

/-- Looks one after the other, whatever they find. -/
def lookAgain {σ : Type} (look : StateM σ Look) : Nat → StateM σ (List Look)
  | 0 => return []
  | rounds + 1 => do
    let found ← look
    return found :: (← lookAgain look rounds)

/-- How many diagnostics a look has read, if it has read any. -/
def Look.count? : Look → Option Nat
  | .reading count => some count
  | .building | .uncommitted | .unreadable => none

/-- The readings among looks. -/
def readingsOf (looks : List Look) : List Nat := looks.filterMap Look.count?

/-- The reading with this number, the first being number one, is equal to the two before it. -/
def ThirdEqual (counts : List Nat) (number : Nat) : Prop :=
  ∃ i count, number = i + 3 ∧ counts[i]? = some count ∧ counts[i + 1]? = some count ∧
    counts[i + 2]? = some count

/-- The reading with this number is the first one that is equal to the two before it. -/
def SettlesAt (counts : List Nat) (number : Nat) : Prop :=
  ThirdEqual counts number ∧ ∀ earlier < number, ¬ ThirdEqual counts earlier

section Readings

variable {counts rest : List Nat} {number : Nat}

/-- The third equal reading is one of the readings. -/
theorem ThirdEqual.le_length (h : ThirdEqual counts number) : number ≤ counts.length := by
  obtain ⟨i, count, rfl, -, -, hlast⟩ := h
  obtain ⟨hlt, -⟩ := List.getElem?_eq_some_iff.mp hlast
  omega

/-- What is read later does not change which readings are equal. -/
theorem thirdEqual_append_iff (h : number ≤ counts.length) :
    ThirdEqual (counts ++ rest) number ↔ ThirdEqual counts number := by
  constructor
  · rintro ⟨i, count, rfl, hfirst, hsecond, hthird⟩
    rw [List.getElem?_append_left (by omega)] at hfirst hsecond hthird
    exact ⟨i, count, rfl, hfirst, hsecond, hthird⟩
  · rintro ⟨i, count, rfl, hfirst, hsecond, hthird⟩
    refine ⟨i, count, rfl, ?_, ?_, ?_⟩
    · rwa [List.getElem?_append_left (by omega)]
    · rwa [List.getElem?_append_left (by omega)]
    · rwa [List.getElem?_append_left (by omega)]

/-- Whether the last reading is equal to the two before it can be seen at the end of the list. -/
theorem thirdEqual_length_iff :
    ThirdEqual counts counts.length ↔
      ∃ before count, counts = before ++ List.replicate 3 count := by
  constructor
  · rintro ⟨i, count, hlength, hfirst, hsecond, hthird⟩
    refine ⟨counts.take i, count, ?_⟩
    -- Three readings are left from there on, and all are equal.
    have hdrop : counts.drop i = List.replicate 3 count := by
      apply List.ext_getElem?
      intro j
      rw [List.getElem?_drop]
      have hcases : j = 0 ∨ j = 1 ∨ j = 2 ∨ 3 ≤ j := by omega
      rcases hcases with rfl | rfl | rfl | hj
      · exact hfirst
      · exact hsecond
      · exact hthird
      · rw [List.getElem?_eq_none (by omega), List.getElem?_eq_none (by simpa using hj)]
    rw [← hdrop, List.take_append_drop]
  · rintro ⟨before, count, rfl⟩
    have hlength : (before ++ List.replicate 3 count).length = before.length + 3 := by
      rw [List.length_append, List.length_replicate]
    have hat : ∀ j < 3, (before ++ List.replicate 3 count)[before.length + j]? = some count := by
      intro j hj
      rw [List.getElem?_append_right (Nat.le_add_right _ _), Nat.add_sub_cancel_left,
        List.getElem?_replicate, if_pos hj]
    exact ⟨before.length, count, hlength, hat 0 (by omega), hat 1 (by omega), hat 2 (by omega)⟩

/-- At most the last reading is the first to be equal to the two before it, if none was before. -/
theorem settlesAt_of_thirdEqual {count : Nat} (hnone : ∀ earlier, ¬ ThirdEqual counts earlier)
    (h : ThirdEqual (counts ++ [count]) (counts ++ [count]).length) (rest : List Nat) :
    SettlesAt (counts ++ [count] ++ rest) (counts ++ [count]).length := by
  refine ⟨(thirdEqual_append_iff (Nat.le_refl _)).mpr h, ?_⟩
  intro earlier hearlier hthird
  rw [List.length_append, List.length_singleton] at hearlier
  have hwithin : earlier ≤ counts.length := by omega
  rw [List.append_assoc, thirdEqual_append_iff hwithin] at hthird
  exact hnone earlier hthird

/-- Readings settle at one number only. -/
theorem SettlesAt.unique {number' : Nat} (h : SettlesAt counts number)
    (h' : SettlesAt counts number') : number = number' := by
  rcases Nat.lt_trichotomy number number' with hlt | heq | hgt
  · exact absurd h.1 (h'.2 _ hlt)
  · exact heq
  · exact absurd h'.1 (h.2 _ hgt)

end Readings

/-! ## What is remembered of the readings -/

namespace Readings

/-- What is remembered of some readings. -/
def ofCounts (counts : List Nat) : Readings := counts.foldl observe {}

/-- One more reading is observed after the others. -/
@[simp]
theorem ofCounts_concat (counts : List Nat) (count : Nat) :
    ofCounts (counts ++ [count]) = (ofCounts counts).observe count := by
  rw [ofCounts, List.foldl_append]
  rfl

/-- All readings are counted. -/
@[simp]
theorem total_ofCounts (counts : List Nat) : (ofCounts counts).total = counts.length := by
  induction counts using List.reverseRecOn with
  | nil => rfl
  | append_singleton counts count ih =>
    rw [ofCounts_concat, List.length_append, List.length_singleton, ← ih]
    rfl

/-- The last reading is remembered. -/
@[simp]
theorem last_ofCounts (counts : List Nat) : (ofCounts counts).last = counts.getLast? := by
  induction counts using List.reverseRecOn with
  | nil => rfl
  | append_singleton counts count _ =>
    rw [ofCounts_concat, List.getLast?_concat]
    rfl

/-- A reading makes the streak longer if it is equal to the one before it, and else ends it. -/
theorem streak_ofCounts_concat (counts : List Nat) (last : Nat) :
    (ofCounts (counts ++ [last])).streak =
      if counts.getLast? = some last then (ofCounts counts).streak + 1 else 0 := by
  rw [ofCounts_concat, ← last_ofCounts]
  rfl

/-- Readings end in so many and one equal ones if the last is equal to so many before it. -/
theorem concat_ends_in_replicate_iff {counts : List Nat} {last n : Nat} :
    (∃ before count, counts ++ [last] = before ++ List.replicate (n + 1) count) ↔
      ∃ before, counts = before ++ List.replicate n last := by
  constructor
  · rintro ⟨before, count, h⟩
    rw [List.replicate_succ', ← List.append_assoc] at h
    obtain ⟨hcounts, hlast⟩ := List.append_inj' h rfl
    rw [List.singleton_inj.mp hlast]
    exact ⟨before, hcounts⟩
  · rintro ⟨before, rfl⟩
    refine ⟨before, last, ?_⟩
    rw [List.append_assoc, ← List.replicate_succ']

/-- So many readings before the last one are equal to it, if the readings end in so many and one
equal ones. -/
theorem succ_le_streak_iff (counts : List Nat) (n : Nat) :
    n + 1 ≤ (ofCounts counts).streak ↔
      ∃ before count, counts = before ++ List.replicate (n + 2) count := by
  induction counts using List.reverseRecOn generalizing n with
  | nil =>
    constructor
    · intro h
      exact absurd h (Nat.not_succ_le_zero n)
    · rintro ⟨before, count, h⟩
      have hlength := congrArg List.length h
      rw [List.length_append, List.length_replicate, List.length_nil] at hlength
      omega
  | append_singleton counts last ih =>
    rw [concat_ends_in_replicate_iff, streak_ofCounts_concat]
    by_cases hsame : counts.getLast? = some last
    · rw [if_pos hsame, Nat.add_le_add_iff_right]
      obtain ⟨before, rfl⟩ := List.getLast?_eq_some_iff.mp hsame
      cases n with
      | zero => exact iff_of_true (Nat.zero_le _) ⟨before, rfl⟩
      | succ n =>
        -- whatever equal readings there are at the end, the last of them is this one
        rw [ih, concat_ends_in_replicate_iff]
        refine exists_congr fun before' => ?_
        rw [List.replicate_succ' (n := n + 1), ← List.append_assoc, List.append_left_inj]
    · rw [if_neg hsame]
      refine iff_of_false (Nat.not_succ_le_zero n) ?_
      rintro ⟨before, rfl⟩
      rw [List.replicate_succ', ← List.append_assoc, List.getLast?_concat] at hsame
      exact hsame rfl

/-- The readings have settled if the last one is equal to the two before it. -/
theorem settled_ofCounts_iff (counts : List Nat) :
    (ofCounts counts).settled = true ↔ ThirdEqual counts counts.length := by
  rw [thirdEqual_length_iff, ← succ_le_streak_iff counts 1]
  exact decide_eq_true_iff

end Readings

/-! ## Looking until they have settled -/

section Looking

variable {σ : Type} (look : StateM σ Look)

/-- The readings of so many looks from a state. -/
def readingsFrom (rounds : Nat) (s : σ) : List Nat := readingsOf ((lookAgain look rounds).run s).1

/-- The readings of one more round are that of the first look and then the others. -/
theorem readingsFrom_succ (rounds : Nat) (s : σ) :
    readingsFrom look (rounds + 1) s =
      (look.run s).1.count?.toList ++ readingsFrom look rounds (look.run s).2 := by
  have hrun : ((lookAgain look (rounds + 1)).run s).1 =
      (look.run s).1 :: ((lookAgain look rounds).run (look.run s).2).1 := rfl
  unfold readingsFrom readingsOf
  rw [hrun, List.filterMap_cons]
  cases (look.run s).1.count? with
  | none => rfl
  | some count => rfl

/-- One round: it ends the looking if it settles the readings, else the next round follows. -/
theorem run_lookUntilSettled_succ (rounds : Nat) (r : Readings) (s : σ) :
    (lookUntilSettled look (rounds + 1) r).run s =
      if (r.take (look.run s).1).settled then
        ((.stable, (r.take (look.run s).1).total), (look.run s).2)
      else (lookUntilSettled look rounds (r.take (look.run s).1)).run (look.run s).2 := by
  have hrun : (lookUntilSettled look (rounds + 1) r).run s =
      (if (r.take (look.run s).1).settled then
        return (.stable, (r.take (look.run s).1).total)
      else lookUntilSettled look rounds (r.take (look.run s).1) :
        StateM σ (CheckState × Nat)).run (look.run s).2 := rfl
  rw [hrun]
  split
  next => rfl
  next => rfl

/-- What comes of looking, if readings before have not settled: the number of the reading that
settles them, or the number of all of them. -/
theorem run_lookUntilSettled (rounds : Nat) (s : σ) {before : List Nat}
    (hbefore : ∀ number, ¬ ThirdEqual before number) :
    (∃ number, SettlesAt (before ++ readingsFrom look rounds s) number ∧
      ((lookUntilSettled look rounds (.ofCounts before)).run s).1 = (.stable, number)) ∨
    (∀ number, ¬ ThirdEqual (before ++ readingsFrom look rounds s) number) ∧
      ((lookUntilSettled look rounds (.ofCounts before)).run s).1 =
        (.timedOut, (before ++ readingsFrom look rounds s).length) := by
  induction rounds generalizing s before with
  | zero =>
    have hnothing : before ++ readingsFrom look 0 s = before := List.append_nil before
    rw [hnothing]
    refine .inr ⟨hbefore, ?_⟩
    rw [← Readings.total_ofCounts]
    rfl
  | succ rounds ih =>
    rw [readingsFrom_succ, run_lookUntilSettled_succ]
    have hunsettled : (Readings.ofCounts before).settled = false := by
      rw [← Bool.not_eq_true, Readings.settled_ofCounts_iff]
      exact hbefore _
    -- a look that reads nothing leaves everything to the next one
    have huncounted : (look.run s).1.count? = none →
        (Readings.ofCounts before).take (look.run s).1 = Readings.ofCounts before := by
      intro hnone
      cases hfound : (look.run s).1 with
      | reading count =>
        rw [hfound] at hnone
        cases hnone
      | building => rfl
      | uncommitted => rfl
      | unreadable => rfl
    cases hcount : (look.run s).1.count? with
    | none =>
      rw [huncounted hcount, hunsettled, Option.toList_none, List.nil_append,
        if_neg Bool.false_ne_true]
      exact ih (look.run s).2 hbefore
    | some count =>
      have hfound : (look.run s).1 = .reading count := by
        cases hfound : (look.run s).1 with
        | reading found =>
          rw [hfound] at hcount
          rw [Option.some.inj hcount]
        | building => rw [hfound] at hcount; cases hcount
        | uncommitted => rw [hfound] at hcount; cases hcount
        | unreadable => rw [hfound] at hcount; cases hcount
      have htake : (Readings.ofCounts before).take (.reading count) =
          .ofCounts (before ++ [count]) := (Readings.ofCounts_concat before count).symm
      rw [hfound, htake, Option.toList_some, ← List.append_assoc, Readings.total_ofCounts]
      -- The look ends here if the reading is the third equal one, and it was not so before.
      by_cases hsettled : ThirdEqual (before ++ [count]) (before ++ [count]).length
      · rw [if_pos ((Readings.settled_ofCounts_iff _).mpr hsettled)]
        exact .inl ⟨_, settlesAt_of_thirdEqual hbefore hsettled _, rfl⟩
      · rw [if_neg fun h => hsettled ((Readings.settled_ofCounts_iff _).mp h)]
        refine ih (look.run s).2 ?_
        intro number hthird
        by_cases hlast : number = (before ++ [count]).length
        · exact hsettled (hlast ▸ hthird)
        · have hle := hthird.le_length
          rw [List.length_append, List.length_singleton] at hle hlast
          rw [thirdEqual_append_iff (by omega)] at hthird
          exact hbefore number hthird

/-- The two ways in which looking ends, if nothing has been read before. -/
theorem lookUntilSettled_cases (rounds : Nat) (s : σ) :
    (∃ number, SettlesAt (readingsFrom look rounds s) number ∧
      ((lookUntilSettled look rounds {}).run s).1 = (.stable, number)) ∨
    (∀ number, ¬ SettlesAt (readingsFrom look rounds s) number) ∧
      ((lookUntilSettled look rounds {}).run s).1 =
        (.timedOut, (readingsFrom look rounds s).length) := by
  have hnone : ∀ number, ¬ ThirdEqual [] number := by
    rintro number ⟨i, count, -, hfirst, -⟩
    cases hfirst
  rcases run_lookUntilSettled look rounds s hnone with hsettled | ⟨hnever, htimedOut⟩
  · exact .inl hsettled
  · exact .inr ⟨fun number h => hnever number h.1, htimedOut⟩

/-- Looking has settled diagnostics exactly with the reading that is the first to be equal to the
two before it. -/
theorem lookUntilSettled_eq_stable_iff (rounds : Nat) (s : σ) (number : Nat) :
    ((lookUntilSettled look rounds {}).run s).1 = (.stable, number) ↔
      SettlesAt (readingsFrom look rounds s) number := by
  rcases lookUntilSettled_cases look rounds s with ⟨settled, hat, hrun⟩ | ⟨hnever, hrun⟩
  · rw [hrun, Prod.mk.injEq]
    constructor
    · rintro ⟨-, rfl⟩
      exact hat
    · intro h
      exact ⟨rfl, hat.unique h⟩
  · rw [hrun, Prod.mk.injEq]
    constructor
    · rintro ⟨h, -⟩
      cases h
    · intro h
      exact absurd h (hnever number)

/-- Else it has timed out, after all readings. -/
theorem lookUntilSettled_eq_timedOut_iff (rounds : Nat) (s : σ) (number : Nat) :
    ((lookUntilSettled look rounds {}).run s).1 = (.timedOut, number) ↔
      (∀ settled, ¬ SettlesAt (readingsFrom look rounds s) settled) ∧
        number = (readingsFrom look rounds s).length := by
  -- The two ways to end exclude each other.
  rcases lookUntilSettled_cases look rounds s with ⟨settled, hat, hrun⟩ | ⟨hnever, hrun⟩
  · rw [hrun, Prod.mk.injEq]
    constructor
    · rintro ⟨h, -⟩
      cases h
    · rintro ⟨h, -⟩
      exact absurd hat (h settled)
  · rw [hrun, Prod.mk.injEq]
    constructor
    · rintro ⟨-, rfl⟩
      exact ⟨hnever, rfl⟩
    · rintro ⟨-, rfl⟩
      exact ⟨rfl, rfl⟩

end Looking

end JavaAtlas
