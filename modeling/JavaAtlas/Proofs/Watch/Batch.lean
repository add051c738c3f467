import JavaAtlas.Watch.Batch
import Mathlib.Data.List.Dedup
import Mathlib.Data.List.Induction
import Mathlib.Data.List.Sort
import Mathlib.Data.String.Basic

namespace JavaAtlas.Watch

/-! # No change is dropped

A batch is filled with changed paths, may overflow, and is asked from time to time what is to be
handed on.

* `pathKey_inj`, `mem_keys_insertPath`, `Ascending.insertPath`: the paths of a batch are told apart
  by their components and kept in order;
* `Batch.Collects`: what a batch holds that was empty and has handed on nothing since, with one
  lemma for each use;
* `Batch.exists_collects`: every batch holds what was done since it last handed something on;
* `Batch.every_change_handed_on`: so the next command after a change stands for it.
-/

/-! ## Paths in order -/

/-- Components with one key are one component. -/
theorem componentKey_injective : Function.Injective componentKey := by
  intro a b h
  have hchars := congrArg String.toList h
  cases a <;> cases b <;> simp [componentKey] at hchars ⊢
  exact String.toList_inj.mp hchars

/-- Paths with one key have the same components. -/
@[simp]
theorem pathKey_inj {p q : String} :
    pathKey p = pathKey q ↔ Path.components p = Path.components q :=
  (List.map_injective_iff.mpr componentKey_injective).eq_iff

/-- Paths in the order of their components, each once. -/
def Ascending (paths : List String) : Prop := paths.Pairwise fun p q => pathKey p < pathKey q

/-- In ascending order no key is there twice. -/
theorem Ascending.nodup_keys {paths : List String} (h : Ascending paths) :
    (paths.map pathKey).Nodup :=
  List.pairwise_map.mpr (h.imp ne_of_lt)

/-- The keys after an insertion are those before it and the new one. -/
theorem mem_keys_insertPath {path : String} {paths : List String} {key : List String} :
    key ∈ (insertPath path paths).map pathKey ↔ key = pathKey path ∨ key ∈ paths.map pathKey := by
  induction paths with
  | nil => simp [insertPath]
  | cons p rest ih =>
    unfold insertPath
    split
    next hsame => simp [hsame]
    next =>
      split
      next => simp
      next =>
        rw [List.map_cons, List.mem_cons, ih, List.map_cons, List.mem_cons]
        exact or_left_comm

/-- What is there after an insertion was inserted or was there before. -/
theorem mem_of_mem_insertPath {path p : String} {paths : List String}
    (h : p ∈ insertPath path paths) : p = path ∨ p ∈ paths := by
  induction paths with
  | nil => exact .inl (List.mem_singleton.mp h)
  | cons q rest ih =>
    unfold insertPath at h
    split at h
    next => exact .inr h
    next =>
      split at h
      next => exact List.mem_cons.mp h
      next =>
        rcases List.mem_cons.mp h with rfl | h
        · exact .inr List.mem_cons_self
        · exact (ih h).imp_right (List.mem_cons_of_mem q)

/-- An insertion keeps the order. -/
theorem Ascending.insertPath {paths : List String} (h : Ascending paths) (path : String) :
    Ascending (insertPath path paths) := by
  induction paths with
  | nil => exact List.pairwise_singleton _ path
  | cons p rest ih =>
    obtain ⟨hp, hrest⟩ := List.pairwise_cons.mp h
    unfold Watch.insertPath
    split
    next => exact h
    next hne =>
      split
      next hlt =>
        refine List.pairwise_cons.mpr ⟨?_, h⟩
        intro q hq
        rcases List.mem_cons.mp hq with rfl | hq
        · exact hlt
        · exact lt_trans hlt (hp q hq)
      next hge =>
        -- what comes behind `p` is the new path or was behind it before
        have hlt : pathKey p < pathKey path := lt_of_le_of_ne (not_lt.mp hge) (Ne.symm hne)
        refine List.pairwise_cons.mpr ⟨?_, ih hrest⟩
        intro q hq
        rcases mem_of_mem_insertPath hq with rfl | hq
        · exact hlt
        · exact hp q hq

namespace Batch

/-! ## Uses of a batch -/

/-- What is done with a batch. -/
inductive Use where
  | add (time : Nat) (path : String)
  | overflow
  | due (now quiet : Nat)
deriving DecidableEq, Repr

/-- The batch after a use, and what it hands on. -/
def use (b : Batch) : Use → Batch × Option Command
  | .add time path => (b.add time path, none)
  | .overflow => (b.overflow, none)
  | .due now quiet => b.due now quiet

/-- The batch after uses, one after the other. -/
def after (b : Batch) (uses : List Use) : Batch := uses.foldl (fun b u => (b.use u).1) b

/-- What is handed on in uses, one after the other. -/
def handed (b : Batch) : List Use → List Command
  | [] => []
  | u :: rest => (b.use u).2.toList ++ (b.use u).1.handed rest

/-- The time and the path of an addition. -/
def Use.added? : Use → Option (Nat × String)
  | .add time path => some (time, path)
  | .overflow | .due _ _ => none

/-- The additions among uses. -/
def additions (uses : List Use) : List (Nat × String) := uses.filterMap Use.added?

/-- The different paths that are added in uses, by their keys. -/
def addedKeys (uses : List Use) : List (List String) :=
  ((additions uses).map fun a => pathKey a.2).dedup

section Runs

variable {b : Batch} {uses more : List Use} {u : Use}

/-- Uses come to what the first of them and then the others come to. -/
@[simp]
theorem after_append : b.after (uses ++ more) = (b.after uses).after more := List.foldl_append

/-- What is handed on comes from the first uses and then from the others. -/
@[simp]
theorem handed_append : b.handed (uses ++ more) = b.handed uses ++ (b.after uses).handed more := by
  induction uses generalizing b with
  | nil => rfl
  | cons u rest ih =>
    rw [List.cons_append, handed, handed, ih, List.append_assoc]
    rfl

/-- The additions of uses are those of the first of them and then of the others. -/
@[simp]
theorem additions_append : additions (uses ++ more) = additions uses ++ additions more :=
  List.filterMap_append

/-- The additions are the uses that add a path. -/
@[simp]
theorem mem_additions {time : Nat} {path : String} :
    (time, path) ∈ additions uses ↔ .add time path ∈ uses := by
  unfold additions
  rw [List.mem_filterMap]
  constructor
  · rintro ⟨u, hu, hsome⟩
    cases u with
    | add time' path' =>
      cases hsome
      exact hu
    | overflow => cases hsome
    | due now quiet => cases hsome
  · intro h
    exact ⟨_, h, rfl⟩

/-- The keys added are those of the paths added. -/
@[simp]
theorem mem_addedKeys {key : List String} :
    key ∈ addedKeys uses ↔ ∃ time path, .add time path ∈ uses ∧ pathKey path = key := by
  unfold addedKeys
  rw [List.mem_dedup, List.mem_map]
  constructor
  · rintro ⟨⟨time, path⟩, hmem, hkey⟩
    exact ⟨time, path, mem_additions.mp hmem, hkey⟩
  · rintro ⟨time, path, hmem, hkey⟩
    exact ⟨(time, path), mem_additions.mpr hmem, hkey⟩

/-- One more path adds its key. -/
theorem mem_addedKeys_concat {time : Nat} {path : String} {key : List String} :
    key ∈ addedKeys (uses ++ [.add time path]) ↔ key = pathKey path ∨ key ∈ addedKeys uses := by
  simp only [mem_addedKeys, List.mem_append, List.mem_singleton]
  constructor
  · rintro ⟨time', path', hmem | hnew, rfl⟩
    · exact .inr ⟨time', path', hmem, rfl⟩
    · cases hnew
      exact .inl rfl
  · rintro (rfl | ⟨time', path', hmem, hkey⟩)
    · exact ⟨time, path, .inr rfl, rfl⟩
    · exact ⟨time', path', .inl hmem, hkey⟩

/-- More uses add no fewer paths. -/
theorem length_addedKeys_le (h : uses ⊆ more) :
    (addedKeys uses).length ≤ (addedKeys more).length := by
  refine (List.subperm_of_subset (List.nodup_dedup _) ?_).length_le
  intro key hkey
  obtain ⟨time, path, hmem, hpath⟩ := mem_addedKeys.mp hkey
  exact mem_addedKeys.mpr ⟨time, path, h hmem, hpath⟩

end Runs

/-! ## What a batch holds -/

/-- A batch that was empty has handed on nothing in these uses and holds what they left. -/
structure Collects (limit : Nat) (uses : List Use) (b : Batch) : Prop where
  limit_eq : b.limit = max limit 1
  rescan_iff : b.rescan = true ↔ .overflow ∈ uses ∨ max limit 1 ≤ (addedKeys uses).length
  cleared : b.rescan = true → b.paths = []
  ascending : Ascending b.paths
  keys : b.rescan = false → ∀ key, key ∈ b.paths.map pathKey ↔ key ∈ addedKeys uses
  added : ∀ p ∈ b.paths, ∃ time, .add time p ∈ uses
  lastChange : b.rescan = false → b.lastChange = (additions uses).getLast?.map (·.1)

section Collects

variable {limit : Nat} {uses more : List Use} {b : Batch} {now quiet time : Nat} {path : String}

/-- An empty batch holds nothing. -/
theorem collects_ofLimit (limit : Nat) : Collects limit [] (ofLimit limit) where
  limit_eq := rfl
  rescan_iff := by simp [ofLimit, addedKeys, additions]
  cleared := nofun
  ascending := List.Pairwise.nil
  keys := by simp [ofLimit, addedKeys, additions]
  added := by simp [ofLimit]
  lastChange := fun _ => rfl

/-- There are as many paths in a batch as different ones were added. -/
theorem Collects.length_paths (h : Collects limit uses b) (hsingle : b.rescan = false) :
    b.paths.length = (addedKeys uses).length := by
  have hperm : (b.paths.map pathKey).Perm (addedKeys uses) :=
    (List.perm_ext_iff_of_nodup h.ascending.nodup_keys (List.nodup_dedup _)).mpr (h.keys hsingle)
  rw [← hperm.length_eq, List.length_map]

/-- A batch stays below its limit. -/
theorem Collects.length_lt (h : Collects limit uses b) : b.paths.length < max limit 1 := by
  cases hrescan : b.rescan with
  | true =>
    rw [h.cleared hrescan, List.length_nil]
    omega
  | false =>
    have hfew : ¬ max limit 1 ≤ (addedKeys uses).length := by
      intro hmany
      rw [h.rescan_iff.mpr (.inr hmany)] at hrescan
      cases hrescan
    rw [h.length_paths hrescan]
    omega

/-- Single paths are dropped for good: nothing but all files stands for them. -/
theorem Collects.overflowed (h : Collects limit uses b) {b' : Batch}
    (hlimit : b'.limit = b.limit) (hrescan : b'.rescan = true) (hpaths : b'.paths = [])
    (hwhy : .overflow ∈ more ∨ max limit 1 ≤ (addedKeys more).length) : Collects limit more b' where
  limit_eq := hlimit.trans h.limit_eq
  rescan_iff := ⟨fun _ => hwhy, fun _ => hrescan⟩
  cleared := fun _ => hpaths
  ascending := hpaths ▸ List.Pairwise.nil
  keys := by simp [hrescan]
  added := by simp [hpaths]
  lastChange := by simp [hrescan]

/-- After an overflow it is known that one was reported. -/
theorem Collects.overflow (h : Collects limit uses b) :
    Collects limit (uses ++ [.overflow]) b.overflow :=
  h.overflowed rfl rfl rfl (.inl (by simp))

/-- After an addition the batch holds one more path or asks for a rescan. -/
theorem Collects.add (h : Collects limit uses b) (time : Nat) (path : String) :
    Collects limit (uses ++ [.add time path]) (b.add time path) := by
  have hmore : uses ⊆ uses ++ [.add time path] := List.subset_append_left uses _
  unfold Batch.add
  split
  next hrescan =>
    -- the path is passed over, since all files are going to be looked at
    refine h.overflowed rfl hrescan (h.cleared hrescan) ?_
    rcases h.rescan_iff.mp hrescan with hover | hmany
    · exact .inl (hmore hover)
    · exact .inr (hmany.trans (length_addedKeys_le hmore))
  next hsingle =>
    rw [Bool.not_eq_true] at hsingle
    have hnone : Use.overflow ∉ uses := by
      intro hover
      rw [h.rescan_iff.mpr (.inl hover)] at hsingle
      cases hsingle
    have hkeys : ∀ key, key ∈ (insertPath path b.paths).map pathKey ↔
        key ∈ addedKeys (uses ++ [.add time path]) := by
      intro key
      rw [mem_keys_insertPath, h.keys hsingle, mem_addedKeys_concat]
    -- Both lists have the same keys without repetition, so they are equally long.
    have hlength : (insertPath path b.paths).length =
        (addedKeys (uses ++ [.add time path])).length := by
      have hperm : ((insertPath path b.paths).map pathKey).Perm
          (addedKeys (uses ++ [.add time path])) :=
        (List.perm_ext_iff_of_nodup (h.ascending.insertPath path).nodup_keys
          (List.nodup_dedup _)).mpr hkeys
      rw [← hperm.length_eq, List.length_map]
    dsimp only
    split
    next hmany =>
      rw [h.limit_eq, hlength] at hmany
      exact h.overflowed rfl rfl rfl (.inr hmany)
    next hfew =>
      rw [h.limit_eq, hlength] at hfew
      constructor
      case limit_eq => exact h.limit_eq
      case rescan_iff => simp [hsingle, hnone, hfew]
      case cleared => simp [hsingle]
      case ascending => exact h.ascending.insertPath path
      case keys => exact fun _ => hkeys
      case added =>
        intro p hp
        rcases mem_of_mem_insertPath hp with rfl | hp
        · exact ⟨time, by simp⟩
        · obtain ⟨time', hmem⟩ := h.added p hp
          exact ⟨time', hmore hmem⟩
      case lastChange =>
        intro _
        rw [additions_append]
        simp [additions, Use.added?]

/-- A batch that hands on nothing stays as it is. -/
theorem due_of_none (hnone : (b.due now quiet).2 = none) : (b.due now quiet).1 = b := by
  unfold due at hnone ⊢
  split
  next hrescan => simp [hrescan] at hnone
  next hsingle =>
    split
    next hready => simp [hsingle, hready] at hnone
    next => rfl

/-- A question to which nothing is handed on changes nothing. -/
theorem Collects.due (h : Collects limit uses b) (hnone : (b.due now quiet).2 = none) :
    Collects limit (uses ++ [.due now quiet]) (b.due now quiet).1 := by
  have hadditions : additions (uses ++ [.due now quiet]) = additions uses := by
    simp [additions, Use.added?]
  have hkeys : addedKeys (uses ++ [.due now quiet]) = addedKeys uses := by
    unfold addedKeys
    rw [hadditions]
  rw [due_of_none hnone]
  constructor
  case limit_eq => exact h.limit_eq
  case rescan_iff => simp [h.rescan_iff, hkeys]
  case cleared => exact h.cleared
  case ascending => exact h.ascending
  case keys => exact hkeys ▸ h.keys
  case added =>
    intro p hp
    obtain ⟨time, hmem⟩ := h.added p hp
    exact ⟨time, List.mem_append_left _ hmem⟩
  case lastChange => exact hadditions ▸ h.lastChange

/-- A batch that hands something on is empty again. -/
theorem Collects.due_of_some (h : Collects limit uses b) {command : Command}
    (hsome : (b.due now quiet).2 = some command) : (b.due now quiet).1 = ofLimit limit := by
  have hlimit := h.limit_eq
  have hcleared := h.cleared
  obtain ⟨paths, lastChange, rescan, bound, hbound⟩ := b
  dsimp only at hlimit hcleared
  subst hlimit
  unfold Batch.due at hsome ⊢
  -- Both ways to hand something on leave an empty batch: one clears it, the other has been cleared.
  split
  next hrescan =>
    dsimp only at hrescan
    dsimp only
    rw [hcleared hrescan]
    rfl
  next hsingle =>
    rw [if_neg hsingle] at hsome
    split
    next =>
      rw [Bool.not_eq_true] at hsingle
      dsimp only at hsingle
      dsimp only
      rw [hsingle]
      rfl
    next hwait =>
      rw [if_neg hwait] at hsome
      cases hsome

/-- Every use that hands nothing on keeps to what has been collected. -/
theorem Collects.use (h : Collects limit uses b) {u : Use} (hnone : (b.use u).2 = none) :
    Collects limit (uses ++ [u]) (b.use u).1 := by
  cases u with
  | add time path => exact h.add time path
  | overflow => exact h.overflow
  | due now quiet => exact h.due hnone

/-- Uses in which nothing is handed on leave more to be handed on. -/
theorem Collects.after (h : Collects limit uses b) (hnone : b.handed more = []) :
    Collects limit (uses ++ more) (b.after more) := by
  induction more generalizing uses b with
  | nil =>
    rw [List.append_nil]
    exact h
  | cons u rest ih =>
    rw [handed, List.append_eq_nil_iff, Option.toList_eq_nil_iff] at hnone
    have hrest := ih (h.use hnone.1) hnone.2
    rw [List.append_assoc, List.singleton_append] at hrest
    exact hrest

/-- A batch holds what was done since it last handed something on. -/
theorem exists_collects (limit : Nat) (uses : List Use) : ∃ done since, uses = done ++ since ∧
    ((ofLimit limit).after done).handed since = [] ∧
      Collects limit since ((ofLimit limit).after uses) := by
  induction uses using List.reverseRecOn with
  | nil => exact ⟨[], [], rfl, rfl, collects_ofLimit limit⟩
  | append_singleton uses u ih =>
    obtain ⟨done, since, rfl, hnone, hcollects⟩ := ih
    have hlast : (ofLimit limit).after (done ++ since ++ [u]) =
        (((ofLimit limit).after (done ++ since)).use u).1 := after_append
    cases hsome : (((ofLimit limit).after (done ++ since)).use u).2 with
    | none =>
      refine ⟨done, since ++ [u], List.append_assoc done since [u], ?_, ?_⟩
      · rw [after_append] at hsome
        simp [hnone, handed, hsome]
      · rw [hlast]
        exact hcollects.use hsome
    | some command =>
      -- only in a use of this kind something is handed on
      obtain ⟨now, quiet, rfl⟩ : ∃ now quiet, u = .due now quiet := by
        cases u with
        | add time path => cases hsome
        | overflow => cases hsome
        | due now quiet => exact ⟨now, quiet, rfl⟩
      refine ⟨done ++ since ++ [.due now quiet], [], (List.append_nil _).symm, rfl, ?_⟩
      rw [hlast]
      have hempty : (((ofLimit limit).after (done ++ since)).use (.due now quiet)).1 =
          ofLimit limit := hcollects.due_of_some hsome
      rw [hempty]
      exact collects_ofLimit limit

end Collects

/-! ## What is handed on -/

section HandedOn

variable {limit : Nat} {uses : List Use} {b : Batch} {now quiet : Nat}

/-- After an overflow, or with too many paths, a rescan is handed on without waiting. -/
theorem Collects.due_of_rescan (h : Collects limit uses b)
    (hwhy : .overflow ∈ uses ∨ max limit 1 ≤ (addedKeys uses).length) :
    (b.due now quiet).2 = some .rescan := by
  unfold Batch.due
  rw [if_pos (h.rescan_iff.mpr hwhy)]

/-- What is handed on is that all files are to be looked at, or the paths that are held. -/
theorem due_eq_some {command : Command} (hsome : (b.due now quiet).2 = some command) :
    command = .rescan ∨ b.rescan = false ∧ command = .sync b.paths := by
  unfold Batch.due at hsome
  split at hsome
  next =>
    cases hsome
    exact .inl rfl
  next hsingle =>
    split at hsome
    next =>
      cases hsome
      exact .inr ⟨Bool.eq_false_iff.mpr hsingle, rfl⟩
    next => cases hsome

/-- After the quiet time something is handed on. -/
theorem Collects.due_ne_none (h : Collects limit uses b) {time : Nat} {path : String}
    (hlast : (additions uses).getLast? = some (time, path)) (hquiet : time + quiet ≤ now) :
    (b.due now quiet).2 ≠ none := by
  unfold Batch.due
  split
  next => simp
  next hsingle =>
    rw [Bool.not_eq_true] at hsingle
    have hchange : b.lastChange = some time := by
      rw [h.lastChange hsingle, hlast]
      rfl
    -- The last change is a path that was added, so some path is held.
    have hpaths : b.paths ≠ [] := by
      intro hnil
      have hadded : pathKey path ∈ addedKeys uses :=
        mem_addedKeys.mpr ⟨time, path, mem_additions.mp (List.mem_of_getLast? hlast), rfl⟩
      rw [← h.keys hsingle, hnil] at hadded
      cases hadded
    rw [if_pos]
    · simp
    · simp [isQuiet, hchange, hquiet, hpaths]

end HandedOn

/-- Nothing has been handed on since a use. -/
def Pending (limit : Nat) (uses : List Use) (u : Use) : Prop :=
  ∃ done since, uses = done ++ u :: since ∧
    ((ofLimit limit).after (done ++ [u])).handed since = []

/-- A command has a path looked at. -/
def Covers (command : Command) (path : String) : Prop :=
  command = .rescan ∨
    ∃ paths, command = .sync paths ∧ ∃ p ∈ paths, Path.components p = Path.components path

section Pending

variable {limit : Nat} {uses done since : List Use} {u : Use}

/-- A use since which nothing has been handed on is one of those that the batch holds. -/
theorem exists_collects_of_pending
    (hnone : ((ofLimit limit).after (done ++ [u])).handed since = [])
    (hquiet : (((ofLimit limit).after done).use u).2 = none) :
    ∃ before, Collects limit (before ++ u :: since) ((ofLimit limit).after (done ++ u :: since)) := by
  obtain ⟨-, before, -, -, hbefore⟩ := exists_collects limit done
  have hlater := (hbefore.use hquiet).after (by rw [after_append] at hnone; exact hnone)
  refine ⟨before, ?_⟩
  rw [List.append_assoc, List.singleton_append] at hlater
  rw [after_append]
  exact hlater

/-- What came since the last time something was handed on is still pending. -/
theorem pending_of_mem (hnone : ((ofLimit limit).after done).handed since = []) (hu : u ∈ since) :
    Pending limit (done ++ since) u := by
  obtain ⟨before, rest, rfl⟩ := List.append_of_mem hu
  refine ⟨done ++ before, rest, (List.append_assoc done before _).symm, ?_⟩
  rw [← List.singleton_append, ← List.append_assoc, handed_append, ← after_append,
    List.append_eq_nil_iff, ← List.append_assoc] at hnone
  exact hnone.2

end Pending

/-- Whenever a batch is asked what is to be handed on: a command stands for every change since
the last one; single paths come in order, are fewer than the limit, and have all been added since
the last command; after an overflow, or once as many different paths as the limit were added, all
files are to be looked at; and after the quiet time there is a command if there was a change. -/
theorem every_change_handed_on (limit : Nat) (uses : List Use) (now quiet : Nat) :
    (∀ time path command, Pending limit uses (.add time path) →
      (((ofLimit limit).after uses).due now quiet).2 = some command → Covers command path) ∧
    (∀ paths, (((ofLimit limit).after uses).due now quiet).2 = some (.sync paths) →
      Ascending paths ∧ paths.length < max limit 1 ∧
        ∀ p ∈ paths, ∃ time, Pending limit uses (.add time p)) ∧
    (Pending limit uses .overflow →
      (((ofLimit limit).after uses).due now quiet).2 = some .rescan) ∧
    (∀ done since, uses = done ++ since → ((ofLimit limit).after done).handed since = [] →
      max limit 1 ≤ (addedKeys since).length →
        (((ofLimit limit).after uses).due now quiet).2 = some .rescan) ∧
    (∀ done time path since, uses = done ++ .add time path :: since →
      ((ofLimit limit).after (done ++ [.add time path])).handed since = [] →
        additions since = [] → time + quiet ≤ now →
          (((ofLimit limit).after uses).due now quiet).2 ≠ none) := by
  refine ⟨?_, ?_, ?_, ?_, ?_⟩
  · -- What was added is among the keys, and the key tells the path.
    rintro time path command ⟨done, since, rfl, hnone⟩ hsome
    obtain ⟨before, hcollects⟩ := exists_collects_of_pending hnone rfl
    rcases due_eq_some hsome with rfl | ⟨hsingle, rfl⟩
    · exact .inl rfl
    · have hadded : pathKey path ∈ addedKeys (before ++ .add time path :: since) :=
        mem_addedKeys.mpr ⟨time, path, by simp, rfl⟩
      obtain ⟨p, hp, hkey⟩ := List.mem_map.mp ((hcollects.keys hsingle _).mpr hadded)
      exact .inr ⟨_, rfl, p, hp, pathKey_inj.mp hkey⟩
  · intro paths hsome
    obtain ⟨done, since, rfl, hnone, hcollects⟩ := exists_collects limit uses
    rcases due_eq_some hsome with hrescan | ⟨-, hpaths⟩
    · cases hrescan
    · cases hpaths
      refine ⟨hcollects.ascending, hcollects.length_lt, ?_⟩
      intro p hp
      obtain ⟨time, hmem⟩ := hcollects.added p hp
      exact ⟨time, pending_of_mem hnone hmem⟩
  · rintro ⟨done, since, rfl, hnone⟩
    obtain ⟨before, hcollects⟩ := exists_collects_of_pending hnone rfl
    exact hcollects.due_of_rescan (.inl (by simp))
  · -- Enough keys came since the last time something was handed on.
    rintro done since rfl hnone hmany
    obtain ⟨-, before, -, -, hbefore⟩ := exists_collects limit done
    rw [after_append]
    refine (hbefore.after hnone).due_of_rescan (.inr (hmany.trans (length_addedKeys_le ?_)))
    exact List.subset_append_right before since
  · rintro done time path since rfl hnone hlast hquiet
    obtain ⟨before, hcollects⟩ := exists_collects_of_pending hnone rfl
    have hchange : (additions (before ++ .add time path :: since)).getLast? = some (time, path) := by
      rw [← List.singleton_append, additions_append, additions_append, hlast, List.append_nil]
      exact List.getLast?_concat
    exact hcollects.due_ne_none hchange hquiet

/-- Two files change, one of them twice, and are handed on together when there has been no change
for a while; a command that comes too early or a third file would be something else. -/
theorem two_changed_files_handed_on :
    let early : List Use := [.add 0 "/r/B.java", .add 5 "/r/A.java", .due 6 10]
    let uses : List Use := early ++ [.add 7 "/r/./A.java"]
    ((ofLimit 3).after early).handed [.add 7 "/r/./A.java"] = [] ∧
      (((ofLimit 3).after uses).due 20 10).2 = some (.sync ["/r/A.java", "/r/B.java"]) ∧
      Ascending ["/r/A.java", "/r/B.java"] ∧
      Covers (.sync ["/r/A.java", "/r/B.java"]) "/r/B.java" ∧
      (((ofLimit 3).after uses).due 17 10).2 ≠ none ∧
      (((ofLimit 3).after (uses ++ [.add 8 "/r/C.java"])).due 9 10).2 = some .rescan ∧
      (((ofLimit 3).after (uses ++ [.overflow])).due 9 10).2 = some .rescan := by
  intro early uses
  have hsome : (((ofLimit 3).after uses).due 20 10).2 = some (.sync ["/r/A.java", "/r/B.java"]) := by
    decide +kernel
  obtain ⟨hcovers, hsingle, -, -, -⟩ := every_change_handed_on 3 uses 20 10
  obtain ⟨-, -, -, -, hquiet⟩ := every_change_handed_on 3 uses 17 10
  obtain ⟨-, -, -, hmany, -⟩ := every_change_handed_on 3 (uses ++ [.add 8 "/r/C.java"]) 9 10
  obtain ⟨-, -, hoverflow, -, -⟩ := every_change_handed_on 3 (uses ++ [.overflow]) 9 10
  refine ⟨by decide +kernel, hsome, (hsingle _ hsome).1, ?_, ?_, ?_, ?_⟩
  · exact hcovers 0 _ _ ⟨[], _, rfl, by decide +kernel⟩ hsome
  · exact hquiet early 7 _ [] rfl rfl rfl (by decide)
  · exact hmany [] _ rfl (by decide +kernel) (by decide +kernel)
  · exact hoverflow ⟨uses, [], rfl, rfl⟩

end Batch

end JavaAtlas.Watch
