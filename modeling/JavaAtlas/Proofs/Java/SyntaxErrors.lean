import Mathlib.Logic.Function.Iterate
import JavaAtlas.Java.Diagnostics
import JavaAtlas.Proofs.Java.Visits

namespace JavaAtlas

/-! # Syntax errors, one on a line

The scan for syntax errors goes down a tree until it comes to a wrong node, passes over what nothing
is wrong in, and reports of the wrong nodes that begin on one line the first.

* `Java.ScanState.outcome_step`, `Java.ScanState.run`: the scan with a stack comes to its end, and
  finds what is listed by recursion;
* `Java.mem_badPlaces_iff`, `Java.badPlaces_ascending`: the wrong nodes that are listed are the
  outermost ones, in their order;
* `Java.one_error_per_line`: what is reported.
-/

namespace Tree

variable {root t u : Tree} {s p : Spot}

/-- A node is marked exactly if it is wrong or a node below it is. -/
def Flagged (root : Tree) : Prop :=
  ∀ t : Tree, t.Within root →
    (t.info.hasError = true ↔ ∃ u : Tree, u.Within t ∧ Java.isBad u.info = true)

/-- Flags are right exactly if a node has one wherever there is a bad node below it. -/
theorem flagged_iff : root.Flagged ↔ ∀ t ∈ root.subtrees,
    (t.info.hasError = true ↔ ∃ u ∈ t.subtrees, Java.isBad u.info = true) := by
  unfold Flagged
  simp only [mem_subtrees_iff]

instance : Decidable root.Flagged := decidable_of_iff _ flagged_iff.symm

/-- The flags below a child are right if all are. -/
theorem Flagged.child (h : root.Flagged) {c : Tree} (hc : c ∈ root.children) : c.Flagged :=
  fun t ht => h t (.under hc ht)

/-- A wrong node that is in no other one. -/
structure OutermostBad (root : Tree) (s : Spot) (t : Tree) : Prop where
  at_spot : root.at? s = some t
  bad : Java.isBad t.info = true
  above : ∀ p u, p <+: s → p ≠ s → root.at? p = some u → Java.isBad u.info = false

/-- Of the outermost wrong nodes that begin on the same line, none comes before this one. -/
structure FirstBadOnLine (root : Tree) (s : Spot) (t : Tree) : Prop where
  outermost : root.OutermostBad s t
  first : ∀ p u, root.OutermostBad p u → u.startLine = t.startLine → ¬ p < s

end Tree

namespace Java

/-! ## The scan -/

/-- A scan under way: the nodes still to be looked at, the next one in front, and what has been
found. -/
structure ScanState where
  stack : List Tree
  found : List Marker

namespace ScanState

variable {source : String}

/-- One turn of the scan. -/
def step (source : String) : ScanState → ScanState
  | ⟨[], found⟩ => ⟨[], found⟩
  | ⟨t :: rest, found⟩ =>
    if isBad t.info then
      if found.any (·.line == t.startLine) then ⟨rest, found⟩
      else ⟨rest, found ++ [errorMarker source t]⟩
    else if t.info.hasError then ⟨t.children ++ rest, found⟩
    else ⟨rest, found⟩

/-- What has been found and what will be. -/
def outcome (source : String) (s : ScanState) : List Marker :=
  s.found ++ (firstOnLines (s.found.map (·.line)).reverse (badNodesOfAll s.stack)).map
    (errorMarker source)

/-- The nodes that may still be looked at. -/
def work (s : ScanState) : Nat := (Tree.subtreesOfAll s.stack).length

end ScanState

/-- The bad nodes of two lists are those of the first and then those of the second. -/
@[simp]
theorem badNodesOfAll_append (ts us : List Tree) :
    badNodesOfAll (ts ++ us) = badNodesOfAll ts ++ badNodesOfAll us := by
  induction ts with
  | nil => rfl
  | cons t ts ih => rw [List.cons_append, badNodesOfAll, badNodesOfAll, ih, List.append_assoc]

/-- A bad node hides what is below it, and a node without a flag hides nothing. -/
theorem badNodes_eq (t : Tree) :
    badNodes t =
      if isBad t.info then [t] else if t.info.hasError then badNodesOfAll t.children else [] := by
  cases t with
  | node info children =>
    unfold badNodes
    rfl

/-- The subtrees of two lists are those of the first and then those of the second. -/
@[simp]
theorem subtreesOfAll_append (ts us : List Tree) :
    Tree.subtreesOfAll (ts ++ us) = Tree.subtreesOfAll ts ++ Tree.subtreesOfAll us := by
  induction ts with
  | nil => rfl
  | cons t ts ih =>
    rw [List.cons_append, Tree.subtreesOfAll, Tree.subtreesOfAll, ih, List.append_assoc]

/-- A tree has one subtree more than are below it. -/
theorem length_subtrees (t : Tree) :
    t.subtrees.length = (Tree.subtreesOfAll t.children).length + 1 := by
  cases t with
  | node info children =>
    unfold Tree.subtrees
    rfl

namespace ScanState

variable {source : String} {t : Tree} {rest : List Tree} {found : List Marker}

/-- A turn of the scan changes nothing in what will have been found. -/
theorem outcome_step (s : ScanState) : (s.step source).outcome source = s.outcome source := by
  obtain ⟨stack, found⟩ := s
  cases stack with
  | nil => rfl
  | cons t rest =>
    -- The lines of what is found, told by the list of errors or by that of lines.
    have hseen : ((found.map (·.line)).reverse.contains t.startLine) =
        found.any (·.line == t.startLine) := by
      rw [Bool.eq_iff_iff]
      simp
    unfold step outcome
    dsimp only
    rw [badNodesOfAll, badNodes_eq]
    by_cases hbad : isBad t.info = true
    · rw [if_pos hbad, if_pos hbad, List.singleton_append, firstOnLines, hseen]
      by_cases hline : found.any (·.line == t.startLine) = true
      · rw [if_pos hline, if_pos hline]
      · rw [if_neg hline, if_neg hline, List.map_append, List.reverse_append, List.map_cons,
          List.append_assoc]
        rfl
    · rw [if_neg hbad, if_neg hbad]
      by_cases herror : t.info.hasError = true
      · rw [if_pos herror, if_pos herror, badNodesOfAll_append]
      · rw [if_neg herror, if_neg herror, List.nil_append]

/-- A turn of the scan leaves less to be looked at. -/
theorem work_step (source : String) {s : ScanState} (h : s.stack ≠ []) :
    (s.step source).work < s.work := by
  obtain ⟨stack, found⟩ := s
  cases stack with
  | nil => exact absurd rfl h
  | cons t rest =>
    -- The node taken off counts one more than what is put in its place.
    have hwork : work ⟨t :: rest, found⟩ =
        (Tree.subtreesOfAll t.children).length + 1 + (Tree.subtreesOfAll rest).length := by
      rw [work, Tree.subtreesOfAll, List.length_append, length_subtrees]
    rw [hwork]
    unfold step work
    dsimp only
    split
    · split
      · dsimp only
        omega
      · dsimp only
        omega
    · split
      · dsimp only
        rw [subtreesOfAll_append, List.length_append]
        omega
      · dsimp only
        omega

/-- The scan comes to its end in at most as many turns as there are nodes. -/
theorem run (source : String) (s : ScanState) :
    ∃ n ≤ s.work, (step source)^[n] s = ⟨[], s.outcome source⟩ := by
  induction hwork : s.work using Nat.strongRecOn generalizing s with
  | ind k ih =>
    -- With an empty stack the scan is over. Otherwise one step has less work left and the same
    -- outcome.
    by_cases hstack : s.stack = []
    · obtain ⟨stack, found⟩ := s
      obtain rfl : stack = [] := hstack
      refine ⟨0, Nat.zero_le _, ?_⟩
      simp [outcome, badNodesOfAll, firstOnLines]
    · have hlt := work_step source hstack
      rw [hwork] at hlt
      obtain ⟨n, hn, hrun⟩ := ih _ hlt (s.step source) rfl
      refine ⟨n + 1, by omega, ?_⟩
      rw [Function.iterate_succ_apply, hrun, outcome_step]

end ScanState

/-! ## Where the wrong nodes are -/

/-- A wrong node with the spot at which it stands. -/
structure BadPlace where
  spot : Spot
  node : Tree

/-- A node below child number `i`. -/
def BadPlace.below (i : Nat) (x : BadPlace) : BadPlace := { x with spot := i :: x.spot }

mutual

/-- The outermost wrong nodes with their spots, in the order of the text. -/
def badPlaces : Tree → List BadPlace
  | .node info children =>
    if isBad info then [⟨[], .node info children⟩]
    else if info.hasError then badPlacesFrom 0 children
    else []

/-- The outermost wrong nodes of nodes side by side, from child number `i` on. -/
def badPlacesFrom (i : Nat) : List Tree → List BadPlace
  | [] => []
  | t :: rest => (badPlaces t).map (.below i) ++ badPlacesFrom (i + 1) rest

end

section Places

variable {root t u : Tree} {s p : Spot}

/-- The bad places of some children are those of each, below its number. -/
theorem badPlacesFrom_eq (i : Nat) (ts : List Tree) :
    badPlacesFrom i ts = (ts.zipIdx i).flatMap fun (c, j) => (badPlaces c).map (.below j) := by
  induction ts generalizing i with
  | nil => rw [badPlacesFrom]; rfl
  | cons t ts ih => rw [badPlacesFrom, ih, List.zipIdx_cons, List.flatMap_cons]

/-- A bad place hides the places below it. -/
theorem badPlaces_eq (t : Tree) :
    badPlaces t =
      if isBad t.info then [⟨[], t⟩]
      else if t.info.hasError then
        t.children.zipIdx.flatMap fun (c, j) => (badPlaces c).map (.below j)
      else [] := by
  cases t with
  | node info children =>
    conv_lhs => rw [badPlaces, badPlacesFrom_eq]
    rfl

/-- Without their spots, these are the nodes that are listed. -/
theorem map_badPlaces (t : Tree) : (badPlaces t).map (·.node) = badNodes t := by
  -- The numbers of the children play no part in the nodes.
  have hfrom : ∀ (ts : List Tree) (i : Nat), (∀ c ∈ ts, (badPlaces c).map (·.node) = badNodes c) →
      (badPlacesFrom i ts).map (·.node) = badNodesOfAll ts := by
    intro ts
    induction ts with
    | nil => intro i _; rfl
    | cons c ts ih =>
      intro i hts
      obtain ⟨hc, hrest⟩ := List.forall_mem_cons.mp hts
      rw [badPlacesFrom, badNodesOfAll, List.map_append, List.map_map, ih (i + 1) hrest, ← hc]
      rfl
  induction t using Tree.induction with
  | h t ih =>
    rw [badPlaces_eq, badNodes_eq, ← badPlacesFrom_eq]
    split
    · rfl
    · split
      · exact hfrom t.children 0 ih
      · rfl

/-- In a wrong node nothing but itself is outermost. -/
theorem outermostBad_of_bad (hbad : isBad t.info = true) :
    t.OutermostBad s u ↔ s = [] ∧ u = t := by
  constructor
  · intro hu
    have hs : s = [] := by
      by_contra hne
      have hroot := hu.above [] t s.nil_prefix (Ne.symm hne) rfl
      rw [hbad] at hroot
      cases hroot
    subst hs
    exact ⟨rfl, (Option.some.inj hu.at_spot).symm⟩
  · rintro ⟨rfl, rfl⟩
    exact ⟨rfl, hbad, fun p v hp hne _ => absurd (List.prefix_nil.mp hp) hne⟩

/-- What is outermost in a node that is not wrong is outermost in one of its children. -/
theorem outermostBad_of_good (hgood : isBad t.info = false) :
    t.OutermostBad s u ↔
      ∃ i c p, t.children[i]? = some c ∧ s = i :: p ∧ c.OutermostBad p u := by
  constructor
  · intro hu
    have hspot := hu.at_spot
    cases s with
    | nil =>
      cases hspot
      have hbad := hu.bad
      rw [hgood] at hbad
      cases hbad
    | cons i p =>
      obtain ⟨c, hget, hspot⟩ := Tree.at?_cons_eq_some_iff.mp hspot
      refine ⟨i, c, p, hget, rfl, hspot, hu.bad, ?_⟩
      intro q v hq hne hv
      refine hu.above (i :: q) v (List.cons_prefix_cons.mpr ⟨rfl, hq⟩) ?_
        (Tree.at?_cons_eq_some_iff.mpr ⟨c, hget, hv⟩)
      intro heq
      exact hne (List.cons.inj heq).2
  · rintro ⟨i, c, p, hget, rfl, hu⟩
    refine ⟨Tree.at?_cons_eq_some_iff.mpr ⟨c, hget, hu.at_spot⟩, hu.bad, ?_⟩
    -- on the way there is the node itself, and then what is on the way in the child
    intro q v hq hne hv
    cases q with
    | nil =>
      cases hv
      exact hgood
    | cons j q =>
      obtain ⟨rfl, hprefix⟩ := List.cons_prefix_cons.mp hq
      rw [Tree.at?_cons, hget, Option.bind_some] at hv
      exact hu.above q v hprefix (fun heq => hne (by rw [heq])) hv

/-- The wrong nodes that are listed are the outermost ones. -/
theorem mem_badPlaces_iff (h : t.Flagged) : ⟨s, u⟩ ∈ badPlaces t ↔ t.OutermostBad s u := by
  induction t using Tree.induction generalizing s u with
  | h t ih =>
    rw [badPlaces_eq]
    by_cases hbad : isBad t.info = true
    · rw [if_pos hbad, List.mem_singleton, BadPlace.mk.injEq, outermostBad_of_bad hbad]
    · rw [if_neg hbad]
      by_cases herror : t.info.hasError = true
      · rw [if_pos herror, List.mem_flatMap, outermostBad_of_good (by simpa using hbad)]
        constructor
        · rintro ⟨⟨c, i⟩, hc, hu⟩
          have hget : t.children[i]? = some c := List.mem_zipIdx_iff_getElem?.mp hc
          have hmem : c ∈ t.children := List.mem_of_getElem? hget
          obtain ⟨⟨p, u'⟩, hplace, heq⟩ := List.mem_map.mp hu
          cases heq
          exact ⟨i, c, p, hget, rfl, (ih c hmem (h.child hmem)).mp hplace⟩
        · rintro ⟨i, c, p, hget, rfl, hu⟩
          have hmem : c ∈ t.children := List.mem_of_getElem? hget
          have hplace : ⟨p, u⟩ ∈ badPlaces c := (ih c hmem (h.child hmem)).mpr hu
          exact ⟨(c, i), List.mem_zipIdx_iff_getElem?.mpr hget, List.mem_map.mpr ⟨_, hplace, rfl⟩⟩
      · rw [if_neg herror]
        -- an unmarked node has nothing wrong below it
        constructor
        · intro hu
          cases hu
        · intro hu
          exact absurd ((h t .self).mpr ⟨u, Tree.within_of_at? hu.at_spot, hu.bad⟩) herror

/-- They are listed in the order of the text. -/
theorem badPlaces_ascending (t : Tree) : (badPlaces t).Pairwise fun x y => x.spot < y.spot := by
  induction t using Tree.induction with
  | h t ih =>
    rw [badPlaces_eq]
    split
    · exact List.pairwise_singleton _ _
    · split
      · rw [List.pairwise_flatMap]
        constructor
        · rintro ⟨c, i⟩ hc
          rw [List.pairwise_map]
          refine (ih c (List.mem_of_getElem? (List.mem_zipIdx_iff_getElem?.mp hc))).imp ?_
          intro x y hxy
          exact List.cons_lt_cons_self.mpr hxy
        · -- Places below different children differ in their first step.
          refine (zipIdx_ascending t.children 0).imp ?_
          rintro ⟨c, i⟩ ⟨d, j⟩ hij x hx y hy
          obtain ⟨x, -, rfl⟩ := List.mem_map.mp hx
          obtain ⟨y, -, rfl⟩ := List.mem_map.mp hy
          exact List.Lex.rel hij
      · exact .nil

end Places

/-! ## The first on a line -/

section Lines

variable {seen : List Int} {ts : List Tree} {t : Tree}

/-- A node is kept if its line is new and no node before it begins there. -/
theorem mem_firstOnLines_iff : t ∈ firstOnLines seen ts ↔
    ∃ before after, ts = before ++ t :: after ∧ t.startLine ∉ seen ∧
      ∀ u ∈ before, u.startLine ≠ t.startLine := by
  induction ts generalizing seen with
  | nil => simp [firstOnLines]
  | cons v ts ih =>
    rw [firstOnLines]
    simp only [List.contains_iff_mem]
    -- A node on a line that is reported already is passed.
    by_cases hv : v.startLine ∈ seen
    · rw [if_pos hv, ih]
      constructor
      · rintro ⟨before, after, rfl, hnew, hbefore⟩
        refine ⟨v :: before, after, rfl, hnew, List.forall_mem_cons.mpr ⟨?_, hbefore⟩⟩
        intro heq
        exact hnew (heq ▸ hv)
      · rintro ⟨before, after, hsplit, hnew, hbefore⟩
        cases before with
        | nil =>
          cases hsplit
          exact absurd hv hnew
        | cons u before =>
          cases hsplit
          exact ⟨before, after, rfl, hnew, (List.forall_mem_cons.mp hbefore).2⟩
    · rw [if_neg hv, List.mem_cons, ih]
      constructor
      · rintro (rfl | ⟨before, after, rfl, hnew, hbefore⟩)
        · exact ⟨[], ts, rfl, hv, nofun⟩
        · obtain ⟨hne, hnew⟩ := not_or.mp (mt List.mem_cons.mpr hnew)
          exact ⟨v :: before, after, rfl, hnew,
            List.forall_mem_cons.mpr ⟨fun heq => hne heq.symm, hbefore⟩⟩
      · rintro ⟨before, after, hsplit, hnew, hbefore⟩
        cases before with
        | nil =>
          cases hsplit
          exact Or.inl rfl
        | cons u before =>
          cases hsplit
          obtain ⟨hne, hbefore⟩ := List.forall_mem_cons.mp hbefore
          refine Or.inr ⟨before, after, rfl, ?_, hbefore⟩
          rw [List.mem_cons, not_or]
          exact ⟨fun heq => hne heq.symm, hnew⟩

/-- On every new line a node is kept. -/
theorem exists_mem_firstOnLines (ht : t ∈ ts) (hnew : t.startLine ∉ seen) :
    ∃ u ∈ firstOnLines seen ts, u.startLine = t.startLine := by
  have hsome : (ts.find? (·.startLine == t.startLine)).isSome :=
    List.find?_isSome.mpr ⟨t, ht, beq_self_eq_true _⟩
  obtain ⟨u, hu⟩ := Option.isSome_iff_exists.mp hsome
  obtain ⟨hline, before, after, rfl, hbefore⟩ := List.find?_eq_some_iff_append.mp hu
  rw [beq_iff_eq] at hline
  refine ⟨u, mem_firstOnLines_iff.mpr ⟨before, after, rfl, hline ▸ hnew, ?_⟩, hline⟩
  intro v hv
  rw [hline]
  simpa using hbefore v hv

/-- No line is reported twice. -/
theorem nodup_firstOnLines (seen : List Int) (ts : List Tree) :
    ((firstOnLines seen ts).map (·.startLine)).Nodup := by
  induction ts generalizing seen with
  | nil => exact .nil
  | cons v ts ih =>
    rw [firstOnLines]
    split
    · exact ih seen
    · rw [List.map_cons, List.nodup_cons]
      refine ⟨fun hmem => ?_, ih _⟩
      obtain ⟨t, ht, hline⟩ := List.mem_map.mp hmem
      obtain ⟨-, -, -, hnew, -⟩ := mem_firstOnLines_iff.mp ht
      exact hnew (hline ▸ List.mem_cons_self)

end Lines

section Reported

variable {root t u : Tree} {s p : Spot} {source : String} {ms : List Marker} {m : Marker}

@[simp] theorem firstOnLines_nil (seen : List Int) : firstOnLines seen [] = [] := rfl

@[simp] theorem sortMarkers_nil : sortMarkers [] = [] := List.mergeSort_nil

@[simp] theorem mem_sortMarkers : m ∈ sortMarkers ms ↔ m ∈ ms := List.mem_mergeSort

/-- Markers on different lines are sorted by their lines. -/
theorem sortMarkers_ascending (h : (ms.map (·.line)).Nodup) :
    (sortMarkers ms).Pairwise fun a b => a.line < b.line := by
  have hsorted : (sortMarkers ms).Pairwise fun a b =>
      (decide (a.line < b.line) || (a.line == b.line && decide (a.startByte ≤ b.startByte))) = true :=
    List.pairwise_mergeSort
      (by
        intro a b c hab hbc
        simp only [Bool.or_eq_true, decide_eq_true_eq, Bool.and_eq_true, beq_iff_eq] at *
        omega)
      (by
        intro a b
        simp only [Bool.or_eq_true, decide_eq_true_eq, Bool.and_eq_true, beq_iff_eq]
        omega)
      ms
  have hperm : (sortMarkers ms).Perm ms := List.mergeSort_perm ms _
  -- The order allows equal lines, but no line is there twice.
  have hlines : (sortMarkers ms).Pairwise fun a b => a.line ≠ b.line :=
    List.pairwise_map.mp ((hperm.map Marker.line).nodup_iff.mpr h)
  refine (hsorted.and hlines).imp ?_
  rintro a b ⟨hle, hne⟩
  simp only [Bool.or_eq_true, decide_eq_true_eq, Bool.and_eq_true, beq_iff_eq] at hle
  omega

/-- The nodes that are reported are the first outermost wrong ones on their lines. -/
theorem mem_firstOnLines_badNodes_iff (h : root.Flagged) :
    t ∈ firstOnLines [] (badNodes root) ↔ ∃ s, root.FirstBadOnLine s t := by
  rw [mem_firstOnLines_iff, ← map_badPlaces]
  have hascending := badPlaces_ascending root
  constructor
  · rintro ⟨before, after, hsplit, -, hbefore⟩
    obtain ⟨front, back, hplaces, rfl, hback⟩ := List.map_eq_append_iff.mp hsplit
    obtain ⟨⟨s, t⟩, rest, rfl, rfl, -⟩ := List.map_eq_cons_iff.mp hback
    rw [hplaces] at hascending
    have hmem : ∀ {p u}, root.OutermostBad p u → ⟨p, u⟩ ∈ front ++ ⟨s, t⟩ :: rest := by
      intro p u hu
      rw [← hplaces]
      exact (mem_badPlaces_iff h).mpr hu
    refine ⟨s, (mem_badPlaces_iff h).mp (by rw [hplaces]; simp), fun p u hu hline hlt => ?_⟩
    rcases List.mem_append.mp (hmem hu) with hfront | hback
    · exact hbefore u (List.mem_map_of_mem hfront) hline
    · rcases List.mem_cons.mp hback with heq | hrest
      · cases heq
        exact List.lt_irrefl _ hlt
      · -- what is listed behind it does not come before it
        have hafter := (List.pairwise_append.mp hascending).2.1
        have hgt := List.rel_of_pairwise_cons hafter hrest
        exact List.lt_asymm hgt hlt
  · -- What is listed before it comes before it in the tree, so it is on another line.
    rintro ⟨s, hs⟩
    obtain ⟨front, rest, hplaces⟩ := List.append_of_mem ((mem_badPlaces_iff h).mpr hs.outermost)
    refine ⟨front.map (·.node), rest.map (·.node), by rw [hplaces]; simp, nofun, ?_⟩
    intro u hu hline
    obtain ⟨⟨p, u⟩, hplace, rfl⟩ := List.mem_map.mp hu
    have hbad : root.OutermostBad p u := by
      refine (mem_badPlaces_iff h).mp ?_
      rw [hplaces]
      exact List.mem_append_left _ hplace
    rw [hplaces] at hascending
    exact hs.first p u hbad hline
      ((List.pairwise_append.mp hascending).2.2 _ hplace _ List.mem_cons_self)

/-- Nothing is listed exactly if the root is not marked. -/
theorem badNodes_eq_nil_iff (h : t.Flagged) : badNodes t = [] ↔ t.info.hasError = false := by
  induction t using Tree.induction with
  | h t ih =>
    rw [badNodes_eq]
    by_cases hbad : isBad t.info = true
    · rw [if_pos hbad, (h t .self).mpr ⟨t, .self, hbad⟩]
      simp
    · rw [if_neg hbad]
      by_cases herror : t.info.hasError = true
      · rw [if_pos herror]
        simp only [herror, Bool.true_eq_false, iff_false]
        intro hnone
        obtain ⟨u, hu, hubad⟩ := (h t .self).mp herror
        cases hu with
        | self => exact hbad hubad
        | @under c _ hc hu =>
          -- the child that it is in is marked, and what is listed for it is listed here
          have hlisted : badNodes c ≠ [] := by
            rw [ne_eq, ih c hc (h.child hc), (h c (.under hc .self)).mpr ⟨u, hu, hubad⟩]
            simp
          obtain ⟨front, back, hsplit⟩ := List.append_of_mem hc
          rw [hsplit, badNodesOfAll_append, badNodesOfAll] at hnone
          simp [hlisted] at hnone
      · rw [if_neg herror]
        simpa using herror

/-- The errors are those of the first bad nodes on their lines, sorted. -/
theorem syntaxErrors_eq (h : root.Flagged) :
    syntaxErrors source root =
      sortMarkers ((firstOnLines [] (badNodes root)).map (errorMarker source)) := by
  unfold syntaxErrors
  by_cases hroot : root.info.hasError = true
  · rw [if_pos hroot]
  · rw [if_neg hroot, (badNodes_eq_nil_iff h).mpr (by simpa using hroot)]
    simp

/-- An error is that of the first bad node of its line. -/
theorem mem_syntaxErrors_iff (h : root.Flagged) : m ∈ syntaxErrors source root ↔
    ∃ s t, root.FirstBadOnLine s t ∧ m = errorMarker source t := by
  rw [syntaxErrors_eq h, mem_sortMarkers, List.mem_map]
  simp only [mem_firstOnLines_badNodes_iff h]
  constructor
  · rintro ⟨t, ⟨s, ht⟩, rfl⟩
    exact ⟨s, t, ht, rfl⟩
  · rintro ⟨s, t, ht, rfl⟩
    exact ⟨t, ⟨s, ht⟩, rfl⟩

/-- A line with an outermost bad node has a first one. -/
theorem exists_firstBadOnLine (h : root.Flagged) (ht : root.OutermostBad s t) :
    ∃ p u, root.FirstBadOnLine p u ∧ u.startLine = t.startLine := by
  have hmem : t ∈ badNodes root := by
    rw [← map_badPlaces]
    exact List.mem_map_of_mem ((mem_badPlaces_iff h).mpr ht)
  have hnew : t.startLine ∉ ([] : List Int) := List.not_mem_nil
  obtain ⟨u, hu, hline⟩ := exists_mem_firstOnLines hmem hnew
  obtain ⟨p, hp⟩ := (mem_firstOnLines_badNodes_iff h).mp hu
  exact ⟨p, u, hp, hline⟩

/-- The errors go up line by line. -/
theorem syntaxErrors_ascending (h : root.Flagged) :
    (syntaxErrors source root).Pairwise fun a b => a.line < b.line := by
  rw [syntaxErrors_eq h]
  refine sortMarkers_ascending ?_
  rw [List.map_map]
  exact nodup_firstOnLines [] (badNodes root)

/-- There is no error exactly if the root has no flag. -/
theorem syntaxErrors_eq_nil_iff (h : root.Flagged) :
    syntaxErrors source root = [] ↔ root.info.hasError = false := by
  rw [← badNodes_eq_nil_iff h]
  constructor
  · intro hnone
    by_contra hlisted
    -- A bad node is on some line, and the first one there is reported.
    obtain ⟨t, ht⟩ := List.exists_mem_of_ne_nil _ hlisted
    have hnew : t.startLine ∉ ([] : List Int) := List.not_mem_nil
    obtain ⟨u, hu, -⟩ := exists_mem_firstOnLines ht hnew
    obtain ⟨s, hs⟩ := (mem_firstOnLines_badNodes_iff h).mp hu
    have hmem : errorMarker source u ∈ syntaxErrors source root :=
      (mem_syntaxErrors_iff h).mpr ⟨s, u, hs, rfl⟩
    rw [hnone] at hmem
    cases hmem
  · intro hnone
    simp [syntaxErrors_eq h, hnone]

end Reported

/-- Of a tree in which exactly those nodes are marked that have something wrong in them, the scan ends
after at most as many turns as there are nodes. Then one error is reported for every line on which an
outermost wrong node begins, made from the first of them, by ascending lines; and none at all exactly
if the root is not marked, that is, if no node is wrong. -/
theorem one_error_per_line (source : String) {root : Tree} (h : root.Flagged) :
    (∃ n ≤ root.subtrees.length, ∃ found,
      (ScanState.step source)^[n] ⟨[root], []⟩ = ⟨[], found⟩ ∧
        syntaxErrors source root = sortMarkers found) ∧
    (syntaxErrors source root).Pairwise (fun a b => a.line < b.line) ∧
    (∀ line, (∃ m ∈ syntaxErrors source root, m.line = line) ↔
      ∃ s t, root.OutermostBad s t ∧ t.startLine = line) ∧
    (∀ m, m ∈ syntaxErrors source root ↔
      ∃ s t, root.FirstBadOnLine s t ∧ m = errorMarker source t) ∧
    (syntaxErrors source root = [] ↔ root.info.hasError = false) ∧
    (syntaxErrors source root = [] ↔ ∀ t : Tree, t.Within root → isBad t.info = false) := by
  refine ⟨?_, syntaxErrors_ascending h, ?_, fun m => mem_syntaxErrors_iff h,
    syntaxErrors_eq_nil_iff h, ?_⟩
  · obtain ⟨n, hn, hrun⟩ := ScanState.run source ⟨[root], []⟩
    have hwork : ScanState.work ⟨[root], []⟩ = root.subtrees.length := by
      rw [ScanState.work, Tree.subtreesOfAll, Tree.subtreesOfAll, List.append_nil]
    refine ⟨n, hwork ▸ hn, _, hrun, ?_⟩
    rw [syntaxErrors_eq h, ScanState.outcome, badNodesOfAll, badNodesOfAll, List.append_nil]
    rfl
  · intro line
    constructor
    · rintro ⟨m, hm, rfl⟩
      obtain ⟨s, t, ht, rfl⟩ := (mem_syntaxErrors_iff h).mp hm
      exact ⟨s, t, ht.outermost, rfl⟩
    · rintro ⟨s, t, ht, rfl⟩
      obtain ⟨p, u, hu, hline⟩ := exists_firstBadOnLine h ht
      exact ⟨_, (mem_syntaxErrors_iff h).mpr ⟨p, u, hu, rfl⟩, hline⟩
  · rw [syntaxErrors_eq_nil_iff h]
    constructor
    · intro hroot t ht
      by_contra hbad
      have := (h root .self).mpr ⟨t, ht, by simpa using hbad⟩
      rw [hroot] at this
      cases this
    · intro hgood
      by_contra hmarked
      obtain ⟨u, hu, hbad⟩ := (h root .self).mp (by simpa using hmarked)
      rw [hgood u hu] at hbad
      cases hbad

/-- A node on a row, marked or wrong. -/
def rowNode (row : Nat) (marked wrong missing : Bool) (children : List Tree := []) : Tree :=
  .node { kind := ";", named := false, startByte := row, endByte := row + 1, startRow := row
          endRow := row, hasError := marked, isError := wrong, missing } children

/-- A tree with a wrong node that has another one in it, two on one row, and one of them missing. -/
def wrongTree : Tree :=
  rowNode 0 true false false
    [rowNode 0 true true false [rowNode 1 true true false], rowNode 2 false false false,
      rowNode 2 true false false [rowNode 2 true false true, rowNode 2 true true false]]

/-- A tree with a wrong node is reported. -/
theorem one_error_per_line_wrongTree :
    wrongTree.Flagged ∧ (syntaxErrors "a\nb\nc" wrongTree).Pairwise (fun a b => a.line < b.line) ∧
      syntaxErrors "a\nb\nc" wrongTree ≠ [] := by
  have h : wrongTree.Flagged := by decide +kernel
  obtain ⟨-, hascending, -, -, hnil, -⟩ := one_error_per_line "a\nb\nc" h
  refine ⟨h, hascending, fun hnone => ?_⟩
  exact absurd (hnil.mp hnone) (by decide)

end Java

end JavaAtlas
