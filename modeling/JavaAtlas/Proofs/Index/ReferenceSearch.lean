import Mathlib.Data.String.Basic
import JavaAtlas.Index.References
import JavaAtlas.Proofs.Index.Sorted
import JavaAtlas.Proofs.Outcome

namespace JavaAtlas

/-! # Every reference is judged on its own

The search for the references to a member judges one row after the other and carries the
supertypes it has found from row to row, also from rows whose check ends in an error. A cache is
sound if all it holds is what a fresh look-up would give. Every step of a search keeps the cache
sound, and what it comes to from a sound cache does not depend on what the cache holds.

* `oblivious_judge`: a verdict does not depend on the cache;
* `judgeAll_eq_filterMap`: so candidates are judged as if each were the only one;
* `references_judged_alone`: what the search returns, in which order and in which scope.
-/

namespace IndexView

variable {α β : Type} {v : IndexView}

/-! ## Searches and the cache -/

/-- All that a cache holds is what the index says. -/
def CacheSound (v : IndexView) (cache : SupertypeCache) : Prop :=
  ∀ name found, cache.lookup name = some found → v.allSupertypes name = .ok found

/-- From every sound cache the search comes to the same, and it leaves a sound cache, also if it
fails. -/
def Oblivious (v : IndexView) (search : Search α) : Prop :=
  ∃ outcome, ∀ cache, v.CacheSound cache →
    (search.run.run cache).1 = outcome ∧ v.CacheSound (search.run.run cache).2

theorem cacheSound_nil : v.CacheSound [] := by
  intro name found h
  cases h

/-- A cache stays sound when what a look-up has given is put into it. -/
theorem CacheSound.cons {cache : SupertypeCache} (h : v.CacheSound cache) {name : String}
    {found : List String} (hfound : v.allSupertypes name = .ok found) :
    v.CacheSound ((name, found) :: cache) := by
  intro name' found' hlookup
  rw [List.lookup_cons] at hlookup
  split at hlookup
  · next hname =>
    -- the name that was put in last
    cases hlookup
    rw [eq_of_beq hname]
    exact hfound
  · exact h name' found' hlookup

/-- One search after another starts from the cache that the first has left. -/
theorem run_bind (search : Search α) (next : α → Search β) (cache : SupertypeCache) :
    (search >>= next).run.run cache =
      match search.run.run cache with
      | (.ok a, cache') => (next a).run.run cache'
      | (.error e, cache') => (.error e, cache') := by
  rw [ExceptT.run_bind, StateT.run_bind]
  rcases search.run.run cache with ⟨outcome, cache'⟩
  cases outcome with
  | ok a => rfl
  | error e => rfl

theorem oblivious_pure (a : α) : v.Oblivious (pure a) :=
  ⟨.ok a, fun _ h => ⟨rfl, h⟩⟩

theorem oblivious_throw (e : Failure) : v.Oblivious (throw e : Search α) :=
  ⟨.error e, fun _ h => ⟨rfl, h⟩⟩

/-- Searches that do not depend on the cache can follow one another. -/
theorem Oblivious.bind {search : Search α} {next : α → Search β} (h : v.Oblivious search)
    (hnext : ∀ a, v.Oblivious (next a)) : v.Oblivious (search >>= next) := by
  obtain ⟨outcome, houtcome⟩ := h
  cases outcome with
  | error e =>
    -- what comes next is not run; the cache is the one that the failed search has left
    refine ⟨.error e, fun cache hcache => ?_⟩
    obtain ⟨hrun, hsound⟩ := houtcome cache hcache
    rw [run_bind]
    generalize search.run.run cache = result at hrun hsound
    obtain ⟨_, cache'⟩ := result
    subst hrun
    exact ⟨rfl, hsound⟩
  | ok a =>
    -- what comes next starts from another cache than before, but from a sound one
    obtain ⟨outcome', houtcome'⟩ := hnext a
    refine ⟨outcome', fun cache hcache => ?_⟩
    obtain ⟨hrun, hsound⟩ := houtcome cache hcache
    rw [run_bind]
    generalize search.run.run cache = result at hrun hsound
    obtain ⟨_, cache'⟩ := result
    subst hrun
    exact houtcome' cache' hsound

/-- The supertypes of a type are taken from the cache, or looked up and put into it. -/
theorem run_ancestors (name : String) (cache : SupertypeCache) :
    (v.ancestors name).run.run cache =
      match cache.lookup name with
      | some found => (.ok found, cache)
      | none =>
        match v.allSupertypes name with
        | .ok found => (.ok found, (name, found) :: cache)
        | .error e => (.error e, cache) := by
  have hget : (get : Search SupertypeCache).run.run cache = (.ok cache, cache) := rfl
  unfold ancestors
  rw [run_bind, hget]
  dsimp only
  cases cache.lookup name with
  | some found => rfl
  | none =>
    cases v.allSupertypes name with
    | ok found => rfl
    | error e => rfl

/-- Looking at the supertypes of a type is the one step that reads and writes the cache. -/
theorem oblivious_ancestors (name : String) : v.Oblivious (v.ancestors name) := by
  refine ⟨v.allSupertypes name, fun cache hcache => ?_⟩
  rw [run_ancestors]
  -- a hit is what a look-up would give, and only what a look-up has given is stored
  cases hlookup : cache.lookup name with
  | some found => exact ⟨(hcache name found hlookup).symm, hcache⟩
  | none =>
    cases hfound : v.allSupertypes name with
    | ok found => exact ⟨rfl, hcache.cons hfound⟩
    | error e => exact ⟨rfl, hcache⟩

/-! ## Following a chain -/

/-- The search for a member of a type in the type and those above it. -/
theorem oblivious_ownersStep (current : String) (step : ChainStep) :
    v.Oblivious (do
      let owners := ownersInOrder (Java.erase current) (← v.ancestors (Java.erase current))
      match v.firstMemberType step owners with
      | .ok found => return found
      | .error e => throw e) := by
  refine (oblivious_ancestors _).bind fun names => ?_
  dsimp only
  split
  · exact oblivious_pure _
  · exact oblivious_throw _

/-- The type behind one step of a chain does not depend on the cache. -/
theorem oblivious_stepType (current : String) (step : ChainStep) :
    v.Oblivious (v.stepType current step) := by
  have howners := v.oblivious_ownersStep current step
  unfold stepType
  cases step with
  | lambdaParam index arity => exact oblivious_pure _
  | field name =>
    dsimp only
    split
    · exact oblivious_pure none
    · exact howners
  | call name args =>
    dsimp only
    split
    · exact oblivious_pure _
    · exact howners

/-- A step that is tried in one scope after the other does not depend on the cache. -/
theorem oblivious_firstStepType (step : ChainStep) (scopes : List String) :
    v.Oblivious (v.firstStepType step scopes) := by
  induction scopes with
  | nil => exact oblivious_pure none
  | cons scope rest ih =>
    refine (oblivious_stepType scope step).bind fun found => ?_
    cases found with
    | some found => exact oblivious_pure _
    | none => exact ih

/-- The type at the end of a chain does not depend on the cache. -/
theorem oblivious_walkSteps (current : Option String) (steps : List ChainStep) :
    v.Oblivious (v.walkSteps current steps) := by
  induction steps generalizing current with
  | nil =>
    unfold walkSteps
    exact oblivious_pure current
  | cons step rest ih =>
    cases current with
    | none => exact oblivious_pure none
    | some current => exact (oblivious_stepType current step).bind ih

/-- The type of what a reference is called on does not depend on the cache. -/
theorem oblivious_walkChain (c : Candidate) (chain : ReceiverChain) :
    v.Oblivious (v.walkChain c chain) := by
  unfold walkChain
  split
  · exact oblivious_walkSteps _ _
  · exact oblivious_walkSteps _ _
  · split
    · exact (oblivious_firstStepType _ _).bind fun found => oblivious_walkSteps found _
    · exact oblivious_pure none

/-! ## Verdicts -/

/-- Whether a scope inherits from an owner does not depend on the cache. -/
theorem oblivious_anyInherits (owner : String) (scopes : List String) :
    v.Oblivious (v.anyInherits owner scopes) := by
  induction scopes with
  | nil => exact oblivious_pure false
  | cons scope rest ih =>
    refine (oblivious_ancestors scope).bind fun names => ?_
    split
    · exact oblivious_pure true
    · exact ih

/-- A verdict on a known target does not depend on the cache. -/
theorem oblivious_judgeTarget (owner target : String) :
    v.Oblivious (v.judgeTarget owner target) := by
  unfold judgeTarget
  split
  · exact oblivious_pure _
  · exact (oblivious_ancestors target).bind fun _ => oblivious_pure _

/-- A verdict by what a reference is called on does not depend on the cache. -/
theorem oblivious_judgeReceiver (owner : String) (c : Candidate) :
    v.Oblivious (v.judgeReceiver owner c) := by
  unfold judgeReceiver
  split
  · split
    · exact oblivious_judgeTarget owner _
    · exact oblivious_pure _
  · refine (oblivious_walkChain c _).bind fun target => ?_
    cases target with
    | some target => exact oblivious_judgeTarget owner _
    | none => exact oblivious_pure _
  · exact oblivious_pure _

/-- The verdict on a reference does not depend on the cache. -/
theorem oblivious_judge (m : Member) (c : Candidate) : v.Oblivious (v.judge m c) := by
  unfold judge
  split
  · exact oblivious_pure _
  split
  · exact oblivious_pure _
  split
  · exact (oblivious_anyInherits m.owner _).bind fun _ => oblivious_pure _
  · exact (oblivious_anyInherits m.owner _).bind fun _ => oblivious_pure _
  · exact (oblivious_ancestors _).bind fun _ => oblivious_pure _
  · exact oblivious_pure _
  · exact oblivious_pure _
  · exact oblivious_pure _
  · exact oblivious_judgeReceiver m.owner c
  · exact oblivious_judgeReceiver m.owner c

/-! ## One candidate after the other -/

/-- The verdict for a reference that is the only one. -/
def verdictAlone (v : IndexView) (m : Member) (c : Candidate) : Except Failure SiteVerdict :=
  ((v.judge m c).run.run []).1

/-- The cache that is left behind when references have been judged. -/
def cacheAfter (v : IndexView) (m : Member) (before : List Candidate) : SupertypeCache :=
  before.foldl (fun cache c => ((v.judge m c).run.run cache).2) []

/-- The verdict for a reference that is judged after others. -/
def verdictAfter (v : IndexView) (m : Member) (before : List Candidate) (c : Candidate) :
    Except Failure SiteVerdict :=
  ((v.judge m c).run.run (v.cacheAfter m before)).1

/-- Judged from a sound cache, a reference gets the verdict that it gets alone, and the cache that
it leaves is sound. -/
theorem CacheSound.judge {cache : SupertypeCache} (h : v.CacheSound cache) (m : Member)
    (c : Candidate) :
    ((v.judge m c).run.run cache).1 = v.verdictAlone m c ∧
      v.CacheSound ((v.judge m c).run.run cache).2 := by
  obtain ⟨outcome, houtcome⟩ := oblivious_judge (v := v) m c
  have halone := (houtcome [] cacheSound_nil).1
  obtain ⟨hrun, hsound⟩ := houtcome cache h
  exact ⟨hrun.trans halone.symm, hsound⟩

/-- Whatever was judged before, the cache is sound. -/
theorem cacheSound_cacheAfter (m : Member) (before : List Candidate) :
    v.CacheSound (v.cacheAfter m before) := by
  suffices hfold : ∀ cache, v.CacheSound cache →
      v.CacheSound (before.foldl (fun cache c => ((v.judge m c).run.run cache).2) cache) from
    hfold [] cacheSound_nil
  induction before with
  | nil => exact fun _ h => h
  | cons c rest ih => exact fun cache h => ih _ (h.judge m c).2

/-- References judged before do not change a verdict. -/
theorem verdictAfter_eq (m : Member) (before : List Candidate) (c : Candidate) :
    v.verdictAfter m before c = v.verdictAlone m c :=
  ((cacheSound_cacheAfter m before).judge m c).1

/-- The site of a reference, if it has to do with the member when it is judged alone. -/
def siteAlone (v : IndexView) (m : Member) (c : Candidate) : Option ReferenceSite :=
  match v.verdictAlone m c with
  | .ok verdict => siteOf c verdict
  | .error _ => none

/-- The sites found are those of the references that have to do with the member when judged alone.
-/
theorem judgeAll_eq_filterMap (m : Member) (cs : List Candidate) {cache : SupertypeCache}
    (h : v.CacheSound cache) : v.judgeAll m cs cache = cs.filterMap (v.siteAlone m) := by
  induction cs generalizing cache with
  | nil => rfl
  | cons c rest ih =>
    -- the rest is judged from the cache that this one leaves, which is sound even after an error
    obtain ⟨hverdict, hsound⟩ := h.judge m c
    have hstep : v.judgeAll m (c :: rest) cache =
        (v.siteAlone m c).toList ++ v.judgeAll m rest ((v.judge m c).run.run cache).2 := by
      rw [siteAlone, ← hverdict]
      rfl
    -- so the induction goes on from there
    rw [hstep, ih hsound, List.filterMap_cons]
    cases v.siteAlone m c with
    | none => rfl
    | some site => rfl

/-! ## Rows -/

/-- The rows of references with those of their files. -/
def referenceRows (v : IndexView) : List (ReferenceRow × FileRow) :=
  v.index.references.filterMap fun r => (v.index.fileOf? r.fileId).map (r, ·)

/-- Whether a reference has the name under which a member is referred to, and such a kind. -/
def namesMember (m : Member) (r : FileReference) : Bool :=
  match m.kind with
  | .field => false
  | .method => r.name == m.name && (r.kind == .call || r.kind == .methodRef)
  | .constructor => r.name == Java.simpleName m.owner && r.kind == .new

/-- Names and kinds are those that the search asks for. -/
theorem namesMember_eq (m : Member) (r : FileReference) :
    namesMember m r =
      (soughtAs m).any fun (name, kinds) => r.name == name && kinds.contains r.kind := by
  unfold namesMember soughtAs
  cases m.kind with
  | field => rfl
  | method =>
    simp only [Option.any_some, List.contains_cons, List.contains_nil, Bool.or_false]
  | constructor =>
    simp only [Option.any_some, List.contains_cons, List.contains_nil, Bool.or_false]

/-- The reference of a row, with what its file says about names. -/
def candidateOf (row : ReferenceRow × FileRow) : Candidate where
  symbol := row.1.symbol
  package := row.2.package
  wildcards := row.2.wildcardImports
  site :=
    { id := row.1.id
      kind := row.1.symbol.kind
      path := row.2.path
      fileName := row.2.name
      line := row.1.symbol.line
      startByte := row.1.symbol.startByte
      endByte := row.1.symbol.endByte
      callText := row.1.symbol.callText
      unresolvedReceiver := false }

/-- The verdict for the reference of a row, judged alone. -/
def rowVerdict (v : IndexView) (m : Member) (row : ReferenceRow × FileRow) :
    Except Failure SiteVerdict :=
  v.verdictAlone m (candidateOf row)

/-- Whether the reference of a row, judged alone, is or may be one to the member. -/
def refersTo (v : IndexView) (m : Member) (row : ReferenceRow × FileRow) : Bool :=
  match v.rowVerdict m row with
  | .ok .resolved | .ok .unresolved => true
  | .ok .unrelated | .error _ => false

/-- The site of the reference of a row, marked if what it is called on is not known. -/
def rowSite (v : IndexView) (m : Member) (row : ReferenceRow × FileRow) : ReferenceSite :=
  { (candidateOf row).site with
    unresolvedReceiver :=
      match v.rowVerdict m row with
      | .ok .unresolved => true
      | _ => false }

/-- By path, then by place. -/
def RowsInOrder (a b : ReferenceRow × FileRow) : Prop :=
  a.2.path < b.2.path ∨ a.2.path = b.2.path ∧ a.1.symbol.startByte ≤ b.1.symbol.startByte

/-- The site of a row is reported exactly if its reference alone is or may be one to the member. -/
theorem siteAlone_candidateOf (m : Member) (row : ReferenceRow × FileRow) :
    v.siteAlone m (candidateOf row) =
      if v.refersTo m row then some (v.rowSite m row) else none := by
  unfold siteAlone refersTo rowSite rowVerdict
  cases v.verdictAlone m (candidateOf row) with
  | error e => rfl
  | ok verdict =>
    cases verdict with
    | unrelated => rfl
    | resolved => rfl
    | unresolved => rfl

/-- The sites of rows are those of the rows that refer to the member, in their order. -/
theorem filterMap_siteAlone (m : Member) (rows : List (ReferenceRow × FileRow)) :
    (rows.map candidateOf).filterMap (v.siteAlone m) =
      (rows.filter (v.refersTo m)).map (v.rowSite m) := by
  rw [List.filterMap_map, ← List.filterMap_eq_map, List.filterMap_filter]
  apply List.filterMap_congr
  intro row _
  exact siteAlone_candidateOf m row

/-- A row that can be read gives its reference, and nothing else. -/
theorem readReference_eq_candidateOf {row : ReferenceRow × FileRow}
    (h : ∃ c, readReference row.1 row.2 = .ok c) :
    readReference row.1 row.2 = .ok (candidateOf row) := by
  obtain ⟨c, hc⟩ := h
  rw [hc]
  obtain ⟨-, -, hfields⟩ := bind_eq_ok_iff.1 hc
  exact hfields.symm

/-- Sites are ordered by path and then by place, which is a total order. -/
theorem keyOrder_siteOrder : KeyOrder siteOrder where
  trans := by
    rintro ⟨p, i⟩ ⟨q, j⟩ ⟨r, k⟩ hpq hqr
    simp only [siteOrder, Bool.or_eq_true, decide_eq_true_eq, Bool.and_eq_true, beq_iff_eq]
      at hpq hqr ⊢
    rcases hpq with hpq | ⟨rfl, hij⟩
    · rcases hqr with hqr | ⟨rfl, -⟩
      · exact .inl (lt_trans hpq hqr)
      · exact .inl hpq
    · rcases hqr with hqr | ⟨rfl, hjk⟩
      · exact .inl hqr
      · exact .inr ⟨rfl, by omega⟩
  total := by
    rintro ⟨p, i⟩ ⟨q, j⟩
    simp only [siteOrder, Bool.or_eq_true, decide_eq_true_eq, Bool.and_eq_true, beq_iff_eq]
    rcases lt_trichotomy p q with h | rfl | h
    · exact .inl (.inl h)
    · rcases Int.le_total i j with h | h
      · exact .inl (.inr ⟨rfl, h⟩)
      · exact .inr (.inr ⟨rfl, h⟩)
    · exact .inr (.inl h)

/-- The rows of a scope with the name of a member, in their order. -/
def soughtRows (v : IndexView) (m : Member) (scope : Scope) : List (ReferenceRow × FileRow) :=
  sortByKey siteOrder (fun (r, f) => (f.path, r.symbol.startByte))
    (v.referenceRows.filter fun (r, f) => namesMember m r.symbol && scope.covers f.origin)

/-- The rows sought are those of the scope with the name and a kind of the member. -/
@[simp]
theorem mem_soughtRows {m : Member} {scope : Scope} {row : ReferenceRow × FileRow} :
    row ∈ v.soughtRows m scope ↔
      row ∈ v.referenceRows ∧ namesMember m row.1.symbol ∧ scope.covers row.2.origin := by
  rw [soughtRows, mem_sortByKey, List.mem_filter, Bool.and_eq_true]

/-- The candidates are the rows sought, as they are read. -/
theorem candidates_eq_mapM (v : IndexView) (m : Member) (scope : Scope) :
    v.candidates m scope =
      (v.soughtRows m scope).mapM fun row => readReference row.1 row.2 := by
  unfold candidates soughtRows referenceRows
  simp only [namesMember_eq]
  cases soughtAs m with
  | none =>
    -- fields are not referred to: no row is sought, and none is read
    simp only [Option.any_none, Bool.false_and, List.filter_false, sortByKey, List.mergeSort_nil]
    rfl
  | some sought => rfl

/-- If every row sought can be read, the candidates are the references of these rows. -/
theorem candidates_eq {m : Member} {scope : Scope}
    (h : ∀ row ∈ v.soughtRows m scope, ∃ c, readReference row.1 row.2 = .ok c) :
    v.candidates m scope = .ok ((v.soughtRows m scope).map candidateOf) := by
  rw [candidates_eq_mapM]
  exact mapM_eq_ok_map fun row hrow => readReference_eq_candidateOf (h row hrow)

/-- The rows that are found: those sought that refer to the member when they are judged alone. -/
def foundRows (v : IndexView) (m : Member) (scope : Scope) : List (ReferenceRow × FileRow) :=
  (v.soughtRows m scope).filter (v.refersTo m)

/-- If every row sought can be read, the search succeeds with the sites of the rows found. -/
theorem references_eq {m : Member} {scope : Scope}
    (h : ∀ row ∈ v.soughtRows m scope, ∃ c, readReference row.1 row.2 = .ok c) :
    v.references m scope = .ok ((v.foundRows m scope).map (v.rowSite m)) := by
  unfold references foundRows
  rw [candidates_eq h, ← filterMap_siteAlone, ← judgeAll_eq_filterMap m _ cacheSound_nil]
  rfl

/-- The rows found are ordered by path and place. -/
theorem pairwise_foundRows (m : Member) (scope : Scope) :
    (v.foundRows m scope).Pairwise RowsInOrder := by
  have hsorted := (keyOrder_siteOrder.pairwise_sortByKey
    (fun (r, f) => (f.path, r.symbol.startByte))
    (v.referenceRows.filter fun (r, f) => namesMember m r.symbol && scope.covers f.origin)).filter
    (v.refersTo m)
  refine hsorted.imp ?_
  intro a b hab
  simpa [siteOrder, RowsInOrder] using hab

/-- What is found in the project is what is found at all, less what is in other files. -/
theorem foundRows_project (m : Member) :
    v.foundRows m .project = (v.foundRows m .all).filter (·.2.origin == .project) := by
  unfold foundRows soughtRows
  -- one side leaves rows out before sorting, the other after it
  simp only [keyOrder_siteOrder.filter_sortByKey, List.filter_filter]
  congr 1
  apply List.filter_congr
  rintro ⟨r, f⟩ -
  cases f.origin with
  | project => simp [Scope.covers]
  | library => simp [Scope.covers]

/-- Every reference is judged on its own: neither the cache that other references have left, nor
an error with which one of them ended, nor their order changes a verdict. The search returns,
ordered by path and place, exactly the rows with the name and a kind of the member, and of the
scope, whose verdict alone is that they refer or may refer to it, the latter marked. What it
returns for the project is what it returns for all files, less what is not in files of the
project. -/
theorem references_judged_alone (v : IndexView) (m : Member)
    (readable : ∀ row ∈ v.referenceRows, namesMember m row.1.symbol →
      ∃ c, readReference row.1 row.2 = .ok c) :
    (∀ before c, v.verdictAfter m before c = v.verdictAlone m c) ∧
    ∃ found : Scope → List (ReferenceRow × FileRow),
      (∀ scope,
        v.references m scope = .ok ((found scope).map (v.rowSite m)) ∧
        (found scope).Perm (v.referenceRows.filter fun (r, f) =>
          namesMember m r.symbol && scope.covers f.origin && v.refersTo m (r, f)) ∧
        (found scope).Pairwise RowsInOrder) ∧
      found .project = (found .all).filter (·.2.origin == .project) := by
  refine ⟨verdictAfter_eq m, v.foundRows m, fun scope => ⟨?_, ?_, ?_⟩, foundRows_project m⟩
  · apply references_eq
    intro row hrow
    -- only rows that are sought have to be readable
    obtain ⟨hmem, hnames, -⟩ := mem_soughtRows.1 hrow
    exact readable row hmem hnames
  · have hperm := ((sortByKey_perm siteOrder (fun (r, f) => (f.path, r.symbol.startByte))
      (v.referenceRows.filter fun (r, f) =>
        namesMember m r.symbol && scope.covers f.origin)).filter (v.refersTo m))
    rw [List.filter_filter] at hperm
    refine hperm.trans (List.Perm.of_eq (List.filter_congr ?_))
    rintro ⟨r, f⟩ -
    exact Bool.and_comm _ _
  · exact pairwise_foundRows m scope

/-! A call from a class whose row is damaged cannot be judged; one from another file can. -/

/-- The method `reset` of `p.W`. -/
def resetMethod : Member := { kind := .method, name := "reset", owner := "p.W" }

/-- A file of a package `p`. -/
def packageFile (id : Nat) (name : String) : FileRow where
  id := id
  path := name
  name := name
  origin := .project
  digest := .cleared
  size := 0
  package := "p"
  wildcardImports := []
  content := ""

/-- The call `reset()` from the class `p.B`, whose row is damaged. -/
def callFromDamaged : ReferenceRow where
  id := 1
  fileId := 2
  symbol := { kind := .call, name := "reset", argCount := some 0, callerClass := some "p.B" }

/-- The call `w.reset()` on a value of the type `p.W`. -/
def callOnValue : ReferenceRow where
  id := 2
  fileId := 3
  symbol :=
    { kind := .call
      name := "reset"
      argCount := some 0
      receiver := .expr
      receiverType := some { text := "W", resolved := some "p.W" }
      callerClass := some "p.C" }

/-- An index in which the row of `p.B` is damaged. -/
def damagedView : IndexView where
  index :=
    { files := [packageFile 1 "W.java", packageFile 2 "B.java", packageFile 3 "C.java"]
      declarations :=
        [{ id := 1, fileId := 1, package := "p", symbol := { qualname := "p.W", name := "W" } },
          { id := 2, fileId := 2, package := "p", symbol := { qualname := "p.B", name := "B" }
            damage := [.superclass] }]
      references := [callFromDamaged, callOnValue] }
  disk := default
  root := "/"

/-- The call from the damaged class ends in an error and is left out; the other one is found. -/
theorem references_judged_alone_beside_damage :
    (damagedView.rowVerdict resetMethod (callFromDamaged, packageFile 2 "B.java")).isOk = false ∧
    damagedView.references resetMethod .project =
      .ok [damagedView.rowSite resetMethod (callOnValue, packageFile 3 "C.java")] := by
  refine ⟨by decide +kernel, ?_⟩
  have hreadable : ∀ row ∈ damagedView.referenceRows, namesMember resetMethod row.1.symbol →
      ∃ c, readReference row.1 row.2 = .ok c := by
    have hrows : damagedView.referenceRows = [(callFromDamaged, packageFile 2 "B.java"),
        (callOnValue, packageFile 3 "C.java")] := by rfl
    rw [hrows]
    intro row hrow _
    rcases List.mem_pair.1 hrow with rfl | rfl
    · exact ⟨_, rfl⟩
    · exact ⟨_, rfl⟩
  obtain ⟨-, found, hfound, -⟩ := references_judged_alone damagedView resetMethod hreadable
  obtain ⟨hreferences, hperm, -⟩ := hfound .project
  have hrows : found .project = [(callOnValue, packageFile 3 "C.java")] := by
    rw [← List.perm_singleton]
    refine hperm.trans (List.Perm.of_eq ?_)
    decide +kernel
  rw [hreferences, hrows]
  rfl

end IndexView

end JavaAtlas
