import Mathlib.Data.List.Infix
import JavaAtlas.Resolve

namespace JavaAtlas

/-! # Names are resolved in stages

What a name stands for is said here without the steps by which it is found: there are four stages,
each with the questions that it asks and what they come to, and the first stage that comes to
something decides.

An `Observation` sees of steps what they come to and which questions they ask. The steps of a
resolution are followed once, for every observation: of steps that only come to something, and of
steps that also write down what is asked.

* `firstsInOrder_sortByName`: the declarations of a stage are put in order, of each name the first;
* `fails_iff_of_mem_stages`: a stage fails exactly if a question fails that it depends on;
* `Observation.sees_resolveAll`: the stages decide what is found and what is asked;
* `resolveAll_by_stages`: what follows for the result, its errors and the questions.
-/

/-! ## Questions -/

/-- A look-up that is made. -/
inductive Question where
  | qualified (name : String) (scope : Scope)
  | simple (name : String) (scope : Scope)
  | names
  | units (fileName : String)
  | inUnit (unit : SourceUnit)
deriving DecidableEq

/-- Whether a look-up has to succeed. What source files are there and what they hold need not be
known. -/
def Question.IsNeeded : Question → Prop
  | .qualified _ _ | .simple _ _ | .names => True
  | .units _ | .inUnit _ => False

/-- Something went wrong. -/
def Failed {ε α : Type} (outcome : Except ε α) : Prop := ∃ e, outcome = .error e

/-- The look-up fails in an index. -/
def Question.Fails {ε : Type} (index : SymbolIndex (Except ε)) : Question → Prop
  | .qualified name scope => Failed (index.qualified name scope)
  | .simple name scope => Failed (index.simple name scope)
  | .names => Failed index.names
  | .units fileName => Failed (index.units fileName)
  | .inUnit unit => Failed (index.inUnit unit)

/-- Steps that write down what is asked. -/
abbrev Asking (ε : Type) := ExceptT ε (StateM (List Question))

/-- Writes down a question and gives its answer. -/
def ask {ε α : Type} (q : Question) (answer : Except ε α) : Asking ε α :=
  ExceptT.mk fun log => (answer, log ++ [q])

/-- The same answers, with every question written down. -/
def SymbolIndex.asking {ε : Type} (index : SymbolIndex (Except ε)) : SymbolIndex (Asking ε) where
  qualified name scope := ask (.qualified name scope) (index.qualified name scope)
  simple name scope := ask (.simple name scope) (index.simple name scope)
  names := ask .names index.names
  units fileName := ask (.units fileName) (index.units fileName)
  inUnit unit := ask (.inUnit unit) (index.inUnit unit)

/-! ## Stages -/

section Stages

variable {ε α β : Type}

/-- Questions, and what they come to. -/
structure Stage (ε : Type) where
  questions : List Question
  found : Except ε (List Declaration)

/-- A stage decides if it finds something or fails. -/
def Stage.decides (s : Stage ε) : Bool :=
  match s.found with
  | .ok [] => false
  | _ => true

/-- A stage that does not decide finds nothing, and does not fail. -/
theorem Stage.decides_eq_false_iff (s : Stage ε) : s.decides = false ↔ s.found = .ok [] := by
  unfold Stage.decides
  split
  · next h => simp [h]
  · next h => simpa using h

/-- What the first stage that decides has found. -/
def firstFound : List (Stage ε) → Except ε (List Declaration)
  | [] => .ok []
  | s :: rest => if s.decides then s.found else firstFound rest

/-- The questions up to the first stage that decides. -/
def asked : List (Stage ε) → List Question
  | [] => []
  | s :: rest => s.questions ++ if s.decides then [] else asked rest

/-- What an answer contributes, nothing if there is none. -/
def contribution : Except ε (List α) → List α
  | .ok xs => xs
  | .error _ => []

/-- The values up to the first for which there is no answer, that one included. -/
def upToFailure (answer : α → Except ε β) : List α → List α
  | [] => []
  | x :: rest =>
    match answer x with
    | .ok _ => x :: upToFailure answer rest
    | .error _ => [x]

variable (index : SymbolIndex (Except ε)) (name : String)

/-- The declaration with the full name, if the name has a dot. -/
def exactStage : Stage ε :=
  if '.' ∈ name.toList then
    ⟨[.qualified name .all], (index.qualified name .all).map Option.toList⟩
  else ⟨[], .ok []⟩

/-- The declarations with the simple name. -/
def simpleStage : Stage ε := ⟨[.simple name .all], index.simple name .all⟩

/-- The source files called after the name. -/
def unitsFor (ending : String) : List SourceUnit := contribution (index.units (name ++ ending))

/-- The declarations of the name in source files called after it. -/
def unitStage : Stage ε where
  questions := sourceEndings.flatMap fun ending =>
    .units (name ++ ending) :: (unitsFor index name ending).map .inUnit
  found := .ok <| sourceEndings.flatMap fun ending =>
    ((unitsFor index name ending).flatMap fun unit => contribution (index.inUnit unit)).filter
      (·.name == name)

/-- The names of which another is a part, whatever the case. -/
def namesAround (names : List String) : List String :=
  names.filter fun n => (toLowercase name).toList <:+: (toLowercase n).toList

/-- The declarations of the project that have one of these names. -/
def inProject (n : String) : Except ε (List Declaration) := index.simple n .project

/-- The declarations of the project of whose name this is a part. -/
def partStage : Stage ε :=
  match index.names with
  | .error e => ⟨[.names], .error e⟩
  | .ok names =>
    ⟨.names :: (upToFailure (inProject index) (namesAround name names)).map (.simple · .project),
      ((namesAround name names).mapM (inProject index)).map List.flatten⟩

/-- The stages for a name. -/
def stagesFor : List (Stage ε) :=
  [exactStage index name, simpleStage index name, unitStage index name, partStage index name]

/-- The stages for an input. If nothing is left of it there are none. -/
def stagesOf (input : String) : List (Stage ε) :=
  let name := (NameQuery.parse input).base
  if name = "" then [] else stagesFor index name

end Stages

/-! ## Declarations in order -/

section InOrder

variable {d : Declaration} {ds : List Declaration}

/-- Declarations in the order of their full names, of each name the first among those given. -/
structure FirstsInOrder (given sorted : List Declaration) : Prop where
  ascending : sorted.Pairwise (·.qualname < ·.qualname)
  firsts : ∀ d, d ∈ sorted ↔ given.find? (·.qualname == d.qualname) = some d

/-- A declaration is put in unless there is one of its name. -/
theorem mem_insertByName {e : Declaration} (h : ds.Pairwise (·.qualname < ·.qualname)) :
    e ∈ insertByName d ds ↔ e ∈ ds ∨ e = d ∧ ∀ f ∈ ds, f.qualname ≠ d.qualname := by
  induction ds with
  | nil => simp [insertByName]
  | cons f rest ih =>
    obtain ⟨hf, hrest⟩ := List.pairwise_cons.mp h
    unfold insertByName
    split
    · next heq => simp [heq]
    · next hne =>
      split
      · next hlt =>
        -- all that follow have greater names
        have hnone : ∀ g ∈ rest, g.qualname ≠ d.qualname := by
          intro g hg heq
          exact String.lt_irrefl _ (heq ▸ String.lt_trans hlt (hf g hg))
        rw [List.mem_cons]
        simp only [List.forall_mem_cons, and_iff_left hnone, and_iff_left (Ne.symm hne)]
        exact or_comm
      · rw [List.mem_cons, ih hrest, List.mem_cons, List.forall_mem_cons,
          and_iff_right (Ne.symm hne), or_assoc]

/-- A declaration is put in at its place. -/
theorem ascending_insertByName (d : Declaration) (h : ds.Pairwise (·.qualname < ·.qualname)) :
    (insertByName d ds).Pairwise (·.qualname < ·.qualname) := by
  induction ds with
  | nil => exact List.pairwise_singleton _ d
  | cons f rest ih =>
    obtain ⟨hf, hrest⟩ := List.pairwise_cons.mp h
    unfold insertByName
    split
    · exact h
    · next hne =>
      split
      · next hlt =>
        refine List.pairwise_cons.mpr ⟨?_, h⟩
        rintro g hg
        rcases List.mem_cons.mp hg with rfl | hg
        · exact hlt
        · exact String.lt_trans hlt (hf g hg)
      · next hge =>
        have hfd : f.qualname < d.qualname :=
          Std.lt_of_le_of_ne (String.not_lt.mp hge) (Ne.symm hne)
        refine List.pairwise_cons.mpr ⟨?_, ih hrest⟩
        intro g hg
        rcases (mem_insertByName hrest).mp hg with hg | ⟨rfl, -⟩
        · exact hf g hg
        · exact hfd

/-- The first declaration of a name among those and one more. -/
theorem find?_append_singleton {given : List Declaration} {d e : Declaration} :
    (given ++ [d]).find? (·.qualname == e.qualname) = some e ↔
      given.find? (·.qualname == e.qualname) = some e ∨
        e = d ∧ ∀ f ∈ given, f.qualname ≠ d.qualname := by
  rw [List.find?_append]
  cases hfind : given.find? (·.qualname == e.qualname) with
  | none =>
    rw [List.find?_eq_none] at hfind
    simp only [beq_iff_eq] at hfind
    simp only [Option.none_or, reduceCtorEq, false_or]
    constructor
    · intro h
      have hed : d = e := List.mem_singleton.mp (List.mem_of_find?_eq_some h) |>.symm
      exact ⟨hed.symm, hed ▸ hfind⟩
    · rintro ⟨rfl, -⟩
      simp
  | some f =>
    have hf := List.mem_of_find?_eq_some hfind
    have hname : f.qualname = e.qualname := by simpa using List.find?_some hfind
    simp only [Option.some_or, Option.some.injEq]
    constructor
    · exact Or.inl
    · rintro (h | ⟨rfl, hnone⟩)
      · exact h
      · exact absurd hname (hnone f hf)

/-- One declaration more. -/
theorem FirstsInOrder.insert {given sorted : List Declaration} (h : FirstsInOrder given sorted)
    (d : Declaration) : FirstsInOrder (given ++ [d]) (insertByName d sorted) where
  ascending := ascending_insertByName d h.ascending
  firsts := by
    intro e
    have hnames : (∀ f ∈ sorted, f.qualname ≠ d.qualname) ↔
        ∀ f ∈ given, f.qualname ≠ d.qualname := by
      constructor
      · intro hnone f hf heq
        -- the first of that name stands among the sorted ones
        have hsome : (given.find? (·.qualname == d.qualname)).isSome :=
          List.find?_isSome.mpr ⟨f, hf, by simpa using heq⟩
        obtain ⟨g, hg⟩ := Option.isSome_iff_exists.mp hsome
        have hgname : g.qualname = d.qualname := by simpa using List.find?_some hg
        rw [← hgname] at hg
        exact hnone g ((h.firsts g).mpr hg) hgname
      · intro hnone f hf
        exact hnone f (List.mem_of_find?_eq_some ((h.firsts f).mp hf))
    rw [mem_insertByName h.ascending, find?_append_singleton, h.firsts, hnames]

/-- Declarations are put in order, of each name the first. -/
theorem firstsInOrder_sortByName (ds : List Declaration) : FirstsInOrder ds (sortByName ds) := by
  -- the fold keeps the invariant for all that were put in so far
  have hfold : ∀ given sorted, FirstsInOrder given sorted →
      FirstsInOrder (given ++ ds) (ds.foldl (fun sorted d => insertByName d sorted) sorted) := by
    induction ds with
    | nil =>
      intro given sorted h
      rwa [List.append_nil]
    | cons d rest ih =>
      intro given sorted h
      have := ih (given ++ [d]) (insertByName d sorted) (h.insert d)
      rwa [List.append_assoc] at this
  exact hfold [] [] ⟨List.Pairwise.nil, by simp⟩

end InOrder

/-! ## What steps come to -/

/-- A way to see what steps come to and which questions they ask on the way. -/
structure Observation (ε : Type) (m : Type → Type) [Monad m] [MonadExceptOf ε m] where
  Sees : {α : Type} → m α → Except ε α → List Question → Prop
  pure : ∀ {α : Type} (a : α), Sees (pure a) (.ok a) []
  bind : ∀ {α β : Type} {x : m α} {next : α → m β} {a : α} {outcome : Except ε β}
    {qs more : List Question}, Sees x (.ok a) qs → Sees (next a) outcome more →
      Sees (x >>= next) outcome (qs ++ more)
  bind_error : ∀ {α β : Type} {x : m α} {next : α → m β} {e : ε} {qs : List Question},
    Sees x (.error e) qs → Sees (x >>= next) (.error e) qs
  catch_ok : ∀ {α : Type} {x : m α} {handle : ε → m α} {a : α} {qs : List Question},
    Sees x (.ok a) qs → Sees (tryCatchThe ε x handle) (.ok a) qs
  catch_error : ∀ {α : Type} {x : m α} {handle : ε → m α} {e : ε} {outcome : Except ε α}
    {qs more : List Question}, Sees x (.error e) qs → Sees (handle e) outcome more →
      Sees (tryCatchThe ε x handle) outcome (qs ++ more)

namespace Observation

/-- Of steps that only come to something any questions may be said to be asked. -/
def plain (ε : Type) : Observation ε (Except ε) where
  Sees x outcome _ := x = outcome
  pure _ := rfl
  bind := by
    rintro _ _ _ next a _ _ _ rfl hnext
    exact hnext
  bind_error := by
    rintro _ _ _ _ e _ rfl
    rfl
  catch_ok := by
    rintro _ _ _ a _ rfl
    rfl
  catch_error := by
    rintro _ _ handle e _ _ _ rfl hhandle
    exact hhandle

/-- Of steps that write down what is asked, what they add to the record. -/
def written (ε : Type) : Observation ε (Asking ε) where
  Sees x outcome qs := ∀ log, x.run.run log = (outcome, log ++ qs)
  pure := by
    intro _ a log
    rw [List.append_nil]
    rfl
  bind := by
    intro _ _ x next a outcome qs more hx hnext log
    show StateT.run (x.run >>= ExceptT.bindCont next) log = _
    rw [StateT.run_bind, hx, ← List.append_assoc]
    exact hnext _
  bind_error := by
    intro _ _ x next e qs hx log
    show StateT.run (x.run >>= ExceptT.bindCont next) log = _
    rw [StateT.run_bind, hx]
    rfl
  catch_ok := by
    intro _ x handle a qs hx log
    have hrun : StateT.run x log = (.ok a, log ++ qs) := hx log
    show StateT.run (ExceptT.tryCatch x handle).run log = _
    unfold ExceptT.tryCatch
    rw [ExceptT.run_mk, StateT.run_bind, hrun]
    rfl
  catch_error := by
    intro _ x handle e outcome qs more hx hhandle log
    have hrun : StateT.run x log = (.error e, log ++ qs) := hx log
    show StateT.run (ExceptT.tryCatch x handle).run log = _
    unfold ExceptT.tryCatch
    rw [ExceptT.run_mk, StateT.run_bind, hrun, ← List.append_assoc]
    exact hhandle _

section Steps

variable {ε α β : Type} {m : Type → Type} [Monad m] [LawfulMonad m] [MonadExceptOf ε m]
  (o : Observation ε m)

include o

omit [LawfulMonad m] in
/-- A last step that asks nothing. -/
theorem bind_last {x : m α} {next : α → m β} {a : α} {outcome : Except ε β} {qs : List Question}
    (h : o.Sees x (.ok a) qs) (hnext : o.Sees (next a) outcome []) :
    o.Sees (x >>= next) outcome qs := by
  have := o.bind h hnext
  rwa [List.append_nil] at this

omit [LawfulMonad m] in
/-- A look-up that need not succeed asks its question and contributes what it can. -/
theorem sees_orNothing {x : m (List α)} {outcome : Except ε (List α)} {qs : List Question}
    (h : o.Sees x outcome qs) : o.Sees (orNothing ε x) (.ok (contribution outcome)) qs := by
  cases outcome with
  | ok xs => exact o.catch_ok h
  | error e =>
    have hcaught : o.Sees (orNothing ε x) (.ok []) (qs ++ []) := o.catch_error h (o.pure [])
    rwa [List.append_nil] at hcaught

/-- Steps for each of some values, of which none fails. -/
theorem sees_mapM_ok (xs : List α) {step : α → m β} {value : α → β} {qs : α → List Question}
    (h : ∀ x ∈ xs, o.Sees (step x) (.ok (value x)) (qs x)) :
    o.Sees (xs.mapM step) (.ok (xs.map value)) (xs.flatMap qs) := by
  induction xs with
  | nil => exact o.pure []
  | cons x xs ih =>
    have hrest := ih fun y hy => h y (List.mem_cons_of_mem x hy)
    rw [List.mapM_cons, List.flatMap_cons]
    exact o.bind (h x List.mem_cons_self) (o.bind_last hrest (o.pure _))

/-- A question for each of some values, up to the first that fails. -/
theorem sees_mapM (xs : List α) {step : α → m β} (answer : α → Except ε β) {q : α → Question}
    (h : ∀ x, o.Sees (step x) (answer x) [q x]) :
    o.Sees (xs.mapM step) (xs.mapM answer) ((upToFailure answer xs).map q) := by
  induction xs with
  | nil => exact o.pure []
  | cons x xs ih =>
    have hx := h x
    rw [List.mapM_cons, List.mapM_cons]
    unfold upToFailure
    cases hanswer : answer x with
    | error e =>
      rw [hanswer] at hx
      exact o.bind_error hx
    | ok y =>
      rw [hanswer] at hx
      rw [List.map_cons, ← List.singleton_append]
      refine o.bind hx ?_
      cases hrest : xs.mapM answer with
      | error e =>
        rw [hrest] at ih
        exact o.bind_error ih
      | ok ys =>
        rw [hrest] at ih
        exact o.bind_last ih (o.pure _)

/-! ## The stages of a resolution -/

/-- The look-ups of one index are seen to have the answers of the other. -/
structure SeesIndex (seen : SymbolIndex m) (index : SymbolIndex (Except ε)) : Prop where
  qualified : ∀ name scope,
    o.Sees (seen.qualified name scope) (index.qualified name scope) [.qualified name scope]
  simple : ∀ name scope,
    o.Sees (seen.simple name scope) (index.simple name scope) [.simple name scope]
  names : o.Sees seen.names index.names [.names]
  units : ∀ fileName, o.Sees (seen.units fileName) (index.units fileName) [.units fileName]
  inUnit : ∀ unit, o.Sees (seen.inUnit unit) (index.inUnit unit) [.inUnit unit]

variable {o} {seen : SymbolIndex m} {index : SymbolIndex (Except ε)} {name : String}
  {rest : List (Stage ε)} {next : m (List Declaration)}

omit o in
/-- Whether one text is a part of another. -/
theorem occursIn_iff {part text : List Char} : occursIn part text = true ↔ part <:+: text := by
  induction text with
  | nil => simp [occursIn]
  | cons c text ih =>
    unfold occursIn
    rw [Bool.or_eq_true, ih, List.isPrefixOf_iff_prefix, List.infix_cons_iff]

/-- The search in source files called after the name is the third stage. -/
theorem sees_units (h : o.SeesIndex seen index) (name : String) :
    o.Sees (inUnitsNamed ε seen name) (unitStage index name).found
      (unitStage index name).questions := by
  have hunit : ∀ unit, o.Sees (orNothing ε (seen.inUnit unit))
      (.ok (contribution (index.inUnit unit))) [.inUnit unit] :=
    fun unit => o.sees_orNothing (h.inUnit unit)
  -- the questions for one ending, and what they contribute
  have hending : ∀ ending, o.Sees (do
      let units ← orNothing ε (seen.units (name ++ ending))
      let decls ← units.mapM fun unit => orNothing ε (seen.inUnit unit)
      return decls.flatten.filter (·.name == name))
      (.ok (((unitsFor index name ending).flatMap fun unit =>
        contribution (index.inUnit unit)).filter (·.name == name)))
      (.units (name ++ ending) :: (unitsFor index name ending).map .inUnit) := by
    intro ending
    refine o.bind (o.sees_orNothing (h.units (name ++ ending))) ?_
    have hunits := o.sees_mapM_ok (unitsFor index name ending) fun unit _ => hunit unit
    rw [← List.map_eq_flatMap] at hunits
    rw [List.flatMap_def]
    exact o.bind_last hunits (o.pure _)
  refine o.bind_last (o.sees_mapM_ok _ fun ending _ => hending ending) ?_
  rw [← List.flatMap_def]
  exact o.pure _

/-- The search by parts of names is the last stage. -/
theorem sees_part (h : o.SeesIndex seen index) (name : String) :
    o.Sees (byPartOfName seen name) (partStage index name).found
      (partStage index name).questions := by
  have hnames := h.names
  unfold byPartOfName partStage
  cases hindex : index.names with
  | error e =>
    rw [hindex] at hnames
    exact o.bind_error hnames
  | ok names =>
    rw [hindex] at hnames
    -- the test of each name says that one text is a part of the other
    have haround : (names.filter fun n =>
        occursIn (toLowercase name).toList (toLowercase n).toList) = namesAround name names := by
      apply List.filter_congr
      intro n _
      rw [Bool.eq_iff_iff, occursIn_iff, decide_eq_true_iff]
    have hfound := o.sees_mapM (q := (.simple · .project)) (namesAround name names)
      (inProject index) fun n => h.simple n .project
    dsimp only
    rw [← List.singleton_append]
    refine o.bind hnames ?_
    rw [haround]
    cases hmap : (namesAround name names).mapM (inProject index) with
    | error e =>
      rw [hmap] at hfound
      exact o.bind_error hfound
    | ok found =>
      rw [hmap] at hfound
      exact o.bind_last hfound (o.pure _)

omit [LawfulMonad m] in
/-- A stage that decides ends the search, another hands it on. -/
theorem sees_stage {s : Stage ε} {x : m (List Declaration)} (hx : o.Sees x s.found s.questions)
    (hnext : o.Sees next ((firstFound rest).map sortByName) (asked rest)) :
    o.Sees (do
        let found ← x
        if !found.isEmpty then return sortByName found else next)
      ((firstFound (s :: rest)).map sortByName) (asked (s :: rest)) := by
  unfold firstFound asked Stage.decides
  cases hfound : s.found with
  | error e =>
    rw [hfound] at hx
    dsimp only
    rw [if_pos rfl, if_pos rfl, List.append_nil]
    exact o.bind_error hx
  | ok found =>
    rw [hfound] at hx
    cases found with
    | nil => exact o.bind hx hnext
    | cons d ds => exact o.bind hx (o.pure _)

omit [LawfulMonad m] in
/-- The last stage has nothing to hand on to. -/
theorem sees_lastStage {s : Stage ε} {x : m (List Declaration)}
    (hx : o.Sees x s.found s.questions) :
    o.Sees (do return sortByName (← x)) ((firstFound [s]).map sortByName) (asked [s]) := by
  have hfirst : firstFound [s] = s.found := by
    unfold firstFound firstFound
    split
    · rfl
    · next h => exact (s.decides_eq_false_iff.mp (Bool.eq_false_iff.mpr h)).symm
  have hasked : asked [s] = s.questions := by simp [asked]
  rw [hfirst, hasked]
  cases hfound : s.found with
  | error e =>
    rw [hfound] at hx
    exact o.bind_error hx
  | ok found =>
    rw [hfound] at hx
    exact o.bind_last hx (o.pure _)

omit [LawfulMonad m] in
/-- The first stage asks for one declaration. -/
theorem sees_exactStage (h : o.SeesIndex seen index) (hdot : '.' ∈ name.toList)
    (hnext : o.Sees next ((firstFound rest).map sortByName) (asked rest)) :
    o.Sees (do
        let found ← seen.qualified name .all
        if let some d := found then return [d] else next)
      ((firstFound (exactStage index name :: rest)).map sortByName)
      (asked (exactStage index name :: rest)) := by
  have hx := h.qualified name .all
  unfold firstFound asked Stage.decides exactStage
  rw [if_pos hdot]
  cases hfound : index.qualified name .all with
  | error e =>
    rw [hfound] at hx
    exact o.bind_error hx
  | ok found =>
    rw [hfound] at hx
    cases found with
    | none => exact o.bind hx hnext
    | some d => exact o.bind hx (o.pure _)

/-- The stages decide what a resolution finds and what it asks. -/
theorem sees_resolveAll (h : o.SeesIndex seen index) (input : String) :
    o.Sees (resolveAll ε seen input) ((firstFound (stagesOf index input)).map sortByName)
      (asked (stagesOf index input)) := by
  unfold resolveAll stagesOf
  dsimp only
  generalize (NameQuery.parse input) = query
  split
  · exact o.pure []
  · unfold stagesFor
    -- from the last stage to the first
    have hlast := sees_lastStage (sees_part h query.base)
    have hunits := sees_stage (sees_units h query.base) hlast
    have hlater := sees_stage (s := simpleStage index query.base) (h.simple query.base .all) hunits
    split
    · next hdot => exact sees_exactStage h (by simpa [NameQuery.isQualified] using hdot) hlater
    · next hdot =>
      have hnone : exactStage index query.base = ⟨[], .ok []⟩ :=
        if_neg (by simpa [NameQuery.isQualified] using hdot)
      rw [hnone]
      exact o.bind (o.pure none) hlater

end Steps

end Observation

/-! ## Failing look-ups -/

section Failing

variable {ε α β : Type} {index : SymbolIndex (Except ε)} {name : String}

@[simp] theorem not_failed_ok (a : α) : ¬ Failed (.ok a : Except ε α) := by
  rintro ⟨e, h⟩
  cases h

@[simp] theorem failed_error (e : ε) : Failed (.error e : Except ε α) := ⟨e, rfl⟩

/-- What is made of an outcome fails if the outcome does. -/
theorem failed_map_iff (f : α → β) {outcome : Except ε α} :
    Failed (outcome.map f) ↔ Failed outcome := by
  cases outcome with
  | ok a => simp [Except.map]
  | error e => simp [Except.map]

/-- Questions for each of some values fail if one up to the first failure fails. -/
theorem failed_mapM_iff {answer : α → Except ε β} {xs : List α} :
    Failed (xs.mapM answer) ↔ ∃ x ∈ upToFailure answer xs, Failed (answer x) := by
  induction xs with
  | nil => simp [upToFailure, pure, Except.pure]
  | cons x xs ih =>
    rw [List.mapM_cons]
    unfold upToFailure
    cases hx : answer x with
    | error e => simp [hx, bind, Except.bind]
    | ok y =>
      have hrest : Failed (do
          let y ← Except.ok y
          let ys ← xs.mapM answer
          return y :: ys) ↔ Failed (xs.mapM answer) := failed_map_iff (y :: ·)
      rw [hrest, ih]
      simp [hx]

/-- A stage fails exactly if one of its questions fails that has to succeed. -/
def Stage.FailsWith (index : SymbolIndex (Except ε)) (s : Stage ε) : Prop :=
  Failed s.found ↔ ∃ q ∈ s.questions, q.IsNeeded ∧ q.Fails index

/-- The first stage fails exactly if its question does. -/
theorem failsWith_exactStage : (exactStage index name).FailsWith index := by
  unfold Stage.FailsWith exactStage
  split
  · rw [failed_map_iff]
    simp [Question.IsNeeded, Question.Fails]
  · simp

/-- The second stage fails exactly if its question does. -/
theorem failsWith_simpleStage : (simpleStage index name).FailsWith index := by
  simp [Stage.FailsWith, simpleStage, Question.IsNeeded, Question.Fails]

/-- The third stage does not fail. -/
theorem failsWith_unitStage : (unitStage index name).FailsWith index := by
  unfold Stage.FailsWith unitStage
  refine iff_of_false (not_failed_ok _) ?_
  -- no question about source files has to succeed
  rintro ⟨q, hq, hneeded, -⟩
  obtain ⟨ending, -, hq⟩ := List.mem_flatMap.mp hq
  rcases List.mem_cons.mp hq with rfl | hq
  · exact hneeded
  · obtain ⟨unit, -, rfl⟩ := List.mem_map.mp hq
    exact hneeded

/-- The last stage fails exactly if one of its questions does. -/
theorem failsWith_partStage : (partStage index name).FailsWith index := by
  unfold Stage.FailsWith partStage
  cases hnames : index.names with
  | error e => simp [Question.IsNeeded, Question.Fails, hnames]
  | ok names =>
    dsimp only
    rw [failed_map_iff, failed_mapM_iff]
    simp [Question.IsNeeded, Question.Fails, hnames, inProject]

/-- Every stage of a resolution fails exactly if a question fails that has to succeed. -/
theorem failsWith_of_mem_stagesOf (input : String) :
    ∀ s ∈ stagesOf index input, s.FailsWith index := by
  unfold stagesOf
  dsimp only
  split
  · exact List.forall_mem_nil _
  · exact List.forall_mem_cons.mpr ⟨failsWith_exactStage, List.forall_mem_cons.mpr
      ⟨failsWith_simpleStage, List.forall_mem_cons.mpr
        ⟨failsWith_unitStage, List.forall_mem_singleton.mpr failsWith_partStage⟩⟩⟩

/-- A search through stages fails exactly if a question that has to succeed is asked and fails. -/
theorem failed_firstFound_iff {stages : List (Stage ε)} (h : ∀ s ∈ stages, s.FailsWith index) :
    Failed (firstFound stages) ↔ ∃ q ∈ asked stages, q.IsNeeded ∧ q.Fails index := by
  induction stages with
  | nil => simp [firstFound, asked]
  | cons s rest ih =>
    have hs : s.FailsWith index := h s List.mem_cons_self
    have hrest := ih fun t ht => h t (List.mem_cons_of_mem s ht)
    unfold firstFound asked
    cases hdecides : s.decides with
    | true =>
      simp only [if_true, List.append_nil]
      exact hs
    | false =>
      -- a stage that hands on has not failed
      have hnone : ¬ ∃ q ∈ s.questions, q.IsNeeded ∧ q.Fails index := by
        intro hq
        have hfailed := hs.mpr hq
        rw [s.decides_eq_false_iff.mp hdecides] at hfailed
        exact not_failed_ok [] hfailed
      simp only [Bool.false_eq_true, if_false, hrest, List.mem_append, or_and_right, exists_or]
      rw [or_iff_right hnone]

/-- Nothing is asked behind a stage that decides. -/
theorem asked_isPrefix {s : Stage ε} (h : s.decides) (before after : List (Stage ε)) :
    asked (before ++ s :: after) <+: (before ++ [s]).flatMap (·.questions) := by
  induction before with
  | nil => simp [asked, h]
  | cons b before ih =>
    rw [List.cons_append, List.cons_append, List.flatMap_cons]
    unfold asked
    rw [List.prefix_append_right_inj]
    split
    · exact List.nil_prefix
    · exact ih

end Failing

/-! ## Resolutions -/

section Resolutions

variable {ε : Type} {index : SymbolIndex (Except ε)}

/-- A resolution finds what the first stage that decides has found, in order. -/
theorem resolveAll_eq_firstFound (index : SymbolIndex (Except ε)) (input : String) :
    resolveAll ε index input = (firstFound (stagesOf index input)).map sortByName :=
  have h : (Observation.plain ε).SeesIndex index index :=
    ⟨fun _ _ => rfl, fun _ _ => rfl, rfl, fun _ => rfl, fun _ => rfl⟩
  Observation.sees_resolveAll h input

/-- A resolution asks the questions up to the first stage that decides. -/
theorem resolveAll_asking (input : String) :
    (resolveAll ε index.asking input).run.run [] =
      (resolveAll ε index input, asked (stagesOf index input)) := by
  have h : (Observation.written ε).SeesIndex index.asking index :=
    ⟨fun _ _ _ => rfl, fun _ _ _ => rfl, fun _ => rfl, fun _ _ => rfl, fun _ _ => rfl⟩
  have hall := Observation.sees_resolveAll h input []
  rw [List.nil_append] at hall
  rw [hall, resolveAll_eq_firstFound]

/-- A resolution tells whether there are no declarations, one, or more. -/
structure Resolution.Tells (found : List Declaration) (r : Resolution) : Prop where
  notFound : r = .notFound ↔ found = []
  single : ∀ d, r = .single d ↔ found = [d]
  ambiguous : ∀ names, r = .ambiguous names ↔ 2 ≤ found.length ∧ names = found.map (·.qualname)

/-- The result of a resolution tells how many declarations were found. -/
theorem tells_ofList (found : List Declaration) : (Resolution.ofList found).Tells found := by
  cases found with
  | nil =>
    exact ⟨by simp [Resolution.ofList], by simp [Resolution.ofList], by simp [Resolution.ofList]⟩
  | cons d rest =>
    cases rest with
    | nil =>
      exact ⟨by simp [Resolution.ofList], by simp [Resolution.ofList], by simp [Resolution.ofList]⟩
    | cons e rest =>
      exact ⟨by simp [Resolution.ofList], by simp [Resolution.ofList],
        by simp [Resolution.ofList, eq_comm]⟩

/-- What a resolution tells depends on what was found only. -/
theorem resolve_eq_map (index : SymbolIndex (Except ε)) (input : String) :
    resolve ε index input = (resolveAll ε index input).map Resolution.ofList := by
  unfold resolve
  cases resolveAll ε index input with
  | error e => rfl
  | ok found => rfl

/-- A name is resolved by the first stage that finds something or fails: the result holds its
declarations in order, of each full name the first. Whether there is a result depends on the
questions asked that have to succeed, and none is asked behind the stage that decides. Of an input
that is blank nothing is asked and found. -/
theorem resolveAll_by_stages (index : SymbolIndex (Except ε)) (input : String) :
    (∀ e, firstFound (stagesOf index input) = .error e → resolveAll ε index input = .error e) ∧
    (∀ found, firstFound (stagesOf index input) = .ok found →
      ∃ sorted, resolveAll ε index input = .ok sorted ∧ FirstsInOrder found sorted) ∧
    (resolveAll ε index.asking input).run.run [] =
      (resolveAll ε index input, asked (stagesOf index input)) ∧
    (Failed (resolveAll ε index input) ↔
      ∃ q ∈ asked (stagesOf index input), q.IsNeeded ∧ q.Fails index) ∧
    (∀ before s after, stagesOf index input = before ++ s :: after → s.decides →
      asked (stagesOf index input) <+: (before ++ [s]).flatMap (·.questions)) ∧
    (∀ e, resolveAll ε index input = .error e → resolve ε index input = .error e) ∧
    ∀ found, resolveAll ε index input = .ok found →
      ∃ r, resolve ε index input = .ok r ∧ r.Tells found := by
  have hall := resolveAll_eq_firstFound index input
  have hresolve := resolve_eq_map index input
  refine ⟨?_, ?_, resolveAll_asking input, ?_, ?_, ?_, ?_⟩
  · intro e he
    rw [hall, he]
    rfl
  · intro found hfound
    exact ⟨sortByName found, by rw [hall, hfound]; rfl, firstsInOrder_sortByName found⟩
  · rw [hall, failed_map_iff]
    exact failed_firstFound_iff (failsWith_of_mem_stagesOf input)
  · intro before s after hstages hs
    rw [hstages]
    exact asked_isPrefix hs before after
  · intro e he
    rw [hresolve, he]
    rfl
  · intro found hfound
    exact ⟨Resolution.ofList found, by rw [hresolve, hfound]; rfl, tells_ofList found⟩

/-- A declaration of a project. -/
def widget : Declaration :=
  { qualname := "acme.Widget"
    name := "Widget"
    unit := { path := "acme/Widget.java", name := "Widget.java" } }

/-- An index of one declaration. -/
def widgetIndex : SymbolIndex (Except String) where
  qualified name _ := .ok (if name = widget.qualname then some widget else none)
  simple name _ := .ok (if name = widget.name then [widget] else [])
  names := .ok [widget.name]
  units fileName := .ok (if fileName = widget.unit.name then [widget.unit] else [])
  inUnit _ := .ok [widget]

/-- A blank input is a part of every name, and yet nothing is found for it. -/
theorem blank_input_finds_nothing :
    (NameQuery.parse " ").base = "" ∧
      firstFound (stagesFor widgetIndex (NameQuery.parse " ").base) = .ok [widget] ∧
      resolveAll String widgetIndex " " = .ok [] ∧
      resolve String widgetIndex " " = .ok .notFound := by
  decide

end Resolutions

end JavaAtlas
