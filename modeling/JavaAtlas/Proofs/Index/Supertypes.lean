import Mathlib.Data.List.Chain
import Mathlib.Data.List.Nodup
import Mathlib.Data.List.Perm.Subperm
import Mathlib.Logic.Relation
import JavaAtlas.Proofs.Index.Reading

namespace JavaAtlas

/-! # Supertypes near and far

Which supertypes a name has is found by asking the index again and again, and the declarations that
answer may inherit from each other in circles, lack their supertypes, or share one name. The search
still ends, because a name is asked for at most once, and each time it is asked for the supertypes
that are still to be written out become fewer.

* `WritesSupertype`, `Inherits`: one step, and any number of steps, to a supertype;
* `Searches`: the search with its queue, without a bound;
* `searches_of_reach`: the bound that the search is given does not cut it short;
* `Searches.mem_iff`: what it has seen at the end is what can be reached;
* `outward_spec`: going outward stops only where the index leads no further;
* `ancestors_are_reached`: both for every index, whatever earlier searches have left.
-/

namespace IndexView

variable {v : IndexView}

/-! ## Steps to supertypes -/

/-- All declarations can be read. -/
def Readable (v : IndexView) : Prop := ∀ row ∈ v.declarationRows, ∃ d, v.readDeclaration row = .ok d

/-- The supertypes that a declaration writes. -/
def written (d : DeclarationRow) : List TypeRef := d.symbol.superclass.toList ++ d.symbol.interfaces

/-- A declaration with the one name writes a supertype which in its file stands for the other. -/
def WritesSupertype (v : IndexView) (name super : String) : Prop :=
  ∃ row ∈ v.declarationRows, row.1.symbol.qualname = name ∧
    ∃ t ∈ written row.1, v.typeIn t row.1.package row.2.wildcardImports = some super

/-- The one name leads to the other in any number of steps to supertypes. -/
def Inherits (v : IndexView) : String → String → Prop := Relation.ReflTransGen v.WritesSupertype

/-- A list of the names to which a name leads. -/
def ListsAncestors (v : IndexView) (name : String) (found : List String) : Prop :=
  ∀ other, other ∈ found ↔ v.Inherits name other

/-- The names for which the supertypes of a declaration stand. -/
def parentsIn (v : IndexView) (row : DeclarationRow × FileRow) : List String :=
  (written row.1).filterMap fun t => v.typeIn t row.1.package row.2.wildcardImports

/-- The names for which the supertypes of all declarations with a name stand. -/
def parents (v : IndexView) (name : String) : List String :=
  (v.declarationRows.filter (·.1.symbol.qualname == name)).flatMap v.parentsIn

/-- The parents of a type are the supertypes written in its declarations. -/
@[simp]
theorem mem_parents {name super : String} :
    super ∈ v.parents name ↔ v.WritesSupertype name super := by
  simp only [parents, parentsIn, WritesSupertype, List.mem_flatMap, List.mem_filter,
    List.mem_filterMap, beq_iff_eq, and_assoc]

/-- What is read of a declaration is what it holds. -/
theorem parentsIn_of_read {row : DeclarationRow × FileRow} {d : Declaration}
    (h : v.readDeclaration row = .ok d) :
    (d.superclass.toList ++ d.interfaces).filterMap
      (fun t => v.typeIn t d.package row.2.wildcardImports) = v.parentsIn row := by
  obtain ⟨-, -, hfields⟩ := bind_eq_ok_iff.mp h
  cases hfields
  rfl

/-- If all rows can be read, the supertypes read are the parents. -/
theorem supertypes_eq_parents (h : v.Readable) (name : String) :
    v.supertypes name = .ok (v.parents name) := by
  have hrows : (v.declarationRows.filter (·.1.symbol.qualname == name)).mapM (fun row => do
        let declaration ← v.readDeclaration row
        let written := declaration.superclass.toList ++ declaration.interfaces
        return written.filterMap fun t => v.typeIn t declaration.package row.2.wildcardImports) =
      .ok ((v.declarationRows.filter (·.1.symbol.qualname == name)).map v.parentsIn) := by
    refine mapM_eq_ok_map fun row hrow => ?_
    obtain ⟨declaration, hread⟩ := h row (List.mem_of_mem_filter hrow)
    exact bind_eq_ok_iff.mpr ⟨declaration, hread, congrArg Except.ok (parentsIn_of_read hread)⟩
  unfold parents
  rw [List.flatMap_def]
  exact bind_eq_ok_iff.mpr ⟨_, hrows, rfl⟩

/-- Supertypes that could be read are those written, also if other rows cannot be read. -/
theorem parents_of_supertypes {name : String} {supers : List String}
    (h : v.supertypes name = .ok supers) : supers = v.parents name := by
  obtain ⟨found, hfound, hflatten⟩ := bind_eq_ok_iff.mp h
  have hrows : found =
      (v.declarationRows.filter (·.1.symbol.qualname == name)).map v.parentsIn := by
    refine Except.ok.inj (hfound.symm.trans (mapM_eq_ok_map fun row hrow => ?_))
    obtain ⟨supers, hsupers⟩ := exists_mapM_eq_ok_iff.mp ⟨found, hfound⟩ row hrow
    obtain ⟨declaration, hread, -⟩ := bind_eq_ok_iff.mp hsupers
    exact bind_eq_ok_iff.mpr ⟨declaration, hread, congrArg Except.ok (parentsIn_of_read hread)⟩
  rw [parents, List.flatMap_def, ← hrows]
  exact (Except.ok.inj hflatten).symm

/-! ## The search without a bound -/

/-- A search, from a queue and the names seen so far to all names seen at its end. A name that has
been seen is passed over; of any other the supertypes are put at the end of the queue. -/
inductive Searches (v : IndexView) : List String → List String → List String → Prop where
  | done (seen : List String) : Searches v [] seen seen
  | again {name : String} {queue seen found : List String} (known : name ∈ seen)
      (rest : Searches v queue seen found) : Searches v (name :: queue) seen found
  | visit {name : String} {queue seen found supers : List String} (new : name ∉ seen)
      (read : v.supertypes name = .ok supers)
      (rest : Searches v (queue ++ supers) (name :: seen) found) :
      Searches v (name :: queue) seen found

namespace Searches

variable {queue seen found : List String}

/-- A search finds all that it has seen. -/
theorem seen_subset (s : v.Searches queue seen found) : seen ⊆ found := by
  induction s with
  | done => exact List.Subset.refl _
  | again known rest ih => exact ih
  | visit new read rest ih => exact fun name hname => ih (List.mem_cons_of_mem _ hname)

/-- A search finds all that waits in its queue. -/
theorem queue_subset (s : v.Searches queue seen found) : queue ⊆ found := by
  induction s with
  | done => exact List.nil_subset _
  | again known rest ih => exact List.cons_subset.mpr ⟨rest.seen_subset known, ih⟩
  | visit new read rest ih =>
    have hname := rest.seen_subset List.mem_cons_self
    exact List.cons_subset.mpr ⟨hname, fun other hother => ih (List.mem_append_left _ hother)⟩

/-- A search finds nothing twice. -/
theorem nodup (s : v.Searches queue seen found) (h : seen.Nodup) : found.Nodup := by
  induction s with
  | done => exact h
  | again known rest ih => exact ih h
  | visit new read rest ih => exact ih (List.nodup_cons.mpr ⟨new, h⟩)

/-- What is found was seen before, or is reached from the queue. -/
theorem inherits (s : v.Searches queue seen found) {name : String}
    (hname : name ∈ found) : name ∈ seen ∨ ∃ start ∈ queue, v.Inherits start name := by
  -- On the search: what it finds was seen before, or is above something in the queue.
  induction s with
  | done => exact .inl hname
  | again known rest ih =>
    rcases ih hname with hseen | ⟨start, hstart, hinherits⟩
    · exact .inl hseen
    · exact .inr ⟨start, List.mem_cons_of_mem _ hstart, hinherits⟩
  | @visit first queue seen found supers new read rest ih =>
    have hsupers : supers = v.parents first := parents_of_supertypes read
    rcases ih hname with hseen | ⟨start, hstart, hinherits⟩
    · rcases List.mem_cons.mp hseen with rfl | hseen
      · exact .inr ⟨name, List.mem_cons_self, .refl⟩
      · exact .inl hseen
    · rcases List.mem_append.mp hstart with hstart | hstart
      · exact .inr ⟨start, List.mem_cons_of_mem _ hstart, hinherits⟩
      · -- a supertype of the name that is visited is one step away from it
        have hstep : v.WritesSupertype first start := mem_parents.mp (hsupers ▸ hstart)
        exact .inr ⟨first, List.mem_cons_self, .head hstep hinherits⟩

/-- If the supertypes of all names seen were seen or are in the queue, those of all names found are
found. -/
theorem closed (s : v.Searches queue seen found)
    (h : ∀ name ∈ seen, ∀ super, v.WritesSupertype name super → super ∈ seen ∨ super ∈ queue) :
    ∀ name ∈ found, ∀ super, v.WritesSupertype name super → super ∈ found := by
  induction s with
  | done seen =>
    intro name hname super hstep
    rcases h name hname super hstep with hseen | hqueue
    · exact hseen
    · cases hqueue
  | again known rest ih =>
    refine ih ?_
    intro name hname super hstep
    rcases h name hname super hstep with hseen | hqueue
    · exact .inl hseen
    · rcases List.mem_cons.mp hqueue with rfl | hqueue
      · exact .inl known
      · exact .inr hqueue
  | @visit first queue seen found supers new read rest ih =>
    -- What is above the name visited is put in the queue, so nothing above it is missed.
    have hsupers : supers = v.parents first := parents_of_supertypes read
    refine ih ?_
    intro name hname super hstep
    rcases List.mem_cons.mp hname with rfl | hname
    · exact .inr (List.mem_append_right _ (hsupers ▸ mem_parents.mpr hstep))
    · rcases h name hname super hstep with hseen | hqueue
      · exact .inl (List.mem_cons_of_mem _ hseen)
      · rcases List.mem_cons.mp hqueue with rfl | hqueue
        · exact .inl List.mem_cons_self
        · exact .inr (List.mem_append_left _ hqueue)

/-- A search from one name finds what the name leads to. -/
theorem mem_iff {name : String} (s : v.Searches [name] [] found) :
    v.ListsAncestors name found := by
  intro other
  constructor
  · intro hother
    rcases s.inherits hother with hseen | ⟨start, hstart, hinherits⟩
    · cases hseen
    · rw [List.mem_singleton.mp hstart] at hinherits
      exact hinherits
  · intro hinherits
    have hclosed := s.closed (fun _ h => absurd h List.not_mem_nil)
    induction hinherits with
    | refl => exact s.queue_subset List.mem_cons_self
    | tail _ hstep ih => exact hclosed _ ih _ hstep

end Searches

/-! ## The bound of the search -/

/-- How many supertypes are written by declarations whose names have not been seen. -/
def pending (v : IndexView) (seen : List String) : Nat :=
  ((v.declarationRows.filter fun row => !seen.contains row.1.symbol.qualname).flatMap
    fun row => written row.1).length

/-- What a name puts in the queue is no longer pending when it has been seen. -/
theorem length_parents_add_pending_le {name : String} {seen : List String} (hnew : name ∉ seen) :
    (v.parents name).length + v.pending (name :: seen) ≤ v.pending seen := by
  unfold parents pending
  induction v.declarationRows with
  | nil => exact Nat.le_refl _
  | cons row rows ih =>
    have hparents : (v.parentsIn row).length ≤ (written row.1).length :=
      List.length_filterMap_le _ _
    rw [List.filter_cons, List.filter_cons, List.filter_cons, List.contains_cons]
    -- A declaration of the name is no longer pending, and it has no more supertypes than it wrote.
    by_cases hname : row.1.symbol.qualname = name
    · have hunseen : seen.contains row.1.symbol.qualname = false := by
        rw [hname, List.contains_eq_mem]
        exact decide_eq_false hnew
      simp only [hname, beq_self_eq_true, Bool.true_or, Bool.not_true, Bool.false_eq_true,
        if_true, if_false, List.flatMap_cons, List.length_append]
      rw [← hname, hunseen]
      simp only [Bool.not_false, if_true, List.flatMap_cons, List.length_append]
      rw [hname]
      omega
    · have hne : (row.1.symbol.qualname == name) = false := beq_false_of_ne hname
      rw [hne, Bool.false_or]
      cases hseen : seen.contains row.1.symbol.qualname with
      | true => simpa using ih
      | false =>
        simp only [Bool.not_false, Bool.false_eq_true, if_true, if_false, List.flatMap_cons,
          List.length_append]
        omega

/-- At the beginning no more supertypes are pending than there are. -/
theorem pending_nil_le (v : IndexView) : v.pending [] ≤ v.supertypeCount := by
  unfold pending supertypeCount declarationRows
  induction v.index.declarations with
  | nil => exact Nat.le_refl _
  | cons d rest ih =>
    -- Nothing is seen yet, so all declarations with a file are pending.
    have hall : ∀ rows : List (DeclarationRow × FileRow),
        (rows.filter fun row => !([] : List String).contains row.1.symbol.qualname) = rows := by
      intro rows
      rw [List.filter_eq_self]
      intro row _
      rfl
    rw [hall] at ih ⊢
    rw [List.filterMap_cons, List.flatMap_cons, List.length_append]
    cases v.index.fileOf? d.fileId with
    | none =>
      dsimp only [Option.map_none]
      omega
    | some f =>
      dsimp only [Option.map_some]
      rw [List.flatMap_cons, List.length_append]
      exact Nat.add_le_add_left ih _

/-- With a bound that covers the queue and all that can still come into it, a search that comes to
an end comes to its own end. -/
theorem searches_of_reach {fuel : Nat} {queue seen found : List String}
    (henough : queue.length + v.pending seen ≤ fuel) (h : v.reach fuel queue seen = .ok found) :
    v.Searches queue seen found := by
  -- On the fuel, which covers the queue and what is pending.
  induction fuel generalizing queue seen with
  | zero =>
    have hempty : queue = [] := List.eq_nil_of_length_eq_zero (by omega)
    subst hempty
    cases h
    exact .done _
  | succ fuel ih =>
    cases queue with
    | nil =>
      cases h
      exact .done _
    | cons name queue =>
      rw [List.length_cons] at henough
      unfold reach at h
      by_cases hseen : name ∈ seen
      · rw [List.contains_eq_mem, decide_eq_true hseen, if_pos rfl] at h
        exact .again hseen (ih (by omega) h)
      · rw [List.contains_eq_mem, decide_eq_false hseen, if_neg Bool.false_ne_true] at h
        obtain ⟨supers, hsupers, hrest⟩ := bind_eq_ok_iff.mp h
        have hfewer := length_parents_add_pending_le (v := v) hseen
        have hlength : (queue ++ supers).length + v.pending (name :: seen) ≤ fuel := by
          rw [parents_of_supertypes hsupers, List.length_append]
          omega
        exact .visit hseen hsupers (ih hlength hrest)

/-- If all declarations can be read, a search comes to an end. -/
theorem exists_reach (hread : v.Readable) (fuel : Nat) (queue seen : List String) :
    ∃ found, v.reach fuel queue seen = .ok found := by
  induction fuel generalizing queue seen with
  | zero =>
    cases queue with
    | nil => exact ⟨seen, rfl⟩
    | cons name queue => exact ⟨seen, rfl⟩
  | succ fuel ih =>
    cases queue with
    | nil => exact ⟨seen, rfl⟩
    | cons name queue =>
      unfold reach
      split
      · exact ih queue seen
      · obtain ⟨found, hfound⟩ := ih (queue ++ v.parents name) (name :: seen)
        exact ⟨found, bind_eq_ok_iff.mpr ⟨_, supertypes_eq_parents hread name, hfound⟩⟩

/-- All supertypes are found by a search from the type itself. -/
theorem searches_of_allSupertypes {name : String} {found : List String}
    (h : v.allSupertypes name = .ok found) : v.Searches [name] [] found := by
  have hbound := v.pending_nil_le
  refine searches_of_reach ?_ h
  rw [List.length_singleton]
  omega

/-- The search from a name ends, with all names to which it leads and each of them once. -/
theorem exists_allSupertypes (hread : v.Readable) (name : String) :
    ∃ found, v.allSupertypes name = .ok found ∧ v.Searches [name] [] found ∧
      found.Nodup ∧ v.ListsAncestors name found := by
  obtain ⟨found, hfound⟩ := exists_reach hread (v.supertypeCount + 1) [name] []
  have hsearch : v.Searches [name] [] found := searches_of_allSupertypes hfound
  exact ⟨found, hfound, hsearch, hsearch.nodup List.nodup_nil, hsearch.mem_iff⟩

/-! ## With what has been found before -/

/-- All that a cache holds of a name is to what the name leads. -/
def CacheLists (v : IndexView) (cache : SupertypeCache) : Prop :=
  ∀ name found, cache.lookup name = some found → v.ListsAncestors name found

/-- With any such cache the search has an answer, and leaves such a cache. -/
theorem CacheLists.ancestors (hread : v.Readable) {cache : SupertypeCache} (h : v.CacheLists cache)
    (name : String) : ∃ found cache', (v.ancestors name).run.run cache = (.ok found, cache') ∧
      v.ListsAncestors name found ∧ v.CacheLists cache' := by
  rw [run_ancestors]
  -- What the cache has was listed before, and what is listed now goes into it.
  cases hlookup : cache.lookup name with
  | some found => exact ⟨found, cache, rfl, h name found hlookup, h⟩
  | none =>
    obtain ⟨found, hfound, -, -, hlists⟩ := exists_allSupertypes hread name
    rw [hfound]
    refine ⟨found, (name, found) :: cache, rfl, hlists, ?_⟩
    intro other found' hother
    rw [List.lookup_cons] at hother
    split at hother
    next heq =>
      cases hother
      rw [eq_of_beq heq]
      exact hlists
    next => exact h other found' hother

/-! ## Going outward -/

/-- From each name the next one is recorded as its outer one, and no name occurs twice. -/
structure GoesOutward (v : IndexView) (chain : List String) : Prop where
  steps : chain.IsChain fun inner outer => v.outerOf? inner = some outer
  nodup : chain.Nodup

/-- The last name has no outer one, or one that has been met. -/
def EndsOutward (v : IndexView) (chain : List String) : Prop :=
  ∀ last ∈ chain.getLast?, ∀ outer, v.outerOf? last = some outer → outer ∈ chain

/-- A type with an outer type is declared. -/
theorem declared_of_outerOf? {name outer : String} (h : v.outerOf? name = some outer) :
    name ∈ v.index.declarations.map (·.symbol.qualname) := by
  obtain ⟨d, hd, -⟩ := Option.bind_eq_some_iff.mp h
  exact List.mem_map.mpr ⟨d, List.mem_of_find?_eq_some hd, eq_of_beq (List.find?_some hd :)⟩

/-- All names but the last are declared, so there are not many more than declarations. -/
theorem GoesOutward.length_le {chain : List String} {last : String}
    (h : v.GoesOutward (chain ++ [last])) : chain.length ≤ v.index.declarations.length := by
  have hnodup : chain.Nodup := (List.nodup_append.mp h.nodup).1
  have hdeclared : chain ⊆ v.index.declarations.map (·.symbol.qualname) := by
    intro name hname
    obtain ⟨before, after, rfl⟩ := List.append_of_mem hname
    have hsteps := h.steps
    rw [List.append_assoc, List.cons_append] at hsteps
    have hfrom := (List.isChain_append.mp hsteps).2.1
    cases after with
    | nil => exact declared_of_outerOf? (List.isChain_cons_cons.mp hfrom).1
    | cons next after => exact declared_of_outerOf? (List.isChain_cons_cons.mp hfrom).1
  have hlength := (hnodup.subperm hdeclared).length_le
  rwa [List.length_map] at hlength

/-- Going on outward keeps the chain met so far in front, and with as many steps as there are
declarations that it has not met it ends where the index leads no further. -/
theorem outward_spec {fuel : Nat} {before : List String} {last : String}
    (h : v.GoesOutward (before ++ [last]))
    (henough : v.index.declarations.length + 1 ≤ fuel + before.length) :
    ∃ rest, v.outward fuel last (before ++ [last]) = before ++ [last] ++ rest ∧
      v.GoesOutward (before ++ [last] ++ rest) ∧ v.EndsOutward (before ++ [last] ++ rest) := by
  -- On the fuel. The chain has no name twice, so it is no longer than there are declarations.
  induction fuel generalizing before last with
  | zero =>
    have hlength := h.length_le
    omega
  | succ fuel ih =>
    have hstops : (∀ outer, v.outerOf? last = some outer → outer ∈ before ++ [last]) →
        v.EndsOutward (before ++ [last] ++ []) := by
      intro hmet last' hlast'
      rw [List.append_nil, List.getLast?_concat, Option.mem_some] at hlast'
      rw [List.append_nil, ← hlast']
      exact hmet
    unfold outward
    cases houter : v.outerOf? last with
    | none =>
      refine ⟨[], (List.append_nil _).symm, by rwa [List.append_nil], hstops ?_⟩
      intro outer hsome
      rw [houter] at hsome
      cases hsome
    | some outer =>
      dsimp only
      by_cases hmet : outer ∈ before ++ [last]
      · rw [List.contains_eq_mem, decide_eq_true hmet, if_pos rfl]
        refine ⟨[], (List.append_nil _).symm, by rwa [List.append_nil], hstops ?_⟩
        intro outer' hsome
        rw [houter, Option.some.injEq] at hsome
        exact hsome ▸ hmet
      · have hlonger : v.GoesOutward (before ++ [last] ++ [outer]) := by
          constructor
          case steps =>
            refine List.isChain_append.mpr ⟨h.steps, List.isChain_singleton _, ?_⟩
            intro inner hinner next hnext
            rw [List.getLast?_concat, Option.mem_some] at hinner
            rw [List.head?_cons, Option.mem_some] at hnext
            rw [← hinner, ← hnext]
            exact houter
          case nodup =>
            refine List.nodup_append.mpr ⟨h.nodup, List.nodup_singleton _, ?_⟩
            intro name hname other hother heq
            rw [List.mem_singleton.mp hother] at heq
            exact hmet (heq ▸ hname)
        rw [List.contains_eq_mem, decide_eq_false hmet, if_neg Bool.false_ne_true]
        obtain ⟨rest, hrest, hgoes, hends⟩ := ih hlonger (by
          rw [List.length_append, List.length_singleton]
          omega)
        refine ⟨outer :: rest, ?_, ?_, ?_⟩
        · rw [hrest, List.append_assoc _ [outer], List.singleton_append]
        · rwa [List.append_assoc _ [outer], List.singleton_append] at hgoes
        · rwa [List.append_assoc _ [outer], List.singleton_append] at hends

/-- What a type inherits is found by following all supertypes, near and far, also in a circle. The
search from a name ends by itself, and what it lists are exactly the names that are reached from it,
each of them once. That does not depend on what earlier searches have left, as long as they have
left such lists, and it leaves such lists itself. Going outward from a name ends too, with a chain
in which every next name is the outer one of that before it, and no name occurs twice. -/
theorem ancestors_are_reached (v : IndexView) (readable : v.Readable) (name : String) :
    (∃ found, v.Searches [name] [] found ∧ v.allSupertypes name = .ok found ∧ found.Nodup ∧
      v.ListsAncestors name found) ∧
    (∀ cache, v.CacheLists cache →
      ∃ found cache', (v.ancestors name).run.run cache = (.ok found, cache') ∧
        v.ListsAncestors name found ∧ v.CacheLists cache') ∧
    ∃ outer, v.outerChain name = name :: outer ∧ v.GoesOutward (name :: outer) ∧
      v.EndsOutward (name :: outer) := by
  refine ⟨?_, fun cache hcache => hcache.ancestors readable name, ?_⟩
  · obtain ⟨found, hfound, hsearch, hnodup, hlists⟩ := exists_allSupertypes readable name
    exact ⟨found, hsearch, hfound, hnodup, hlists⟩
  · have hstart : v.GoesOutward ([] ++ [name]) :=
      ⟨List.isChain_singleton _, List.nodup_singleton _⟩
    obtain ⟨outer, houter, hgoes, hends⟩ := outward_spec hstart (Nat.le_refl _)
    exact ⟨outer, houter, hgoes, hends⟩

/-- A declaration with these supertypes, as they are written. -/
def inheriting (id fileId : Nat) (qualname : String) (interfaces : List String)
    (outer : Option String := none) : DeclarationRow where
  id := id
  fileId := fileId
  package := "p"
  symbol := { qualname, name := qualname, interfaces := interfaces.map ({ text := · }), outer }

/-- `p.A` and `p.B` inherit from each other. Another file has a second `p.A`, which inherits from
`q.I` by a wildcard import and from a type that is not there. -/
def circleView : IndexView where
  index :=
    { files := [packageFile 1 "A.java", { packageFile 2 "C.java" with wildcardImports := ["q"] }]
      declarations :=
        [inheriting 1 1 "p.A" ["B<T>"], inheriting 2 1 "p.B" ["A"], inheriting 3 1 "q.I" [],
          inheriting 4 2 "p.A" ["I", "Gone"], inheriting 5 1 "p.A.In" [] (some "p.A"),
          inheriting 6 1 "p.A.In.Deep" [] (some "p.A.In")] }
  disk := default
  root := "/"

/-- Around the circle, and through either of the two declarations. -/
theorem ancestors_are_reached_in_circle :
    circleView.Readable ∧
    (∀ name, circleView.Inherits "p.A" name ↔ name ∈ ["q.I", "p.B", "p.A"]) ∧
    circleView.GoesOutward ["p.A.In.Deep", "p.A.In", "p.A"] := by
  have hreadable : circleView.Readable := by
    have hdamage : ∀ row ∈ circleView.declarationRows, row.1.damage = [] := by decide
    intro row hrow
    exact ⟨_, readDeclaration_of_undamaged _ (hdamage row hrow)⟩
  have hfound : (circleView.allSupertypes "p.A").toOption = some ["q.I", "p.B", "p.A"] := by
    decide
  have houter : circleView.outerChain "p.A.In.Deep" = ["p.A.In.Deep", "p.A.In", "p.A"] := by
    decide
  obtain ⟨⟨found, -, hall, -, hlists⟩, -⟩ := ancestors_are_reached circleView hreadable "p.A"
  obtain ⟨-, -, outer, hchain, hgoes, -⟩ :=
    ancestors_are_reached circleView hreadable "p.A.In.Deep"
  refine ⟨hreadable, ?_, ?_⟩
  · intro name
    rw [hall] at hfound
    cases hfound
    exact (hlists name).symm
  · rwa [← hchain, houter] at hgoes

end IndexView

end JavaAtlas
