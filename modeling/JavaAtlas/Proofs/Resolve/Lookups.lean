import JavaAtlas.Proofs.Index.Supertypes
import JavaAtlas.Proofs.Resolve.Stages
import JavaAtlas.Proofs.Text.Lowercase

namespace JavaAtlas

/-! # What the look-ups of an index find

The look-ups by which names are resolved are told by the rows that they read: which rows these are,
and that what is found is what they hold. From this follows what each stage of a resolution comes
to in an index.
-/

section Stages

variable {ε : Type} {s : Stage ε} {rest : List (Stage ε)}

/-- A stage that finds nothing hands on. -/
theorem firstFound_cons_of_nil (h : s.found = .ok []) :
    firstFound (s :: rest) = firstFound rest := by
  rw [firstFound, s.decides_eq_false_iff.mpr h, if_neg Bool.false_ne_true]

/-- A stage that finds something or fails decides. -/
theorem firstFound_cons_of_ne (h : s.found ≠ .ok []) : firstFound (s :: rest) = s.found := by
  have hdecides : s.decides = true := by
    rw [← Bool.not_eq_false, s.decides_eq_false_iff]
    exact h
  rw [firstFound, if_pos hdecides]

/-- A single stage decides. -/
@[simp]
theorem firstFound_singleton : firstFound [s] = s.found := by
  by_cases h : s.found = .ok []
  · rw [firstFound_cons_of_nil h, h]
    rfl
  · exact firstFound_cons_of_ne h

/-- What is found first has been found by one of the stages. -/
theorem exists_stage_of_firstFound {stages : List (Stage ε)} {ds : List Declaration}
    (h : firstFound stages = .ok ds) (hne : ds ≠ []) : ∃ s ∈ stages, s.found = .ok ds := by
  induction stages with
  | nil =>
    cases h
    exact absurd rfl hne
  | cons s rest ih =>
    by_cases hs : s.found = .ok []
    · rw [firstFound_cons_of_nil hs] at h
      obtain ⟨t, ht, hfound⟩ := ih h
      exact ⟨t, List.mem_cons_of_mem s ht, hfound⟩
    · rw [firstFound_cons_of_ne hs] at h
      exact ⟨s, List.mem_cons_self, h⟩

end Stages

namespace IndexView

variable {v : IndexView} {row : DeclarationRow × FileRow} {d : Declaration}
  {ds : List Declaration} {q name : String} {scope : Scope}

/-- What is read from a row is what it holds. -/
theorem eq_declarationOf_of_read (h : v.readDeclaration row = .ok d) : d = v.declarationOf row := by
  obtain ⟨-, -, hread⟩ := bind_eq_ok_iff.mp h
  cases hread
  rfl

/-- In a readable index every row is read as what it holds. -/
theorem Readable.read (h : v.Readable) (hrow : row ∈ v.declarationRows) :
    v.readDeclaration row = .ok (v.declarationOf row) := by
  obtain ⟨d, hd⟩ := h row hrow
  rw [hd, eq_declarationOf_of_read hd]

/-- Some declaration has a full name. -/
def HasFullName (v : IndexView) (q : String) : Prop :=
  ∃ row ∈ v.declarationRows, row.1.symbol.qualname = q

/-- Some declaration has a simple name. -/
def HasSimpleName (v : IndexView) (name : String) : Prop :=
  ∃ row ∈ v.declarationRows, row.1.symbol.name = name

/-- The rows that are looked up are those in the scope that pass the test. -/
@[simp]
theorem mem_declarationRowsWhere {test : DeclarationRow → Bool} :
    row ∈ v.declarationRowsWhere scope test ↔
      row ∈ v.declarationRows ∧ scope.covers row.2.origin ∧ test row.1 := by
  rw [declarationRowsWhere, List.mem_filter, Bool.and_eq_true]

/-- The names that are known are those that declarations have. -/
@[simp]
theorem mem_simpleNames : name ∈ v.simpleNames ↔ v.HasSimpleName name := by
  rw [simpleNames, List.mem_eraseDups, mem_sortByKey, List.mem_map]
  rfl

/-! ## Full names -/

/-- A full name that no declaration has is not found. -/
theorem qualified_eq_none (h : ¬ v.HasFullName q) : v.qualified q .all = .ok none := by
  have hnone : v.declarationRowsWhere .all (·.symbol.qualname == q) = [] := by
    refine List.eq_nil_iff_forall_not_mem.mpr fun row hrow => h ?_
    obtain ⟨hmem, -, hname⟩ := mem_declarationRowsWhere.mp hrow
    exact ⟨row, hmem, beq_iff_eq.mp hname⟩
  rw [qualified, hnone, head?_sortByKey_eq_none_iff.mpr rfl]
  rfl

/-- A full name that some declarations have is looked up in one of their rows. -/
theorem exists_qualified (h : v.HasFullName q) :
    ∃ row ∈ v.declarationRows, row.1.symbol.qualname = q ∧
      v.qualified q .all = (v.readDeclaration row).map some := by
  obtain ⟨row, hrow, hname⟩ := h
  have hmem : row ∈ v.declarationRowsWhere .all (·.symbol.qualname == q) :=
    mem_declarationRowsWhere.mpr ⟨hrow, rfl, beq_iff_eq.mpr hname⟩
  cases hfirst : (sortByKey (fun a b => decide (a ≤ b)) (·.2.path)
      (v.declarationRowsWhere .all (·.symbol.qualname == q))).head? with
  | none =>
    -- there is a first row, since there is one
    rw [head?_sortByKey_eq_none_iff.mp hfirst] at hmem
    cases hmem
  | some first =>
    have hfirstMem := mem_sortByKey.mp (List.mem_of_head? hfirst)
    obtain ⟨hfirstRow, -, hfirstName⟩ := mem_declarationRowsWhere.mp hfirstMem
    refine ⟨first, hfirstRow, beq_iff_eq.mp hfirstName, ?_⟩
    rw [qualified, hfirst]
    dsimp only
    cases v.readDeclaration first with
    | error e => rfl
    | ok d => rfl

/-- What is found under a full name has been read from a row. -/
theorem read_of_qualified (h : v.qualified q .all = .ok (some d)) :
    ∃ row ∈ v.declarationRows, row.1.symbol.qualname = q ∧ v.readDeclaration row = .ok d := by
  by_cases hfull : v.HasFullName q
  · obtain ⟨row, hrow, hname, hqualified⟩ := exists_qualified hfull
    rw [hqualified, map_eq_ok_iff] at h
    obtain ⟨e, hread, he⟩ := h
    exact ⟨row, hrow, hname, hread.trans (congrArg _ (Option.some.inj he))⟩
  · rw [qualified_eq_none hfull] at h
    cases h

/-! ## Simple names -/

/-- Nothing is found under a simple name that no declaration has. -/
theorem simple_eq_nil (h : ¬ v.HasSimpleName name) : v.simple name scope = .ok [] := by
  have hnone : v.declarationRowsWhere scope (·.symbol.name == name) = [] := by
    refine List.eq_nil_iff_forall_not_mem.mpr fun row hrow => h ?_
    obtain ⟨hmem, -, hname⟩ := mem_declarationRowsWhere.mp hrow
    exact ⟨row, hmem, beq_iff_eq.mp hname⟩
  rw [simple, hnone, sortByKey, List.mergeSort_nil]
  rfl

/-- Under a simple name the declarations of the scope are found that have it. -/
theorem mem_simple (h : v.simple name scope = .ok ds) :
    d ∈ ds ↔ ∃ row ∈ v.declarationRows, scope.covers row.2.origin ∧ row.1.symbol.name = name ∧
      v.readDeclaration row = .ok d := by
  rw [mem_of_mapM_eq_ok h]
  simp only [mem_sortByKey, mem_declarationRowsWhere, beq_iff_eq, and_assoc]

/-- In a readable index every simple name can be looked up. -/
theorem Readable.exists_simple (h : v.Readable) (name : String) (scope : Scope) :
    ∃ ds, v.simple name scope = .ok ds := by
  refine exists_mapM_eq_ok_iff.mpr fun row hrow => h row ?_
  exact (mem_declarationRowsWhere.mp (mem_sortByKey.mp hrow)).1

/-! ## Source files -/

/-- What is found in source files is named as sought. -/
theorem read_of_mem_unitStage (h : (unitStage v.symbols name).found = .ok ds) (hd : d ∈ ds) :
    ∃ row ∈ v.declarationRows, row.1.symbol.name = name ∧ v.readDeclaration row = .ok d := by
  cases h
  obtain ⟨ending, -, hd⟩ := List.mem_flatMap.mp hd
  obtain ⟨hd, hname⟩ := List.mem_filter.mp hd
  obtain ⟨unit, -, hd⟩ := List.mem_flatMap.mp hd
  change d ∈ contribution (v.inUnit unit.path) at hd
  cases hunit : v.inUnit unit.path with
  | error e =>
    -- a source file that cannot be looked into contributes nothing
    rw [hunit] at hd
    cases hd
  | ok found =>
    rw [hunit] at hd
    obtain ⟨row, hrow, hread⟩ := (mem_of_mapM_eq_ok hunit).mp hd
    refine ⟨row, List.mem_of_mem_filter (mem_sortByKey.mp hrow), ?_, hread⟩
    rw [beq_iff_eq, eq_declarationOf_of_read hread] at hname
    exact hname

/-- In source files nothing is found under a simple name that no declaration has. -/
theorem unitStage_eq_nil (h : ¬ v.HasSimpleName name) :
    (unitStage v.symbols name).found = .ok [] := by
  refine congrArg Except.ok (List.eq_nil_iff_forall_not_mem.mpr fun d hd => h ?_)
  obtain ⟨row, hrow, hname, -⟩ := read_of_mem_unitStage rfl hd
  exact ⟨row, hrow, hname⟩

/-! ## Parts of names -/

/-- The names around a name are those of which it is a part. -/
@[simp]
theorem mem_namesAround {names : List String} {n : String} :
    n ∈ namesAround name names ↔
      n ∈ names ∧ (toLowercase name).toList <:+: (toLowercase n).toList := by
  rw [namesAround, List.mem_filter, decide_eq_true_iff]

/-- A name with a dot is no part of names without. -/
theorem namesAround_eq_nil {names : List String} (hdot : '.' ∈ name.toList)
    (hnames : ∀ n ∈ names, '.' ∉ n.toList) : namesAround name names = [] := by
  refine List.eq_nil_iff_forall_not_mem.mpr fun n hn => ?_
  obtain ⟨hmem, hpart⟩ := mem_namesAround.mp hn
  refine hnames n hmem ((dot_mem_toLowercase_iff n).mp ?_)
  exact hpart.subset ((dot_mem_toLowercase_iff name).mpr hdot)

/-! ## All stages -/

/-- Whatever is found has been read from a row. -/
theorem read_of_mem_stage {s : Stage Failure} (hs : s ∈ stagesFor v.symbols name)
    (h : s.found = .ok ds) (hd : d ∈ ds) :
    ∃ row ∈ v.declarationRows, v.readDeclaration row = .ok d := by
  simp only [stagesFor, List.mem_cons, List.not_mem_nil, or_false] at hs
  rcases hs with rfl | rfl | rfl | rfl
  · -- the full name, where the name has a dot
    unfold exactStage at h
    split at h
    · obtain ⟨found, hfound, rfl⟩ := map_eq_ok_iff.mp h
      obtain rfl := Option.mem_toList.mp hd
      obtain ⟨row, hrow, -, hread⟩ := read_of_qualified hfound
      exact ⟨row, hrow, hread⟩
    · cases h
      cases hd
  · obtain ⟨row, hrow, -, -, hread⟩ := (mem_simple h).mp hd
    exact ⟨row, hrow, hread⟩
  · obtain ⟨row, hrow, -, hread⟩ := read_of_mem_unitStage h hd
    exact ⟨row, hrow, hread⟩
  · unfold partStage at h
    change ((namesAround name v.simpleNames).mapM (v.simple · .project)).map List.flatten =
      .ok ds at h
    obtain ⟨found, hfound, rfl⟩ := map_eq_ok_iff.mp h
    obtain ⟨ds, hds, hd⟩ := List.mem_flatten.mp hd
    obtain ⟨n, -, hn⟩ := (mem_of_mapM_eq_ok hfound).mp hds
    obtain ⟨row, hrow, -, -, hread⟩ := (mem_simple hn).mp hd
    exact ⟨row, hrow, hread⟩

end IndexView

end JavaAtlas
