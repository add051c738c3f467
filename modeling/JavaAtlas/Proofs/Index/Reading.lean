import JavaAtlas.Proofs.Index.ReferenceSearch

namespace JavaAtlas

/-! # What is read from a row

A row that is not damaged can be read, and what is read is what it holds, together with what its
file and, for a member, its declaration say.
-/

/-- A row without damage passes every check. -/
@[simp]
theorem checkDamage_nil (kinds : List Damage) : checkDamage kinds [] = .ok () := by
  have hnone : kinds.find? ([] : List Damage).contains = none := by
    rw [List.find?_eq_none]
    intro d _
    exact Bool.false_ne_true
  rw [checkDamage, hnone]

namespace IndexView

/-- The declaration of a row. -/
def declarationOf (v : IndexView) (row : DeclarationRow × FileRow) : Declaration where
  id := row.1.id
  qualname := row.1.symbol.qualname
  name := row.1.symbol.name
  kind := row.1.symbol.kind
  modifiers := row.1.symbol.modifiers
  package := row.1.package
  superclass := row.1.symbol.superclass
  interfaces := row.1.symbol.interfaces
  annotations := row.1.symbol.annotations
  outer := row.1.symbol.outer
  unit := { path := row.2.path, name := row.2.name, onDisk := v.isOnDisk row.2.path }
  origin := row.2.origin
  startLine := row.1.symbol.range.startLine
  endLine := row.1.symbol.range.endLine

/-- The member of a row. -/
def memberOf (row : MemberRow × DeclarationRow × FileRow) : Member where
  id := row.1.id
  kind := row.1.symbol.kind
  name := row.1.symbol.name
  owner := row.2.1.symbol.qualname
  type := row.1.symbol.type
  modifiers := row.1.symbol.modifiers
  params := row.1.symbol.params
  throws := row.1.symbol.throws
  annotations := row.1.symbol.annotations
  hasBody := row.1.symbol.hasBody
  hasInitializer := row.1.symbol.hasInitializer
  fileName := row.2.2.name
  startLine := row.1.symbol.range.startLine
  endLine := row.1.symbol.range.endLine

/-- An undamaged declaration is read as its row and that of its file say. -/
theorem readDeclaration_of_undamaged (v : IndexView) {row : DeclarationRow × FileRow}
    (h : row.1.damage = []) : v.readDeclaration row = .ok (v.declarationOf row) := by
  obtain ⟨d, f⟩ := row
  change d.damage = [] at h
  unfold readDeclaration
  dsimp only
  rw [h, checkDamage_nil]
  rfl

/-- An undamaged member is read as its row, its declaration and its file say. -/
theorem readMember_of_undamaged {row : MemberRow × DeclarationRow × FileRow}
    (h : row.1.damage = []) : readMember row = .ok (memberOf row) := by
  obtain ⟨m, d, f⟩ := row
  change m.damage = [] at h
  unfold readMember
  dsimp only
  rw [h, checkDamage_nil]
  rfl

/-- An undamaged reference is read as its row and that of its file say. -/
theorem readReference_of_undamaged {row : ReferenceRow × FileRow} (h : row.1.damage = []) :
    readReference row.1 row.2 = .ok (candidateOf row) := by
  unfold readReference
  rw [h, checkDamage_nil]
  rfl

/-! ## The rows that a query reads -/

/-- The rows of the declarations of a file in their order. -/
def rowsInUnit (v : IndexView) (path : String) : List (DeclarationRow × FileRow) :=
  sortByKey (fun a b => decide (a ≤ b)) (·.1.symbol.range.startByte)
    (v.declarationRows.filter fun (_, f) => f.path == path)

/-- The rows of the members of a declaration in their order. -/
def rowsOfMembers (v : IndexView) (id : Nat) : List (MemberRow × DeclarationRow × FileRow) :=
  sortByKey (fun a b => decide (a ≤ b)) (·.1.symbol.range.startByte)
    (v.memberRows.filter fun (m, _, _) => m.declarationId == id)

/-- The declarations of a file are read in their order, if none is damaged. -/
theorem inUnit_of_undamaged (v : IndexView) {path : String}
    (h : ∀ row ∈ v.rowsInUnit path, row.1.damage = []) :
    v.inUnit path = .ok ((v.rowsInUnit path).map v.declarationOf) :=
  mapM_eq_ok_map fun row hrow => readDeclaration_of_undamaged v (h row hrow)

/-- The members of a declaration are read in their order, if none is damaged. -/
theorem members_of_undamaged (v : IndexView) {d : Declaration}
    (h : ∀ row ∈ v.rowsOfMembers d.id, row.1.damage = []) :
    v.members d = .ok ((v.rowsOfMembers d.id).map memberOf) :=
  mapM_eq_ok_map fun row hrow => readMember_of_undamaged (h row hrow)

/-- References that are found are those sought. -/
theorem eq_of_candidates (v : IndexView) {m : Member} {scope : Scope} {cs : List Candidate}
    (h : v.candidates m scope = .ok cs) : cs = (v.soughtRows m scope).map candidateOf := by
  have hreadable : ∀ row ∈ v.soughtRows m scope, ∃ c, readReference row.1 row.2 = .ok c := by
    -- all candidates were read, so that each row can be
    rw [← exists_mapM_eq_ok_iff, ← candidates_eq_mapM]
    exact ⟨cs, h⟩
  exact Except.ok.inj (h.symm.trans (candidates_eq hreadable))

end IndexView

end JavaAtlas
