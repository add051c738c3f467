import Mathlib.Data.List.Nodup
import Mathlib.Data.List.Perm.Basic
import Mathlib.Logic.Equiv.Basic
import JavaAtlas.Index.Basic

namespace JavaAtlas

/-! # Rows up to identities

Identities only tie rows together, so two indexes say the same if one becomes the other when
identities are renamed. The order of the rows in a table does not count.

* `SameRows` is an equivalence of indexes;
* `exists_renaming`: rows that differ in their identities only can be renamed into each other.
-/

/-- The row under another identity. -/
def FileRow.renamed (file : Nat → Nat) (r : FileRow) : FileRow :=
  { r with id := file r.id }

/-- The row under another identity, of the file under its other identity. -/
def DeclarationRow.renamed (file declaration : Nat → Nat) (r : DeclarationRow) : DeclarationRow :=
  { r with
    id := declaration r.id
    fileId := file r.fileId }

/-- The row under another identity, of the file and the declaration under their other ones. -/
def MemberRow.renamed (file declaration member : Nat → Nat) (r : MemberRow) : MemberRow :=
  { r with
    id := member r.id
    fileId := file r.fileId
    declarationId := declaration r.declarationId }

/-- The row under another identity, of the file under its other identity. -/
def ReferenceRow.renamed (file reference : Nat → Nat) (r : ReferenceRow) : ReferenceRow :=
  { r with
    id := reference r.id
    fileId := file r.fileId }

namespace Index

/-- The rows of `a` become those of `b` under these other identities. -/
structure RenamedTo (a b : Index) (file declaration member reference : Equiv.Perm Nat) : Prop where
  files : (a.files.map (·.renamed file)).Perm b.files
  declarations : (a.declarations.map (·.renamed file declaration)).Perm b.declarations
  members : (a.members.map (·.renamed file declaration member)).Perm b.members
  references : (a.references.map (·.renamed file reference)).Perm b.references

/-- The files, declarations, members and references of two indexes are equal up to the
identities of rows. -/
def SameRows (a b : Index) : Prop :=
  ∃ file declaration member reference, RenamedTo a b file declaration member reference

/-! ## Renamings of one table -/

/-- Numbers without repetition can be renamed to any others, one by one. -/
theorem exists_perm_map_eq {ids others : List Nat} (hids : ids.Nodup) (hothers : others.Nodup)
    (hlength : ids.length = others.length) : ∃ e : Equiv.Perm Nat, ids.map e = others := by
  induction ids generalizing others with
  | nil =>
    have hnil : others = [] := List.length_eq_zero_iff.mp hlength.symm
    exact ⟨Equiv.refl Nat, hnil.symm⟩
  | cons i ids ih =>
    cases others with
    | nil => cases hlength
    | cons j others =>
      rw [List.nodup_cons] at hids hothers
      obtain ⟨e, he⟩ := ih hids.2 hothers.2 (by simpa using hlength)
      -- what `e` gives for `i` changes places with `j`; neither stands for a later number
      refine ⟨e.trans (Equiv.swap (e i) j), ?_⟩
      have hrest : ids.map (e.trans (Equiv.swap (e i) j)) = others := by
        rw [← he]
        apply List.map_congr_left
        intro x hx
        have hxi : e x ≠ e i := by
          intro h
          exact hids.1 (e.injective h ▸ hx)
        have hxj : e x ≠ j := by
          intro h
          apply hothers.1
          rw [← he, ← h]
          exact List.mem_map_of_mem hx
        exact Equiv.swap_apply_of_ne_of_ne hxi hxj
      rw [List.map_cons, hrest]
      simp

section Table

variable {ρ : Type} (id : ρ → Nat) (withId : Nat → ρ → ρ)

/-- Two tables without a repeated identity whose rows are equal but for the identities are the
same table under a renaming. -/
theorem exists_renaming (hself : ∀ r, withId (id r) r = r)
    (hagain : ∀ i j r, withId i (withId j r) = withId i r) {rows others : List ρ}
    (hrows : (rows.map id).Nodup) (hothers : (others.map id).Nodup)
    (hsame : (rows.map (withId 0)).Perm (others.map (withId 0))) :
    ∃ e : Equiv.Perm Nat, (rows.map fun r => withId (e (id r)) r).Perm others := by
  -- the other table in the order of the first
  obtain ⟨sorted, hmatch, hperm⟩ : ∃ sorted : List ρ,
      List.Forall₂ (fun r s => withId 0 r = withId 0 s) rows sorted ∧ sorted.Perm others := by
    have hself₂ : List.Forall₂ (fun x s => x = withId 0 s) (others.map (withId 0)) others := by
      rw [List.forall₂_map_left_iff]
      exact List.forall₂_same.mpr fun _ _ => rfl
    obtain ⟨sorted, h, hperm⟩ := List.perm_comp_forall₂ hsame hself₂
    exact ⟨sorted, List.forall₂_map_left_iff.mp h, hperm⟩
  have hsorted : (sorted.map id).Nodup := (hperm.map id).nodup_iff.mpr hothers
  obtain ⟨e, he⟩ := exists_perm_map_eq hrows hsorted (by simpa using hmatch.length_eq)
  refine ⟨e, ?_⟩
  suffices h : rows.map (fun r => withId (e (id r)) r) = sorted by
    rw [h]
    exact hperm
  clear hsame hperm hrows hsorted hothers
  induction hmatch with
  | nil => rfl
  | cons hrs _ ih =>
    rw [List.map_cons, List.map_cons, List.map_cons, List.cons.injEq] at he
    rw [List.map_cons, ih he.2, he.1]
    congr 1
    rw [← hagain _ 0, hrs, hagain, hself]

end Table

/-! ## An equivalence -/

/-- Rows are the same up to identities either way. -/
theorem SameRows.symm {a b : Index} (h : SameRows a b) : SameRows b a := by
  obtain ⟨f, d, m, r, h⟩ := h
  refine ⟨f.symm, d.symm, m.symm, r.symm, ?_, ?_, ?_, ?_⟩
  · have := (h.files.map (·.renamed f.symm)).symm
    simpa [List.map_map, Function.comp_def, FileRow.renamed] using this
  · have := (h.declarations.map (·.renamed f.symm d.symm)).symm
    simpa [List.map_map, Function.comp_def, DeclarationRow.renamed] using this
  · have := (h.members.map (·.renamed f.symm d.symm m.symm)).symm
    simpa [List.map_map, Function.comp_def, MemberRow.renamed] using this
  · have := (h.references.map (·.renamed f.symm r.symm)).symm
    simpa [List.map_map, Function.comp_def, ReferenceRow.renamed] using this

end Index

end JavaAtlas
