import JavaAtlas.Json.Parser
import JavaAtlas.Json.Printer
import JavaAtlas.Proofs.Index.Linked
import JavaAtlas.Proofs.Index.Tables

namespace JavaAtlas

/-! # What is stored is returned

When a file has been replaced, the index returns its declarations, the members of each of them and
its references as they were extracted, each with all its parts. That holds of the index and of the
tables in which it is stored.

* `Ordered`: numbered values in the order of a key;
* `Index.Sound.ownRows`: the rows of a file among those of all files;
* `Index.rowsInUnit_withFile`, `rowsOfMembers_withFile`, `ownSought_withFile`: the rows that the
  queries read, once a file has been replaced;
* `extractedDeclaration`, `extractedMember`, `extractedReference`: what they make of them;
* `Returns`: what the queries return;
* `index_returns_what_was_stored`: they do, whatever was extracted.
-/

/-- The same numbered values, by a key. -/
def Ordered {α : Type} (key : α → Int) (values order : List (α × Nat)) : Prop :=
  order.Perm values ∧ order.Pairwise fun a b => key a.1 ≤ key b.1

/-- Numbered values, by a key. -/
def byKey {α : Type} (key : α → Int) (values : List (α × Nat)) : List (α × Nat) :=
  sortByKey (fun a b => decide (a ≤ b)) (fun a => key a.1) values

/-- The rows sorted by a number are in the order of the number, and of insertion where it is equal.
-/
theorem ordered_byKey {α : Type} (key : α → Int) (values : List (α × Nat)) :
    Ordered key values (byKey key values) := by
  refine ⟨sortByKey_perm _ _ _, ?_⟩
  refine (keyOrder_int.pairwise_sortByKey (fun a : α × Nat => key a.1) values).imp ?_
  intro a b h
  exact of_decide_eq_true h

/-! ## The rows of a file -/

/-- What is made of some values, and passes a test, is made of those that pass another one. -/
theorem filter_filterMap_eq_map {α β : Type} {g : α → Option β} {h : α → β} {p : β → Bool}
    {q : α → Bool} {values : List α} (hyes : ∀ a ∈ values, q a = true → g a = some (h a) ∧ p (h a))
    (hno : ∀ a ∈ values, q a = false → ∀ b, g a = some b → p b = false) :
    (values.filterMap g).filter p = (values.filter q).map h := by
  -- On the values: each one is made and passes, or else what it makes does not pass.
  induction values with
  | nil => rfl
  | cons a values ih =>
    rw [List.forall_mem_cons] at hyes hno
    have hrest := ih hyes.2 hno.2
    cases hq : q a with
    | true =>
      obtain ⟨hmade, hpasses⟩ := hyes.1 hq
      rw [List.filterMap_cons_some hmade, List.filter_cons_of_pos hpasses, hrest,
        List.filter_cons_of_pos hq]
      rfl
    | false =>
      rw [List.filter_cons_of_neg (Bool.eq_false_iff.mp hq), ← hrest]
      cases hmade : g a with
      | none => rw [List.filterMap_cons_none hmade]
      | some b =>
        rw [List.filterMap_cons_some hmade,
          List.filter_cons_of_neg (Bool.eq_false_iff.mp (hno.1 hq b hmade))]

namespace Index

section Own

variable {ix : Index} {f : FileRow}

/-- A file is found by its identity. -/
theorem Sound.fileOf?_eq (h : ix.Sound) (hf : f ∈ ix.files) : ix.fileOf? f.id = some f :=
  (find?_key_eq_some_iff h.fileIds).mpr ⟨hf, rfl⟩

/-- Among rows with their files, those of a file are found by its path. -/
theorem Sound.ownRows {ρ : Type} (h : ix.Sound) (hf : f ∈ ix.files) (fileId : ρ → Nat)
    (rows : List ρ) :
    ((rows.filterMap fun r => (ix.fileOf? (fileId r)).map (r, ·)).filter (·.2.path == f.path)) =
      (rows.filter (fileId · == f.id)).map (·, f) := by
  apply filter_filterMap_eq_map
  · intro r _ hid
    rw [beq_iff_eq] at hid
    rw [hid, h.fileOf?_eq hf]
    exact ⟨rfl, beq_self_eq_true _⟩
  · -- A row of another file is at another path, since paths and identities tell files apart alike.
    intro r _ hid row hrow
    obtain ⟨g, hg, rfl⟩ := Option.map_eq_some_iff.mp hrow
    obtain ⟨hmem, hgid⟩ := (find?_key_eq_some_iff h.fileIds).mp hg
    rw [beq_eq_false_iff_ne]
    intro hpath
    have heq : g = f := List.inj_on_of_nodup_map h.paths hmem hf hpath
    rw [beq_eq_false_iff_ne] at hid
    exact hid (hgid.symm.trans (congrArg FileRow.id heq))

end Own

section Replaced

variable {ix : Index} {file : FileInput} {symbols : FileSymbols} {disk : Disk} {root : String}

/-- The row of a file that has been replaced. -/
def rowOf (ix : Index) (file : FileInput) (symbols : FileSymbols) : FileRow :=
  FileRow.ofInput (ix.fileIdFor file.path) file symbols

/-- The identity of its first declaration. -/
def firstDeclaration (ix : Index) (file : FileInput) : Nat :=
  freshId ((ix.declarations.filter (·.fileId != ix.fileIdFor file.path)).map (·.id))

/-- The identity of its first member. -/
def firstMember (ix : Index) (file : FileInput) : Nat :=
  freshId ((ix.members.filter (·.fileId != ix.fileIdFor file.path)).map (·.id))

/-- The identity of its first reference. -/
def firstReference (ix : Index) (file : FileInput) : Nat :=
  freshId ((ix.references.filter (·.fileId != ix.fileIdFor file.path)).map (·.id))

/-- The row of a declaration of it. -/
def declarationRowOf (ix : Index) (file : FileInput) (symbols : FileSymbols)
    (d : FileDeclaration × Nat) : DeclarationRow where
  id := ix.firstDeclaration file + d.2
  fileId := ix.fileIdFor file.path
  package := symbols.package
  symbol := d.1

/-- The row of a member of it. -/
def memberRowOf (ix : Index) (file : FileInput) (m : FileMember × Nat) : MemberRow where
  id := ix.firstMember file + m.2
  fileId := ix.fileIdFor file.path
  declarationId := ix.firstDeclaration file + m.1.declIndex
  symbol := m.1

/-- The row of a reference of it. -/
def referenceRowOf (ix : Index) (file : FileInput) (r : FileReference × Nat) : ReferenceRow where
  id := ix.firstReference file + r.2
  fileId := ix.fileIdFor file.path
  symbol := r.1

/-- The row of a file that is stored is in the index. -/
theorem rowOf_mem (h : ix.Sound) : ix.rowOf file symbols ∈ (ix.withFile file symbols).files :=
  (mem_files_withFile h).mpr (.inl rfl)

/-- The declarations stored for a file are those given, in their order. -/
theorem declarations_withFile : (ix.withFile file symbols).declarations.filter
    (·.fileId == ix.fileIdFor file.path) =
      symbols.declarations.zipIdx.map (ix.declarationRowOf file symbols) :=
  (filter_replaced DeclarationRow.fileId _ (fun _ => fileId_of_mem_addedDeclarations) _).trans
    (if_pos rfl)

/-- The members stored for a file are those given, in their order. -/
theorem members_withFile : (ix.withFile file symbols).members.filter
    (·.fileId == ix.fileIdFor file.path) = symbols.members.zipIdx.map (ix.memberRowOf file) :=
  (filter_replaced MemberRow.fileId _ (fun _ => fileId_of_mem_addedMembers) _).trans (if_pos rfl)

/-- The references stored for a file are those given, in their order. -/
theorem references_withFile : (ix.withFile file symbols).references.filter
    (·.fileId == ix.fileIdFor file.path) = symbols.references.zipIdx.map (ix.referenceRowOf file) :=
  (filter_replaced ReferenceRow.fileId _ (fun _ => fileId_of_mem_addedReferences) _).trans
    (if_pos rfl)

/-- The rows of the declarations of a file that has been replaced. -/
theorem rowsInUnit_withFile (h : ix.Linked)
    (howned : ∀ m ∈ symbols.members, m.declIndex < symbols.declarations.length) :
    IndexView.rowsInUnit ⟨ix.withFile file symbols, disk, root⟩ file.path =
      (byKey (·.range.startByte) symbols.declarations.zipIdx).map fun d =>
        (ix.declarationRowOf file symbols d, ix.rowOf file symbols) := by
  have hsound : (ix.withFile file symbols).Sound := (h.withFile howned).toSound
  have hown := hsound.ownRows (rowOf_mem h.toSound) DeclarationRow.fileId
    (ix.withFile file symbols).declarations
  have hdeclarations : (ix.withFile file symbols).declarations.filter
      (·.fileId == (ix.rowOf file symbols).id) =
      symbols.declarations.zipIdx.map (ix.declarationRowOf file symbols) := declarations_withFile
  rw [hdeclarations, List.map_map] at hown
  have hsorted : sortByKey (fun a b => decide (a ≤ b))
      (fun row : DeclarationRow × FileRow => row.1.symbol.range.startByte)
      (symbols.declarations.zipIdx.map fun d =>
        (ix.declarationRowOf file symbols d, ix.rowOf file symbols)) =
      (byKey (·.range.startByte) symbols.declarations.zipIdx).map fun d =>
        (ix.declarationRowOf file symbols d, ix.rowOf file symbols) :=
    sortByKey_map (fun _ _ => rfl) _
  rw [← hsorted]
  exact congrArg _ hown

/-- The row of the declaration with a number. -/
theorem declarationRowOf_mem {i : Nat} {d : FileDeclaration}
    (hd : symbols.declarations[i]? = some d) :
    ix.declarationRowOf file symbols (d, i) ∈ (ix.withFile file symbols).declarations := by
  have hmem : (d, i) ∈ symbols.declarations.zipIdx := List.mem_zipIdx_iff_getElem?.mpr hd
  have hown : ix.declarationRowOf file symbols (d, i) ∈
      (ix.withFile file symbols).declarations.filter (·.fileId == ix.fileIdFor file.path) := by
    rw [declarations_withFile]
    exact List.mem_map_of_mem hmem
  exact List.mem_of_mem_filter hown

/-- Of the members, those of a declaration of it are the ones that name it. -/
theorem membersOf_withFile (i : Nat) : (ix.withFile file symbols).members.filter (fun m =>
    m.declarationId == ix.firstDeclaration file + i && m.fileId == ix.fileIdFor file.path) =
      (symbols.members.zipIdx.filter (·.1.declIndex == i)).map (ix.memberRowOf file) := by
  have htest : (fun m : MemberRow => m.declarationId == ix.firstDeclaration file + i) ∘
      ix.memberRowOf file = (·.1.declIndex == i) := by
    funext m
    have hnumber : ix.firstDeclaration file + m.1.declIndex = ix.firstDeclaration file + i ↔
        m.1.declIndex = i := Nat.add_left_cancel_iff
    rw [Bool.eq_iff_iff, beq_iff_eq, ← hnumber]
    exact beq_iff_eq
  rw [← List.filter_filter, members_withFile, List.filter_map, htest]

/-- Joined with their declaration and file, the members of a declaration of it are rows of it. -/
theorem joinedMembers_withFile (h : ix.Linked)
    (howned : ∀ m ∈ symbols.members, m.declIndex < symbols.declarations.length) {i : Nat}
    {d : FileDeclaration} (hd : symbols.declarations[i]? = some d) :
    (IndexView.memberRows ⟨ix.withFile file symbols, disk, root⟩).filter
      (·.1.declarationId == ix.firstDeclaration file + i) =
      ((ix.withFile file symbols).members.filter fun m =>
        m.declarationId == ix.firstDeclaration file + i &&
          m.fileId == ix.fileIdFor file.path).map fun m =>
            (m, ix.declarationRowOf file symbols (d, i), ix.rowOf file symbols) := by
  have hsound : (ix.withFile file symbols).Sound := (h.withFile howned).toSound
  -- the declaration is found by its identity, whatever other files have
  have howner : ∀ row ∈ (ix.withFile file symbols).declarations,
      row.id = ix.firstDeclaration file + i → row = ix.declarationRowOf file symbols (d, i) :=
    fun row hrow hid => List.inj_on_of_nodup_map hsound.declarationIds hrow
      (declarationRowOf_mem hd) hid
  apply filter_filterMap_eq_map
  · intro m _ hm
    rw [Bool.and_eq_true, beq_iff_eq, beq_iff_eq] at hm
    have hdeclaration : (ix.withFile file symbols).declarations.find?
        (·.id == m.declarationId) = some (ix.declarationRowOf file symbols (d, i)) :=
      (find?_key_eq_some_iff hsound.declarationIds).mpr ⟨declarationRowOf_mem hd, hm.1.symm⟩
    have hfile : (ix.withFile file symbols).fileOf? m.fileId = some (ix.rowOf file symbols) := by
      rw [hm.2]
      exact hsound.fileOf?_eq (rowOf_mem h.toSound)
    refine ⟨?_, by rw [hm.1]; exact beq_self_eq_true _⟩
    dsimp only
    rw [hdeclaration, hfile]
    rfl
  · intro m hmem hm row hrow
    -- a member of this declaration is of its file
    obtain ⟨owner, howned, hjoin⟩ := Option.bind_eq_some_iff.mp hrow
    obtain ⟨f, -, hjoin⟩ := Option.bind_eq_some_iff.mp hjoin
    cases hjoin
    rw [beq_eq_false_iff_ne]
    intro hid
    obtain ⟨owner', howner', hid', hfile⟩ := hsound.memberOwners m hmem
    have heq := howner owner' howner' (hid'.trans hid)
    rw [heq] at hfile
    rw [Bool.and_eq_false_iff, beq_eq_false_iff_ne, beq_eq_false_iff_ne] at hm
    rcases hm with hm | hm
    · exact hm hid
    · exact hm hfile.symm

/-- The rows of the members of a declaration of it. -/
theorem rowsOfMembers_withFile (h : ix.Linked)
    (howned : ∀ m ∈ symbols.members, m.declIndex < symbols.declarations.length) {i : Nat}
    {d : FileDeclaration} (hd : symbols.declarations[i]? = some d) :
    IndexView.rowsOfMembers ⟨ix.withFile file symbols, disk, root⟩ (ix.firstDeclaration file + i) =
      (byKey (·.range.startByte) (symbols.members.zipIdx.filter (·.1.declIndex == i))).map fun m =>
          (ix.memberRowOf file m, ix.declarationRowOf file symbols (d, i),
            ix.rowOf file symbols) := by
  unfold IndexView.rowsOfMembers
  rw [joinedMembers_withFile h howned hd, membersOf_withFile, List.map_map]
  -- the rows are in the order in which their symbols are
  exact sortByKey_map (fun _ _ => rfl) _

/-- The rows of references of it, among those sought for a member. -/
theorem ownSought_withFile (h : ix.Linked)
    (howned : ∀ m ∈ symbols.members, m.declIndex < symbols.declarations.length) (m : Member)
    (scope : Scope) :
    (IndexView.soughtRows ⟨ix.withFile file symbols, disk, root⟩ m scope).filter
      (·.2.path == file.path) =
      (byKey (·.startByte) (symbols.references.zipIdx.filter fun r =>
        IndexView.namesMember m r.1 && scope.covers file.origin)).map fun r =>
          (ix.referenceRowOf file r, ix.rowOf file symbols) := by
  have hsound : (ix.withFile file symbols).Sound := (h.withFile howned).toSound
  have hown := hsound.ownRows (rowOf_mem h.toSound) ReferenceRow.fileId
    (ix.withFile file symbols).references
  have hreferences : (ix.withFile file symbols).references.filter
      (·.fileId == (ix.rowOf file symbols).id) =
      symbols.references.zipIdx.map (ix.referenceRowOf file) := references_withFile
  rw [hreferences, List.map_map] at hown
  have hfits : (fun row : ReferenceRow × FileRow =>
      IndexView.namesMember m row.1.symbol && scope.covers row.2.origin) ∘
      (fun r => (ix.referenceRowOf file r, ix.rowOf file symbols)) =
      fun r => IndexView.namesMember m r.1 && scope.covers file.origin := rfl
  have hrows : ((IndexView.referenceRows ⟨ix.withFile file symbols, disk, root⟩).filter fun row =>
      IndexView.namesMember m row.1.symbol && scope.covers row.2.origin).filter
        (·.2.path == file.path) =
      (symbols.references.zipIdx.filter fun r =>
        IndexView.namesMember m r.1 && scope.covers file.origin).map fun r =>
          (ix.referenceRowOf file r, ix.rowOf file symbols) := by
    rw [List.filter_comm, ← hfits, ← List.filter_map]
    exact congrArg _ hown
  -- within one file, the order of sites is that of their starts
  have hplace : ∀ a b : FileReference × Nat,
      IndexView.siteOrder (file.path, a.1.startByte) (file.path, b.1.startByte) =
        decide (a.1.startByte ≤ b.1.startByte) := by
    intro a b
    have hpath : decide (file.path < file.path) = false := decide_eq_false (lt_irrefl file.path)
    rw [IndexView.siteOrder, hpath, beq_self_eq_true, Bool.false_or, Bool.true_and]
  have hsorted : sortByKey IndexView.siteOrder
      (fun row : ReferenceRow × FileRow => (row.2.path, row.1.symbol.startByte))
      ((symbols.references.zipIdx.filter fun r =>
        IndexView.namesMember m r.1 && scope.covers file.origin).map fun r =>
          (ix.referenceRowOf file r, ix.rowOf file symbols)) =
      (byKey (·.startByte) (symbols.references.zipIdx.filter fun r =>
        IndexView.namesMember m r.1 && scope.covers file.origin)).map fun r =>
          (ix.referenceRowOf file r, ix.rowOf file symbols) := sortByKey_map hplace _
  rw [← hsorted, ← hrows]
  exact IndexView.keyOrder_siteOrder.filter_sortByKey _ _ _

end Replaced

end Index

/-! ## What the queries return -/

/-- All modifiers are sets, each of them in order and once. -/
def FileSymbols.AreSets (symbols : FileSymbols) : Prop :=
  (∀ d ∈ symbols.declarations, d.modifiers.IsSet) ∧ ∀ m ∈ symbols.members, m.modifiers.IsSet

/-- What is written as JSON of what was extracted. -/
def FileSymbols.trees (symbols : FileSymbols) : List Json :=
  [Json.ofStrs symbols.wildcardImports] ++ symbols.declarations.flatMap (·.trees) ++
    symbols.members.flatMap (·.trees) ++ symbols.references.flatMap (·.trees)

/-- The values written as texts are the imports and those of the declarations, members and
references. -/
@[simp]
theorem FileSymbols.mem_trees {symbols : FileSymbols} {j : Json} :
    j ∈ symbols.trees ↔ j = Json.ofStrs symbols.wildcardImports ∨
      (∃ d ∈ symbols.declarations, j ∈ d.trees) ∨ (∃ m ∈ symbols.members, j ∈ m.trees) ∨
        ∃ r ∈ symbols.references, j ∈ r.trees := by
  simp [trees]

/-- What has been written as JSON of references and of what their files say. -/
def Index.referenceTrees (ix : Index) : List Json :=
  (ix.files.map fun f => Json.ofStrs f.wildcardImports) ++
    ix.references.flatMap fun r => r.symbol.trees

/-- The same is read from the index and from the tables. -/
def ReadAs {α : Type} (fromIndex : Except Failure α) (fromTables : Option α) (a : α) : Prop :=
  fromIndex = .ok a ∧ fromTables = some a

/-- A declaration as it was extracted, with what is known of its file. -/
def extractedDeclaration (v : IndexView) (file : FileInput) (symbols : FileSymbols) (id : Nat)
    (d : FileDeclaration) : Declaration where
  id := id
  qualname := d.qualname
  name := d.name
  kind := d.kind
  modifiers := d.modifiers
  package := symbols.package
  superclass := d.superclass
  interfaces := d.interfaces
  annotations := d.annotations
  outer := d.outer
  unit :=
    { path := file.path, name := Path.fileName file.path, onDisk := v.isOnDisk file.path }
  origin := file.origin
  startLine := d.range.startLine
  endLine := d.range.endLine

/-- A member of a declaration as it was extracted. -/
def extractedMember (file : FileInput) (owner : FileDeclaration) (id : Nat) (m : FileMember) :
    Member where
  id := id
  kind := m.kind
  name := m.name
  owner := owner.qualname
  type := m.type
  modifiers := m.modifiers
  params := m.params
  throws := m.throws
  annotations := m.annotations
  hasBody := m.hasBody
  hasInitializer := m.hasInitializer
  fileName := Path.fileName file.path
  startLine := m.range.startLine
  endLine := m.range.endLine

/-- A reference as it was extracted, with what its file says about names. -/
def extractedReference (file : FileInput) (symbols : FileSymbols) (id : Nat) (r : FileReference) :
    Candidate where
  symbol := r
  package := symbols.package
  wildcards := symbols.wildcardImports
  site :=
    { id
      kind := r.kind
      path := file.path
      fileName := Path.fileName file.path
      line := r.line
      startByte := r.startByte
      endByte := r.endByte
      callText := r.callText
      unresolvedReceiver := false }

/-- What has been extracted from a file is returned, where the first declaration, member and
reference have these identities. -/
structure Returns (v : IndexView) (text : JsonText) (file : FileInput) (symbols : FileSymbols)
    (first firstMember firstReference : Nat) : Prop where
  /-- All declarations, by their starts. -/
  declarations : ∃ order, Ordered (·.range.startByte) symbols.declarations.zipIdx order ∧
    ReadAs (v.inUnit file.path)
      ((Tables.of text v.index).inUnit text v.isOnDisk file.path)
      (order.map fun (d, i) => extractedDeclaration v file symbols (first + i) d)
  /-- The members of each of them, by their starts. -/
  members : ∀ i d, symbols.declarations[i]? = some d →
    ∃ order, Ordered (·.range.startByte) (symbols.members.zipIdx.filter (·.1.declIndex == i))
      order ∧
    ReadAs (v.members (extractedDeclaration v file symbols (first + i) d))
      ((Tables.of text v.index).membersOf text (first + i))
      (order.map fun (m, k) => extractedMember file d (firstMember + k) m)
  /-- Of the references found for a member, those of this file, by their starts. -/
  references : ∀ m scope cs, v.candidates m scope = .ok cs →
    (Tables.of text v.index).candidates text m scope = some cs ∧
    ∃ order, Ordered (·.startByte) (symbols.references.zipIdx.filter fun (r, _) =>
        IndexView.namesMember m r && scope.covers file.origin) order ∧
      cs.filter (·.site.path == file.path) =
        order.map fun (r, k) => extractedReference file symbols (firstReference + k) r
  /-- The references of this file do not keep any from being found. -/
  readable : ∀ m scope,
    (∀ row ∈ v.soughtRows m scope, row.2.path ≠ file.path → row.1.damage = []) →
    ∃ cs, v.candidates m scope = .ok cs

section

variable {ix : Index} {file : FileInput} {symbols : FileSymbols} {text : JsonText} {disk : Disk}
  {root : String}

/-- The declarations of a file come back as they were given. -/
theorem returns_declarations (linked : ix.Linked)
    (valid : ∀ m ∈ symbols.members, m.declIndex < symbols.declarations.length)
    (sets : ∀ d ∈ symbols.declarations, d.modifiers.IsSet)
    (keeps : ∀ d ∈ symbols.declarations, ∀ j ∈ d.trees, text.Keeps j) :
    let v : IndexView := ⟨ix.withFile file symbols, disk, root⟩
    ReadAs (v.inUnit file.path) ((Tables.of text v.index).inUnit text v.isOnDisk file.path)
      ((byKey (·.range.startByte) symbols.declarations.zipIdx).map fun (d, i) =>
        extractedDeclaration v file symbols (ix.firstDeclaration file + i) d) := by
  intro v
  have hrows : v.rowsInUnit file.path = (byKey (·.range.startByte) symbols.declarations.zipIdx).map
      fun d => (ix.declarationRowOf file symbols d, ix.rowOf file symbols) :=
    Index.rowsInUnit_withFile linked valid
  have hshown : (v.rowsInUnit file.path).map v.declarationOf =
      (byKey (·.range.startByte) symbols.declarations.zipIdx).map fun (d, i) =>
        extractedDeclaration v file symbols (ix.firstDeclaration file + i) d := by
    rw [hrows, List.map_map]
    rfl
  have hsound : v.index.Sound := (linked.withFile valid).toSound
  have hrow : ∀ row ∈ v.rowsInUnit file.path,
      row.1.symbol ∈ symbols.declarations ∧ row.1.damage = [] := by
    intro row hrow
    rw [hrows] at hrow
    obtain ⟨⟨d, i⟩, hd, rfl⟩ := List.mem_map.mp hrow
    exact ⟨List.fst_mem_of_mem_zipIdx ((ordered_byKey _ _).1.mem_iff.mp hd), rfl⟩
  rw [← hshown]
  constructor
  · exact v.inUnit_of_undamaged fun row h => (hrow row h).2
  · exact inUnit_of hsound.fileIds (fun row h => sets _ (hrow row h).1)
      fun row h => keeps _ (hrow row h).1

/-- The members of a declaration come back as they were given, in the order of their lines. -/
theorem returns_members (linked : ix.Linked)
    (valid : ∀ m ∈ symbols.members, m.declIndex < symbols.declarations.length)
    (sets : ∀ m ∈ symbols.members, m.modifiers.IsSet)
    (keeps : ∀ m ∈ symbols.members, ∀ j ∈ m.trees, text.Keeps j) {i : Nat} {d : FileDeclaration}
    (hd : symbols.declarations[i]? = some d) :
    let v : IndexView := ⟨ix.withFile file symbols, disk, root⟩
    ReadAs (v.members (extractedDeclaration v file symbols (ix.firstDeclaration file + i) d))
      ((Tables.of text v.index).membersOf text (ix.firstDeclaration file + i))
      ((byKey (·.range.startByte) (symbols.members.zipIdx.filter (·.1.declIndex == i))).map
        fun (m, k) => extractedMember file d (ix.firstMember file + k) m) := by
  intro v
  have hrows : v.rowsOfMembers (ix.firstDeclaration file + i) =
      (byKey (·.range.startByte) (symbols.members.zipIdx.filter (·.1.declIndex == i))).map fun m =>
        (ix.memberRowOf file m, ix.declarationRowOf file symbols (d, i), ix.rowOf file symbols) :=
    Index.rowsOfMembers_withFile linked valid hd
  have hshown : (v.rowsOfMembers (ix.firstDeclaration file + i)).map IndexView.memberOf =
      (byKey (·.range.startByte) (symbols.members.zipIdx.filter (·.1.declIndex == i))).map
        fun (m, k) => extractedMember file d (ix.firstMember file + k) m := by
    rw [hrows, List.map_map]
    rfl
  have hsound : v.index.Sound := (linked.withFile valid).toSound
  have hrow : ∀ row ∈ v.rowsOfMembers (ix.firstDeclaration file + i),
      row.1.symbol ∈ symbols.members ∧ row.1.damage = [] := by
    intro row hrow
    rw [hrows] at hrow
    obtain ⟨⟨m, k⟩, hm, rfl⟩ := List.mem_map.mp hrow
    have hmem := List.mem_of_mem_filter ((ordered_byKey _ _).1.mem_iff.mp hm)
    exact ⟨List.fst_mem_of_mem_zipIdx hmem, rfl⟩
  rw [← hshown]
  constructor
  · exact v.members_of_undamaged fun row h => (hrow row h).2
  · exact membersOf_of hsound.fileIds hsound.declarationIds (fun row h => sets _ (hrow row h).1)
      fun row h => keeps _ (hrow row h).1

/-- The rows that are sought are rows of this file, or were there before. -/
theorem symbol_of_sought {v : IndexView} (hv : v.index = ix.withFile file symbols)
    (h : ix.Sound) {m : Member} {scope : Scope} {row : ReferenceRow × FileRow}
    (hrow : row ∈ v.soughtRows m scope) :
    (row.1.symbol ∈ symbols.references ∨ row.1 ∈ ix.references) ∧
      (row.2 = ix.rowOf file symbols ∨ row.2 ∈ ix.files) := by
  obtain ⟨hjoined, -⟩ := IndexView.mem_soughtRows.mp hrow
  obtain ⟨r, hr, hfile⟩ := List.mem_filterMap.mp hjoined
  obtain ⟨f, hf, rfl⟩ := Option.map_eq_some_iff.mp hfile
  have hmem := List.mem_of_find?_eq_some hf
  rw [hv] at hr hmem
  -- Both the row and its file are either new or kept.
  constructor
  · rcases List.mem_append.mp hr with hkept | hadded
    · exact .inr (List.mem_of_mem_filter hkept)
    · obtain ⟨⟨symbol, k⟩, hsymbol, rfl⟩ := List.mem_map.mp hadded
      exact .inl (List.fst_mem_of_mem_zipIdx hsymbol)
  · rcases (Index.mem_files_withFile h).mp hmem with rfl | ⟨hkept, -⟩
    · exact .inl rfl
    · exact .inr hkept

/-- The references of a file come back as they were given, in the order of their offsets. -/
theorem returns_references (linked : ix.Linked)
    (valid : ∀ m ∈ symbols.members, m.declIndex < symbols.declarations.length)
    (keeps : ∀ j ∈ symbols.trees ++ ix.referenceTrees, text.Keeps j) {m : Member} {scope : Scope}
    {cs : List Candidate} :
    let v : IndexView := ⟨ix.withFile file symbols, disk, root⟩
    v.candidates m scope = .ok cs →
    (Tables.of text v.index).candidates text m scope = some cs ∧
      cs.filter (·.site.path == file.path) =
        (byKey (·.startByte) (symbols.references.zipIdx.filter fun (r, _) =>
          IndexView.namesMember m r && scope.covers file.origin)).map fun (r, k) =>
            extractedReference file symbols (ix.firstReference file + k) r := by
  intro v hcs
  have hsound : v.index.Sound := (linked.withFile valid).toSound
  rw [List.forall_mem_append] at keeps
  obtain ⟨hown, hothers⟩ := keeps
  unfold Index.referenceTrees at hothers
  rw [List.forall_mem_append] at hothers
  rw [v.eq_of_candidates hcs]
  constructor
  · -- Read back, a row needs its own values and the imports of its file.
    apply candidates_of hsound.fileIds
    · intro row hrow j hj
      rcases (symbol_of_sought rfl linked.toSound hrow).1 with hsymbol | hkept
      · exact hown j (FileSymbols.mem_trees.mpr (.inr (.inr (.inr ⟨_, hsymbol, hj⟩))))
      · exact hothers.2 j (List.mem_flatMap.mpr ⟨_, hkept, hj⟩)
    · intro row hrow
      rcases (symbol_of_sought rfl linked.toSound hrow).2 with hfile | hkept
      · rw [hfile]
        exact hown _ (FileSymbols.mem_trees.mpr (.inl rfl))
      · exact hothers.1 _ (List.mem_map_of_mem hkept)
  · have hrows : (v.soughtRows m scope).filter (·.2.path == file.path) = _ :=
      Index.ownSought_withFile linked valid m scope
    have htest : (fun c : Candidate => c.site.path == file.path) ∘ IndexView.candidateOf =
        fun row => row.2.path == file.path := rfl
    rw [List.filter_map, htest, hrows, List.map_map]
    rfl

/-- References that were stored can be searched. -/
theorem readable_references (linked : ix.Linked)
    (valid : ∀ m ∈ symbols.members, m.declIndex < symbols.declarations.length) {m : Member}
    {scope : Scope} :
    let v : IndexView := ⟨ix.withFile file symbols, disk, root⟩
    (∀ row ∈ v.soughtRows m scope, row.2.path ≠ file.path → row.1.damage = []) →
    ∃ cs, v.candidates m scope = .ok cs := by
  intro v hothers
  have hrows : (v.soughtRows m scope).filter (·.2.path == file.path) = _ :=
    Index.ownSought_withFile linked valid m scope
  -- rows of this file have just been written
  have hundamaged : ∀ row ∈ v.soughtRows m scope, row.1.damage = [] := by
    intro row hrow
    by_cases hpath : row.2.path = file.path
    · have hown : row ∈ (v.soughtRows m scope).filter (·.2.path == file.path) :=
        List.mem_filter.mpr ⟨hrow, beq_iff_eq.mpr hpath⟩
      rw [hrows] at hown
      obtain ⟨r, -, rfl⟩ := List.mem_map.mp hown
      rfl
    · exact hothers row hrow hpath
  exact ⟨_, IndexView.candidates_eq fun row hrow =>
    ⟨_, IndexView.readReference_of_undamaged (hundamaged row hrow)⟩⟩

end

/-- Every file whose members belong to declarations of it can be stored, and is returned by the
queries as it was extracted. JSON has to be parsed as it was printed; what other files have stored
may be anything. -/
theorem index_returns_what_was_stored {ix : Index} {file : FileInput} {symbols : FileSymbols}
    {text : JsonText} (linked : ix.Linked)
    (valid : ∀ m ∈ symbols.members, m.declIndex < symbols.declarations.length)
    (sets : symbols.AreSets) (keeps : ∀ j ∈ symbols.trees ++ ix.referenceTrees, text.Keeps j)
    (disk : Disk) (root : String) :
    ∃ ix' first firstMember firstReference,
      ix.replaceFile file symbols = .ok (ix', Index.countsOf symbols) ∧
      Returns ⟨ix', disk, root⟩ text file symbols first firstMember firstReference := by
  have hreplaced : ix.replaceFile file symbols =
      .ok (ix.withFile file symbols, Index.countsOf symbols) := ix.replaceFile_of_owned file valid
  refine ⟨_, ix.firstDeclaration file, ix.firstMember file, ix.firstReference file, hreplaced, ?_⟩
  have hown : ∀ j ∈ symbols.trees, text.Keeps j := (List.forall_mem_append.mp keeps).1
  have hdeclarations : ∀ d ∈ symbols.declarations, ∀ j ∈ d.trees, text.Keeps j :=
    fun d hd j hj => hown j (FileSymbols.mem_trees.mpr (.inr (.inl ⟨d, hd, hj⟩)))
  have hmembers : ∀ m ∈ symbols.members, ∀ j ∈ m.trees, text.Keeps j :=
    fun m hm j hj => hown j (FileSymbols.mem_trees.mpr (.inr (.inr (.inl ⟨m, hm, hj⟩))))
  constructor
  case declarations =>
    exact ⟨_, ordered_byKey _ _, returns_declarations linked valid sets.1 hdeclarations⟩
  case members =>
    intro i d hd
    exact ⟨_, ordered_byKey _ _, returns_members linked valid sets.2 hmembers hd⟩
  case references =>
    intro m scope cs hcs
    obtain ⟨htables, hown⟩ := returns_references linked valid keeps hcs
    exact ⟨htables, _, ordered_byKey _ _, hown⟩
  case readable =>
    intro m scope hothers
    exact readable_references linked valid hothers

/-- JSON as it is printed without blanks. -/
def compactText : JsonText := ⟨Json.compress, fun text => (Json.parse text).toOption⟩

/-- A class with modifiers and supertypes. -/
def finalClass : FileDeclaration where
  qualname := "p.Écran"
  name := "Écran"
  modifiers := .ofList [.isFinal, .isPublic]
  superclass := some { text := "Base", resolved := some "q.Base" }
  interfaces := [{ text := "Run" }]

/-- A method of it that takes any number of strings. -/
def varargsMethod : FileMember where
  declIndex := 0
  kind := .method
  name := "put"
  params := [{ name := "all", type := { text := "String" }, varargs := true }]

/-- A call at the end of a chain. -/
def chainedCall : FileReference where
  kind := .call
  name := "put"
  argCount := some 1
  receiver := .expr
  receiverChain := some
    { root := .typed { text := "Map" }, steps := [.call "get" 1, .lambdaParam 0 2] }
  callText := some "\"x\""

/-- All of them in one file. -/
def classWithCall : FileSymbols where
  package := "p"
  declarations := [finalClass]
  members := [varargsMethod]
  references := [chainedCall]

/-- Its file. -/
def classWithCallFile : FileInput where
  path := "/p/E.java"
  origin := .project
  digest := default
  size := 0
  content := ""

-- all of it is printed and parsed
set_option maxRecDepth 20000 in
/-- The values of the example keep what is written of them. -/
theorem keeps_classWithCall : ∀ j ∈ classWithCall.trees, compactText.Keeps j := by
  have hparsed : classWithCall.trees.map (fun j => compactText.parse (compactText.print j)) =
      classWithCall.trees.map some := by with_unfolding_all rfl
  exact List.map_inj_left.mp hparsed

/-- The class, its method and the call are returned, from an index and from tables that were
empty. -/
theorem index_returns_what_was_stored_one_class :
    ∃ (v : IndexView) (d : Declaration) (m : Member) (cs : List Candidate) (c : Candidate),
      Index.replaceFile {} classWithCallFile classWithCall =
        .ok (v.index, Index.countsOf classWithCall) ∧
      ReadAs (v.inUnit classWithCallFile.path)
        ((Tables.of compactText v.index).inUnit compactText v.isOnDisk classWithCallFile.path)
        [d] ∧
      ReadAs (v.members d) ((Tables.of compactText v.index).membersOf compactText d.id) [m] ∧
      ReadAs (v.candidates m .project)
        ((Tables.of compactText v.index).candidates compactText m .project) cs ∧ c ∈ cs ∧
      d.modifiers = finalClass.modifiers ∧ d.superclass = finalClass.superclass ∧
      m.owner = finalClass.qualname ∧ m.params = varargsMethod.params ∧
      c.symbol = chainedCall := by
  have hvalid : ∀ m ∈ classWithCall.members, m.declIndex < classWithCall.declarations.length := by
    decide
  have hsets : classWithCall.AreSets := by
    unfold FileSymbols.AreSets Modifiers.IsSet
    decide
  have hkeeps : ∀ j ∈ classWithCall.trees ++ Index.referenceTrees {}, compactText.Keeps j := by
    rw [List.forall_mem_append]
    exact ⟨keeps_classWithCall, nofun⟩
  obtain ⟨ix, first, firstMember, firstReference,
    (hreplaced : Index.replaceFile {} classWithCallFile classWithCall = _), hreturns⟩ :=
    index_returns_what_was_stored Index.linked_empty hvalid hsets hkeeps default "/"
  obtain ⟨order, hordered, hdeclarations⟩ := hreturns.declarations
  obtain rfl : order = [(finalClass, 0)] := List.perm_singleton.mp hordered.1
  obtain ⟨members, hmembers, hmembersOf⟩ := hreturns.members 0 finalClass rfl
  obtain rfl : members = [(varargsMethod, 0)] := List.perm_singleton.mp hmembers.1
  -- there are no other files, so the references to the method can be read
  have hix : ix = Index.withFile {} classWithCallFile classWithCall :=
    congrArg Prod.fst (Except.ok.inj hreplaced).symm
  obtain ⟨cs, hcs⟩ := hreturns.readable
    (extractedMember classWithCallFile finalClass (firstMember + 0) varargsMethod) .project (by
      intro row hrow hother
      rcases (symbol_of_sought hix Index.linked_empty.toSound hrow).2 with hown | hnone
      · exact absurd (congrArg FileRow.path hown) hother
      · cases hnone)
  obtain ⟨htables, references, hreferences, hown⟩ := hreturns.references _ _ _ hcs
  obtain rfl : references = [(chainedCall, 0)] := List.perm_singleton.mp hreferences.1
  have hc : extractedReference classWithCallFile classWithCall (firstReference + 0) chainedCall ∈
      cs.filter (·.site.path == classWithCallFile.path) := by
    rw [hown]
    exact List.mem_singleton_self _
  exact ⟨⟨ix, default, "/"⟩, _, _, cs, _, hreplaced, hdeclarations, hmembersOf, ⟨hcs, htables⟩,
    List.mem_of_mem_filter hc, rfl, rfl, rfl, rfl, rfl⟩

end JavaAtlas
