import JavaAtlas.Proofs.Index.Columns
import JavaAtlas.Proofs.Index.Representation

namespace JavaAtlas

/-! # Queries of tables

The index is stored in tables. A query joins rows by their columns, keeps those that it is about,
orders them by a column and reads what it has selected.

* `Tables.of`: the tables of an index;
* `Tables.inUnit`, `Tables.membersOf`, `Tables.candidates`: the queries for the declarations of a
  file, the members of a declaration and the references to a member;
* `inUnit_of`, `membersOf_of`, `candidates_of`: they read what is read from the index.
-/

/-- The order of columns: nulls, then numbers, then texts. -/
def Cell.le : Cell → Cell → Bool
  | .null, _ => true
  | .int _, .null => false
  | .int a, .int b => decide (a ≤ b)
  | .int _, .text _ => true
  | .text a, .text b => decide (a ≤ b)
  | .text _, _ => false

/-- The order of two columns, the first one first. -/
def Cell.pairLe (a b : Cell × Cell) : Bool :=
  a.1.le b.1 && (!b.1.le a.1 || a.2.le b.2)

/-- The column with a name; null if there is none. -/
def cellOf (row : Columns) (column : String) : Cell := (row.lookup column).getD .null

/-- The rows of all tables. -/
structure Tables where
  files : List Columns
  declarations : List Columns
  members : List Columns
  references : List Columns

namespace Tables

/-- The tables of an index. -/
def of (text : JsonText) (ix : Index) : Tables where
  files := ix.files.map (·.columns text)
  declarations := ix.declarations.map (·.columns text)
  members := ix.members.map (·.columns text)
  references := ix.references.map (·.columns text)

variable (t : Tables) (text : JsonText)

/-- The file of a row. -/
def filesOf (row : Columns) : List Columns :=
  t.files.filter fun f => cellOf f "id" == cellOf row "file_id"

/-- The declaration of the row of a member. -/
def ownersOf (row : Columns) : List Columns :=
  t.declarations.filter fun d => cellOf d "id" == cellOf row "decl_id"

/-- Reads a declaration and its file. -/
def readDeclaration (onDisk : String → Bool) (row : Columns × Columns) : Option Declaration := do
  decodeDeclaration text onDisk (← selectColumns Index.declarationSelection fun
    | .declarations => row.1
    | .files => row.2
    | _ => [])

/-- The declarations of a file. -/
def inUnit (onDisk : String → Bool) (path : String) : Option (List Declaration) :=
  let joined := t.declarations.flatMap fun d => (t.filesOf d).map (d, ·)
  let rows := joined.filter fun (_, f) => cellOf f "path" == .text path
  (sortByKey Cell.le (fun (d, _) => cellOf d "start_byte") rows).mapM (readDeclaration text onDisk)

/-- Reads a member, its declaration and its file. -/
def readMember (row : Columns × Columns × Columns) : Option Member := do
  decodeMember text (← selectColumns Index.memberSelection fun
    | .members => row.1
    | .declarations => row.2.1
    | .files => row.2.2
    | .references => [])

/-- The members of a declaration with an identity. -/
def membersOf (id : Nat) : Option (List Member) :=
  let joined := t.members.flatMap fun m => (t.ownersOf m).flatMap fun d =>
    (t.filesOf m).map fun f => (m, d, f)
  let rows := joined.filter fun (m, _, _) => cellOf m "decl_id" == .int id
  (sortByKey Cell.le (fun (m, _, _) => cellOf m "start_byte") rows).mapM (readMember text)

/-- Reads a reference with a name and its file. -/
def readReference (name : String) (row : Columns × Columns) : Option Candidate := do
  decodeReference text name (← selectColumns Index.referenceSelection fun
    | .references => row.1
    | .files => row.2
    | _ => [])

/-- Whether a file belongs to a scope. -/
def inScope (scope : Scope) (f : Columns) : Bool :=
  match scope with
  | .project => cellOf f "origin" == .text Origin.project.name
  | .all => true

/-- The references whose name, kind and scope fit. -/
def candidates (m : Member) (scope : Scope) : Option (List Candidate) :=
  match IndexView.soughtAs m with
  | none => some []
  | some (name, kinds) =>
    let joined := t.references.flatMap fun r => (t.filesOf r).map (r, ·)
    let rows := joined.filter fun (r, f) =>
      cellOf r "name" == .text name &&
        (kinds.map fun kind => Cell.text kind.name).contains (cellOf r "kind") && inScope scope f
    (sortByKey Cell.pairLe (fun (r, f) => (cellOf f "path", cellOf r "start_byte")) rows).mapM
      (readReference text name)

end Tables

/-! ## Rows and their columns -/

section

variable {text : JsonText} {ix : Index}

/-- Columns with numbers are equal if the numbers are. -/
@[simp]
theorem beq_int (a b : Nat) : (Cell.int a == Cell.int b) = (a == b) := by
  rw [Bool.eq_iff_iff, beq_iff_eq, beq_iff_eq, Cell.int.injEq, Int.ofNat_inj]

/-- Columns with texts are equal if the texts are. -/
@[simp]
theorem beq_text (a b : String) : (Cell.text a == Cell.text b) = (a == b) := by
  rw [Bool.eq_iff_iff, beq_iff_eq, beq_iff_eq, Cell.text.injEq]

/-- What has a key that is not there twice is found at most once. -/
theorem filter_key_eq {ρ : Type} {key : ρ → Nat} {rows : List ρ} (hkeys : (rows.map key).Nodup)
    (k : Nat) : rows.filter (key · == k) = (rows.find? (key · == k)).toList := by
  induction rows with
  | nil => rfl
  | cons row rows ih =>
    rw [List.map_cons, List.nodup_cons] at hkeys
    by_cases hrow : (key row == k) = true
    · -- no other row has the key of the first one
      have hrest : rows.filter (key · == k) = [] := by
        rw [List.filter_eq_nil_iff]
        intro other hother hkey
        rw [beq_iff_eq] at hrow hkey
        exact hkeys.1 (List.mem_map.mpr ⟨other, hother, hkey.trans hrow.symm⟩)
      rw [List.filter_cons_of_pos (p := (key · == k)) hrow,
        List.find?_cons_of_pos (p := (key · == k)) hrow, hrest]
      rfl
    · rw [List.filter_cons_of_neg (p := (key · == k)) hrow,
        List.find?_cons_of_neg (p := (key · == k)) hrow, ih hkeys.2]

/-- A row is joined with the one file that has its identity. -/
theorem filesOf_of (hids : (ix.files.map (·.id)).Nodup) {row : Columns} {id : Nat}
    (hrow : cellOf row "file_id" = .int id) :
    (Tables.of text ix).filesOf row = ((ix.fileOf? id).map (·.columns text)).toList := by
  have htest : (fun f => cellOf f "id" == cellOf row "file_id") ∘ (FileRow.columns text) =
      (·.id == id) := by
    funext f
    exact (congrArg (Cell.int f.id == ·) hrow).trans (beq_int f.id id)
  have hfiles : (Tables.of text ix).filesOf row =
      (ix.files.map (·.columns text)).filter fun f => cellOf f "id" == cellOf row "file_id" := rfl
  rw [hfiles, List.filter_map, htest, filter_key_eq hids, ← Option.toList_map]
  rfl

/-- The row of a member is joined with the one declaration that has its identity. -/
theorem ownersOf_of (hids : (ix.declarations.map (·.id)).Nodup) (m : MemberRow) :
    (Tables.of text ix).ownersOf (m.columns text) =
      ((ix.declarations.find? (·.id == m.declarationId)).map (·.columns text)).toList := by
  have htest : (fun d => cellOf d "id" == cellOf (m.columns text) "decl_id") ∘
      (DeclarationRow.columns text) = (·.id == m.declarationId) := by
    funext d
    exact beq_int d.id m.declarationId
  have howners : (Tables.of text ix).ownersOf (m.columns text) =
      (ix.declarations.map (·.columns text)).filter fun d =>
        cellOf d "id" == cellOf (m.columns text) "decl_id" := rfl
  rw [howners, List.filter_map, htest, filter_key_eq hids, ← Option.toList_map]

/-- Rows with their files. -/
theorem joined_files {ρ : Type} {columns : ρ → Columns} {fileId : ρ → Nat}
    (hids : (ix.files.map (·.id)).Nodup)
    (hcolumn : ∀ r, cellOf (columns r) "file_id" = .int (fileId r)) (rows : List ρ) :
    ((rows.map columns).flatMap fun row => ((Tables.of text ix).filesOf row).map (row, ·)) =
      (rows.filterMap fun r => (ix.fileOf? (fileId r)).map (r, ·)).map fun (r, f) =>
        (columns r, f.columns text) := by
  induction rows with
  | nil => rfl
  | cons r rows ih =>
    rw [List.map_cons, List.flatMap_cons, ih, filesOf_of hids (hcolumn r)]
    cases hfile : ix.fileOf? (fileId r) with
    | none => simp [hfile]
    | some f => simp [hfile]

/-- Columns in the order of their keys are those of rows in the order of theirs. -/
theorem sortByKey_map {α β κ κ' : Type} {le : κ → κ → Bool} {le' : κ' → κ' → Bool} {key : α → κ}
    {key' : β → κ'} {g : α → β} (h : ∀ a b, le' (key' (g a)) (key' (g b)) = le (key a) (key b))
    (values : List α) : sortByKey le' key' (values.map g) = (sortByKey le key values).map g := by
  unfold sortByKey
  rw [List.map_mergeSort]
  intro a _ b _
  exact (h a b).symm

end

/-! ## What the queries read -/

section Queries

variable {text : JsonText} {v : IndexView}

/-- The query for the declarations of a file reads what is read from its rows, in their order. -/
theorem inUnit_of (hids : (v.index.files.map (·.id)).Nodup) {path : String}
    (hset : ∀ row ∈ v.rowsInUnit path, row.1.symbol.modifiers.IsSet)
    (hkeeps : ∀ row ∈ v.rowsInUnit path, ∀ j ∈ row.1.symbol.trees, text.Keeps j) :
    (Tables.of text v.index).inUnit text v.isOnDisk path =
      some ((v.rowsInUnit path).map v.declarationOf) := by
  have hjoined : ((Tables.of text v.index).declarations.flatMap fun d =>
      ((Tables.of text v.index).filesOf d).map (d, ·)) =
      v.declarationRows.map fun row => (row.1.columns text, row.2.columns text) :=
    joined_files hids (fun _ => rfl) v.index.declarations
  have htest : (fun row : Columns × Columns => cellOf row.2 "path" == .text path) ∘
      (fun row : DeclarationRow × FileRow => (row.1.columns text, row.2.columns text)) =
      fun row => row.2.path == path := by
    funext row
    exact beq_text row.2.path path
  have hsorted : sortByKey Cell.le (fun row : Columns × Columns => cellOf row.1 "start_byte")
      ((v.declarationRows.filter fun row => row.2.path == path).map fun row =>
        (row.1.columns text, row.2.columns text)) =
      (v.rowsInUnit path).map fun row => (row.1.columns text, row.2.columns text) :=
    sortByKey_map (fun _ _ => rfl) _
  have hrun : (Tables.of text v.index).inUnit text v.isOnDisk path =
      (sortByKey Cell.le (fun row : Columns × Columns => cellOf row.1 "start_byte")
        (((Tables.of text v.index).declarations.flatMap fun d =>
          ((Tables.of text v.index).filesOf d).map (d, ·)).filter fun row =>
            cellOf row.2 "path" == .text path)).mapM (Tables.readDeclaration text v.isOnDisk) := rfl
  -- joining, choosing and ordering commute with writing the columns
  rw [hrun, hjoined, List.filter_map, htest, hsorted]
  exact Json.mapM_map_eq_some fun row hrow =>
    decode_declaration v (hset row hrow) (hkeeps row hrow)

/-- The query for the members of a declaration reads what is read from its rows, in their order. -/
theorem membersOf_of (hfiles : (v.index.files.map (·.id)).Nodup)
    (hdeclarations : (v.index.declarations.map (·.id)).Nodup) {id : Nat}
    (hset : ∀ row ∈ v.rowsOfMembers id, row.1.symbol.modifiers.IsSet)
    (hkeeps : ∀ row ∈ v.rowsOfMembers id, ∀ j ∈ row.1.symbol.trees, text.Keeps j) :
    (Tables.of text v.index).membersOf text id =
      some ((v.rowsOfMembers id).map IndexView.memberOf) := by
  let columns (row : MemberRow × DeclarationRow × FileRow) : Columns × Columns × Columns :=
    (row.1.columns text, row.2.1.columns text, row.2.2.columns text)
  have hjoined : ((Tables.of text v.index).members.flatMap fun m =>
      ((Tables.of text v.index).ownersOf m).flatMap fun d =>
        ((Tables.of text v.index).filesOf m).map fun f => (m, d, f)) =
      v.memberRows.map columns := by
    unfold IndexView.memberRows
    have hmembers : (Tables.of text v.index).members = v.index.members.map (·.columns text) := rfl
    rw [hmembers]
    induction v.index.members with
    | nil => rfl
    | cons m rows ih =>
      have hfileId : cellOf (m.columns text) "file_id" = .int m.fileId := rfl
      rw [List.map_cons, List.flatMap_cons, ih, ownersOf_of hdeclarations m,
        filesOf_of hfiles hfileId]
      -- a member is joined with at most one declaration and at most one file
      cases howner : v.index.declarations.find? (·.id == m.declarationId) with
      | none => simp [howner]
      | some d =>
        cases hfile : v.index.fileOf? m.fileId with
        | none => simp [howner, hfile]
        | some f => simp [howner, hfile, columns]
  have htest : (fun row : Columns × Columns × Columns => cellOf row.1 "decl_id" == .int id) ∘
      columns = fun row => row.1.declarationId == id := by
    funext row
    exact beq_int row.1.declarationId id
  have hsorted : sortByKey Cell.le
      (fun row : Columns × Columns × Columns => cellOf row.1 "start_byte")
      ((v.memberRows.filter fun row => row.1.declarationId == id).map columns) =
      (v.rowsOfMembers id).map columns := sortByKey_map (fun _ _ => rfl) _
  have hrun : (Tables.of text v.index).membersOf text id =
      (sortByKey Cell.le (fun row : Columns × Columns × Columns => cellOf row.1 "start_byte")
        (((Tables.of text v.index).members.flatMap fun m =>
          ((Tables.of text v.index).ownersOf m).flatMap fun d =>
            ((Tables.of text v.index).filesOf m).map fun f => (m, d, f)).filter fun row =>
              cellOf row.1 "decl_id" == .int id)).mapM (Tables.readMember text) := rfl
  rw [hrun, hjoined, List.filter_map, htest, hsorted]
  exact Json.mapM_map_eq_some fun row hrow => decode_member (hset row hrow) (hkeeps row hrow)

/-- Columns with a path and a place have the order of sites. -/
theorem pairLe_place (a b : String × Int) :
    Cell.pairLe (.text a.1, .int a.2) (.text b.1, .int b.2) = IndexView.siteOrder a b := by
  obtain ⟨p, i⟩ := a
  obtain ⟨q, j⟩ := b
  have hcells : Cell.pairLe (.text p, .int i) (.text q, .int j) =
      (decide (p ≤ q) && (!decide (q ≤ p) || decide (i ≤ j))) := rfl
  have hplaces : IndexView.siteOrder (p, i) (q, j) =
      (decide (p < q) || (p == q && decide (i ≤ j))) := rfl
  rw [hcells, hplaces, Bool.eq_iff_iff]
  simp only [Bool.and_eq_true, Bool.or_eq_true, Bool.not_eq_true', decide_eq_true_eq,
    decide_eq_false_iff_not, beq_iff_eq]
  constructor
  · rintro ⟨hle, hnot | hij⟩
    · exact .inl (lt_of_not_ge hnot)
    · rcases lt_or_eq_of_le hle with hlt | heq
      · exact .inl hlt
      · exact .inr ⟨heq, hij⟩
  · rintro (hlt | ⟨rfl, hij⟩)
    · exact ⟨le_of_lt hlt, .inl (not_le_of_gt hlt)⟩
    · exact ⟨le_refl _, .inr hij⟩

/-- Whether a file belongs to a scope is told by the column of its origin. -/
theorem inScope_columns (scope : Scope) (f : FileRow) :
    Tables.inScope scope (f.columns text) = scope.covers f.origin := by
  cases scope with
  | project =>
    have hcell : Tables.inScope .project (f.columns text) =
        (Cell.text f.origin.name == .text Origin.project.name) := rfl
    rw [hcell, beq_text]
    cases f.origin with
    | project => rfl
    | library => rfl
  | all => rfl

/-- Whether a kind is among others is told by their names. -/
theorem contains_kind (kinds : List RefKind) (kind : RefKind) :
    (kinds.map fun kind => Cell.text kind.name).contains (.text kind.name) =
      kinds.contains kind := by
  have hname : ∀ other : RefKind, (Cell.text kind.name == .text other.name) = (kind == other) := by
    intro other
    rw [beq_text, Bool.eq_iff_iff, beq_iff_eq, beq_iff_eq]
    constructor
    · -- names of kinds are told apart, since they can be parsed
      intro h
      have hparsed := congrArg RefKind.parse? h
      rw [RefKind.parse?_name, RefKind.parse?_name] at hparsed
      exact Option.some.inj hparsed
    · exact congrArg RefKind.name
  induction kinds with
  | nil => rfl
  | cons other kinds ih =>
    rw [List.map_cons, List.contains_cons, List.contains_cons, ih, hname]

/-- The rows of references whose name, kind and scope fit. -/
theorem fits_columns {m : Member} {name : String} {kinds : List RefKind}
    (hsought : IndexView.soughtAs m = some (name, kinds)) (scope : Scope)
    (row : ReferenceRow × FileRow) :
    (cellOf (row.1.columns text) "name" == .text name &&
        (kinds.map fun kind => Cell.text kind.name).contains (cellOf (row.1.columns text) "kind") &&
        Tables.inScope scope (row.2.columns text)) =
      (IndexView.namesMember m row.1.symbol && scope.covers row.2.origin) := by
  have hname : cellOf (row.1.columns text) "name" = .text row.1.symbol.name := rfl
  have hkind : cellOf (row.1.columns text) "kind" = .text row.1.symbol.kind.name := rfl
  rw [hname, hkind, beq_text, contains_kind, inScope_columns, IndexView.namesMember_eq, hsought]
  rfl

/-- The query for the references to a member reads what is read from the rows sought, in their
order. -/
theorem candidates_of (hfiles : (v.index.files.map (·.id)).Nodup) {m : Member} {scope : Scope}
    (hkeeps : ∀ row ∈ v.soughtRows m scope, ∀ j ∈ row.1.symbol.trees, text.Keeps j)
    (hwildcards : ∀ row ∈ v.soughtRows m scope, text.Keeps (Json.ofStrs row.2.wildcardImports)) :
    (Tables.of text v.index).candidates text m scope =
      some ((v.soughtRows m scope).map IndexView.candidateOf) := by
  cases hsought : IndexView.soughtAs m with
  | none =>
    -- a field: nothing is looked for on either side
    have hnone : v.soughtRows m scope = [] := by
      rw [List.eq_nil_iff_forall_not_mem]
      intro row hrow
      obtain ⟨-, hnames, -⟩ := IndexView.mem_soughtRows.mp hrow
      rw [IndexView.namesMember_eq, hsought] at hnames
      cases hnames
    unfold Tables.candidates
    rw [hsought, hnone]
    rfl
  | some sought =>
    obtain ⟨name, kinds⟩ := sought
    have hjoined : ((Tables.of text v.index).references.flatMap fun r =>
        ((Tables.of text v.index).filesOf r).map (r, ·)) =
        v.referenceRows.map fun row => (row.1.columns text, row.2.columns text) :=
      joined_files hfiles (fun _ => rfl) v.index.references
    have htest : (fun row : Columns × Columns => cellOf row.1 "name" == .text name &&
        (kinds.map fun kind => Cell.text kind.name).contains (cellOf row.1 "kind") &&
        Tables.inScope scope row.2) ∘
        (fun row : ReferenceRow × FileRow => (row.1.columns text, row.2.columns text)) =
        fun row => IndexView.namesMember m row.1.symbol && scope.covers row.2.origin := by
      funext row
      exact fits_columns hsought scope row
    have hsorted : sortByKey Cell.pairLe
        (fun row : Columns × Columns => (cellOf row.2 "path", cellOf row.1 "start_byte"))
        ((v.referenceRows.filter fun row =>
          IndexView.namesMember m row.1.symbol && scope.covers row.2.origin).map fun row =>
            (row.1.columns text, row.2.columns text)) =
        (v.soughtRows m scope).map fun row => (row.1.columns text, row.2.columns text) :=
      sortByKey_map (fun a b => pairLe_place (a.2.path, a.1.symbol.startByte)
        (b.2.path, b.1.symbol.startByte)) _
    have hrun : (Tables.of text v.index).candidates text m scope =
        (sortByKey Cell.pairLe
          (fun row : Columns × Columns => (cellOf row.2 "path", cellOf row.1 "start_byte"))
          (((Tables.of text v.index).references.flatMap fun r =>
            ((Tables.of text v.index).filesOf r).map (r, ·)).filter fun row =>
              cellOf row.1 "name" == .text name &&
                (kinds.map fun kind => Cell.text kind.name).contains (cellOf row.1 "kind") &&
                Tables.inScope scope row.2)).mapM (Tables.readReference text name) := by
      unfold Tables.candidates
      rw [hsought]
    rw [hrun, hjoined, List.filter_map, htest, hsorted]
    refine Json.mapM_map_eq_some fun row hrow => ?_
    -- the name is not selected, but all rows sought have it
    have hname : row.1.symbol.name = name := by
      obtain ⟨-, hnames, -⟩ := IndexView.mem_soughtRows.mp hrow
      rw [IndexView.namesMember_eq, hsought, Option.any_some, Bool.and_eq_true,
        beq_iff_eq] at hnames
      exact hnames.1
    rw [← hname]
    exact decode_reference (hkeeps row hrow) (hwildcards row hrow)

end Queries

end JavaAtlas
