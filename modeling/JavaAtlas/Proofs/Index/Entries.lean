import Mathlib.Data.List.Flatten
import JavaAtlas.Proofs.Index.Renaming

namespace JavaAtlas

/-! # What an index keeps of each file

An index is seen here as a map from paths to entries: what is kept of a file, with the places of
declarations inside the file instead of identities. `Keeps` ties an index to such a map.

`keeps_empty`, `Keeps.replaceFile`, `Keeps.deleteFile`, `Keeps.replaceMarkers` and `Keeps.upgrade`
say what each change does to the map.
-/

/-- What is kept of one file. The identities in it do not count, and a member names its
declaration by the place among those of the file. -/
structure FileEntry where
  file : FileRow
  declarations : List DeclarationRow
  members : List MemberRow
  references : List ReferenceRow

/-- Identities for the files at given paths and, in order, for their declarations. -/
structure Numbering where
  file : String → Nat
  declarations : String → List Nat

namespace FileEntry

/-- The path of the file. -/
def path (e : FileEntry) : String := e.file.path

/-- Every member names a declaration of the file. -/
def MembersOwned (e : FileEntry) : Prop :=
  ∀ m ∈ e.members, m.declarationId < e.declarations.length

/-- The row of the file. -/
def fileRow (n : Numbering) (e : FileEntry) : FileRow :=
  { e.file with id := n.file e.path }

/-- The rows of the declarations. -/
def declarationRows (n : Numbering) (e : FileEntry) : List DeclarationRow :=
  ((n.declarations e.path).zip e.declarations).map fun (id, d) =>
    { d with
      id
      fileId := n.file e.path }

/-- The rows of the members, but for their own identities. -/
def memberRows (n : Numbering) (e : FileEntry) : List MemberRow :=
  e.members.map fun m =>
    { m with
      id := 0
      fileId := n.file e.path
      declarationId := (n.declarations e.path).getD m.declarationId 0 }

/-- The rows of the references, but for their own identities. -/
def referenceRows (n : Numbering) (e : FileEntry) : List ReferenceRow :=
  e.references.map fun r =>
    { r with
      id := 0
      fileId := n.file e.path }

/-- The entry of a file that is indexed with what it declares. -/
def ofInput (file : FileInput) (symbols : FileSymbols) : FileEntry :=
  { file := Index.FileRow.ofInput 0 file symbols
    declarations := symbols.declarations.map fun symbol =>
      { id := 0, fileId := 0, package := symbols.package, symbol }
    members := symbols.members.map fun symbol =>
      { id := 0, fileId := 0, declarationId := symbol.declIndex, symbol }
    references := symbols.references.map fun symbol => { id := 0, fileId := 0, symbol } }

@[simp] theorem path_ofInput (file : FileInput) (symbols : FileSymbols) :
    (ofInput file symbols).path = file.path := rfl

@[simp] theorem path_fileRow (n : Numbering) (e : FileEntry) : (e.fileRow n).path = e.path := rfl

@[simp] theorem id_fileRow (n : Numbering) (e : FileEntry) : (e.fileRow n).id = n.file e.path := rfl

/-- The declarations of an entry belong to its file. -/
theorem fileId_of_mem_declarationRows {n : Numbering} {e : FileEntry} {d : DeclarationRow}
    (hd : d ∈ e.declarationRows n) : d.fileId = n.file e.path := by
  obtain ⟨p, -, rfl⟩ := List.mem_map.mp hd
  rfl

/-- The members of an entry belong to its file. -/
theorem fileId_of_mem_memberRows {n : Numbering} {e : FileEntry} {m : MemberRow}
    (hm : m ∈ e.memberRows n) : m.fileId = n.file e.path := by
  obtain ⟨p, -, rfl⟩ := List.mem_map.mp hm
  rfl

/-- The references of an entry belong to its file. -/
theorem fileId_of_mem_referenceRows {n : Numbering} {e : FileEntry} {r : ReferenceRow}
    (hr : r ∈ e.referenceRows n) : r.fileId = n.file e.path := by
  obtain ⟨p, -, rfl⟩ := List.mem_map.mp hr
  rfl

/-- The declarations of an entry have the identities of the numbering, in their order. -/
theorem ids_declarationRows {n : Numbering} {e : FileEntry}
    (hcount : (n.declarations e.path).length = e.declarations.length) :
    (e.declarationRows n).map (·.id) = n.declarations e.path := by
  unfold declarationRows
  rw [List.map_map]
  exact List.map_fst_zip (Nat.le_of_eq hcount)

end FileEntry

/-- The numbering with other identities for one path. -/
def Numbering.set (n : Numbering) (path : String) (file : Nat) (declarations : List Nat) :
    Numbering :=
  { file := Function.update n.file path file
    declarations := Function.update n.declarations path declarations }

section NumberingSet

variable {n : Numbering} {path : String} {file : Nat} {declarations : List Nat} {e : FileEntry}

/-- Numbering another path leaves the row of a file as it is. -/
@[simp]
theorem FileEntry.fileRow_set_of_ne (h : e.path ≠ path) :
    e.fileRow (n.set path file declarations) = e.fileRow n := by
  simp [fileRow, Numbering.set, h]

/-- Numbering another path leaves the rows of declarations as they are. -/
@[simp]
theorem FileEntry.declarationRows_set_of_ne (h : e.path ≠ path) :
    e.declarationRows (n.set path file declarations) = e.declarationRows n := by
  simp [declarationRows, Numbering.set, h]

/-- Numbering another path leaves the rows of members as they are. -/
@[simp]
theorem FileEntry.memberRows_set_of_ne (h : e.path ≠ path) :
    e.memberRows (n.set path file declarations) = e.memberRows n := by
  simp [memberRows, Numbering.set, h]

/-- Numbering another path leaves the rows of references as they are. -/
@[simp]
theorem FileEntry.referenceRows_set_of_ne (h : e.path ≠ path) :
    e.referenceRows (n.set path file declarations) = e.referenceRows n := by
  simp [referenceRows, Numbering.set, h]

end NumberingSet

namespace Index

/-- The rows of an index are those of the entries under a numbering. -/
structure StoredAs (ix : Index) (entries : List FileEntry) (n : Numbering) : Prop where
  paths : (entries.map (·.path)).Nodup
  owned : ∀ e ∈ entries, e.MembersOwned
  files : ix.files.Perm (entries.map (·.fileRow n))
  fileIds : (entries.map fun e => n.file e.path).Nodup
  declarations : ix.declarations.Perm (entries.flatMap (·.declarationRows n))
  declarationIds : (entries.flatMap fun e => n.declarations e.path).Nodup
  declarationCounts : ∀ e ∈ entries, (n.declarations e.path).length = e.declarations.length
  members : (ix.members.map fun m => { m with id := 0 }).Perm (entries.flatMap (·.memberRows n))
  memberIds : (ix.members.map (·.id)).Nodup
  references :
    (ix.references.map fun r => { r with id := 0 }).Perm (entries.flatMap (·.referenceRows n))
  referenceIds : (ix.references.map (·.id)).Nodup

/-- The entry of a path among some. -/
def entryAt (entries : List FileEntry) (path : String) : Option FileEntry :=
  entries.find? (·.path == path)

/-- The index keeps exactly these entries. -/
def Keeps (ix : Index) (known : String → Option FileEntry) : Prop :=
  ∃ entries n, ix.StoredAs entries n ∧ ∀ path, entryAt entries path = known path

/-! ## Identities -/

/-- The greatest of some numbers is not less than any of them. -/
theorem foldl_max_ge (ids : List Nat) (start : Nat) :
    start ≤ ids.foldl max start ∧ ∀ i ∈ ids, i ≤ ids.foldl max start := by
  induction ids generalizing start with
  | nil => simp
  | cons j ids ih =>
    obtain ⟨hstart, hrest⟩ := ih (max start j)
    rw [List.foldl_cons]
    refine ⟨by omega, ?_⟩
    intro i hi
    rcases List.mem_cons.mp hi with rfl | hi
    · omega
    · exact hrest i hi

/-- A fresh identity is above all others. -/
theorem lt_freshId {ids : List Nat} {i : Nat} (hi : i ∈ ids) : i < freshId ids := by
  have := (foldl_max_ge ids 0).2 i hi
  unfold freshId
  omega

/-- Values that are numbered are made of a number and a value each, in their order. -/
theorem numbered_eq_map_zip {α β : Type} (start : Nat) (make : Nat → α → β) (values : List α) :
    numbered start make values =
      ((List.range' start values.length).zip values).map fun (i, value) => make i value := by
  induction values generalizing start with
  | nil => rfl
  | cons value values ih =>
    have hrest := ih (start + 1)
    simp only [numbered, List.zipIdx_cons, List.map_cons, List.length_cons, List.range'_succ,
      List.zip_cons_cons] at hrest ⊢
    rw [← hrest, Nat.add_zero, List.zipIdx_succ, List.map_map]
    congr 1
    apply List.map_congr_left
    intro p _
    simp [Nat.add_assoc, Nat.add_comm 1]

/-! ## Looking up -/

section Lookup

variable {ρ κ : Type} [BEq κ] [LawfulBEq κ] {key : ρ → κ}

/-- Where keys are not repeated, a search by key finds the row that has it. -/
theorem find?_key_eq_some_iff {rows : List ρ} (hkeys : (rows.map key).Nodup) {k : κ} {r : ρ} :
    rows.find? (key · == k) = some r ↔ r ∈ rows ∧ key r = k := by
  induction rows with
  | nil => simp
  | cons a rows ih =>
    rw [List.map_cons, List.nodup_cons] at hkeys
    by_cases hak : key a = k
    · have hother : ∀ b ∈ rows, key b ≠ k := by
        intro b hb h
        exact hkeys.1 (List.mem_map.mpr ⟨b, hb, h.trans hak.symm⟩)
      rw [List.find?_cons_of_pos (by simpa using hak)]
      constructor
      · rintro ⟨⟩
        exact ⟨List.mem_cons_self, hak⟩
      · rintro ⟨hr, hrk⟩
        rcases List.mem_cons.mp hr with rfl | hr
        · rfl
        · exact absurd hrk (hother r hr)
    · rw [List.find?_cons_of_neg (by simpa using hak), ih hkeys.2, List.mem_cons]
      constructor
      · rintro ⟨hr, hrk⟩
        exact ⟨Or.inr hr, hrk⟩
      · rintro ⟨rfl | hr, hrk⟩
        · exact absurd hrk hak
        · exact ⟨hr, hrk⟩

/-- Where keys are not repeated, a search by key does not depend on the order. -/
theorem find?_key_eq_of_perm {rows others : List ρ} (hkeys : (rows.map key).Nodup)
    (hperm : rows.Perm others) (k : κ) : rows.find? (key · == k) = others.find? (key · == k) := by
  have hkeys' : (others.map key).Nodup := (hperm.map key).nodup_iff.mp hkeys
  apply Option.ext
  intro r
  rw [find?_key_eq_some_iff hkeys, find?_key_eq_some_iff hkeys', hperm.mem_iff]

end Lookup

section Lookup

variable {ix : Index} {entries : List FileEntry} {n : Numbering}

/-- The entry of a path is the one that has it. -/
theorem entryAt_eq_some_iff (hpaths : (entries.map (·.path)).Nodup) {path : String}
    {e : FileEntry} : entryAt entries path = some e ↔ e ∈ entries ∧ e.path = path :=
  find?_key_eq_some_iff hpaths

/-- A path has no entry if no entry has it. -/
@[simp]
theorem entryAt_eq_none_iff {path : String} :
    entryAt entries path = none ↔ ∀ e ∈ entries, e.path ≠ path := by
  simp [entryAt]

/-- The file at a path is the row of the entry of this path. -/
theorem StoredAs.file?_eq (h : ix.StoredAs entries n) (path : String) :
    ix.file? path = (entryAt entries path).map (·.fileRow n) := by
  have hkeys : (ix.files.map (·.path)).Nodup := by
    rw [(h.files.map (·.path)).nodup_iff, List.map_map]
    exact h.paths
  calc ix.file? path
      = (entries.map (·.fileRow n)).find? (·.path == path) :=
        find?_key_eq_of_perm hkeys h.files path
    _ = (entryAt entries path).map (·.fileRow n) := by
        rw [List.find?_map]
        rfl

/-- The row of a file is that of its entry, under some identity. -/
theorem Keeps.file?_eq {known : String → Option FileEntry} (h : ix.Keeps known) (path : String) :
    ∃ id, ix.file? path = (known path).map fun e => { e.file with id } := by
  obtain ⟨entries, n, hstored, hknown⟩ := h
  refine ⟨n.file path, ?_⟩
  rw [hstored.file?_eq, hknown]
  cases hk : known path with
  | none => rfl
  | some e =>
    have he := (entryAt_eq_some_iff hstored.paths).mp ((hknown path).trans hk)
    simp [FileEntry.fileRow, he.2]

/-- The identity for a path is that of no other file. -/
theorem StoredAs.file_eq_fileIdFor_iff (h : ix.StoredAs entries n) (path : String) :
    ∀ e ∈ entries, n.file e.path = ix.fileIdFor path ↔ e.path = path := by
  intro e he
  unfold fileIdFor
  rw [h.file?_eq]
  cases hat : entryAt entries path with
  | none =>
    have hne : e.path ≠ path := entryAt_eq_none_iff.mp hat e he
    -- a path without a file gets a number that no file has
    have hlt : n.file e.path < freshId (ix.files.map (·.id)) := by
      apply lt_freshId
      rw [(h.files.map (·.id)).mem_iff, List.map_map]
      exact List.mem_map.mpr ⟨e, he, rfl⟩
    simp only [Option.map_none]
    constructor
    · intro heq
      omega
    · intro heq
      exact absurd heq hne
  | some e' =>
    obtain ⟨he', rfl⟩ := (entryAt_eq_some_iff h.paths).mp hat
    simp only [Option.map_some, FileEntry.id_fileRow]
    constructor
    · intro heq
      have := List.inj_on_of_nodup_map h.fileIds he he' heq
      rw [this]
    · intro heq
      rw [heq]

end Lookup

/-! ## Dropping a file -/

section Drop

variable {ix : Index} {entries : List FileEntry} {n : Numbering}

/-- Leaving out the rows of a file leaves the rows of the other entries. -/
theorem filter_fileId_flatMap {ρ : Type} {fileId : ρ → Nat} {rows : FileEntry → List ρ} {id : Nat}
    {path : String} (hrows : ∀ e, ∀ r ∈ rows e, fileId r = n.file e.path)
    (hid : ∀ e ∈ entries, n.file e.path = id ↔ e.path = path) :
    (entries.flatMap rows).filter (fileId · != id) =
      (entries.filter (·.path != path)).flatMap rows := by
  induction entries with
  | nil => rfl
  | cons e entries ih =>
    have hrest := ih fun e' he' => hid e' (List.mem_cons_of_mem e he')
    rw [List.flatMap_cons, List.filter_append, hrest]
    by_cases hpath : e.path = path
    · have hnone : (rows e).filter (fileId · != id) = [] := by
        rw [List.filter_eq_nil_iff]
        intro r hr
        simp [hrows e r hr, (hid e List.mem_cons_self).mpr hpath]
      rw [hnone, List.filter_cons_of_neg (by simpa using hpath), List.nil_append]
    · have hall : (rows e).filter (fileId · != id) = rows e := by
        rw [List.filter_eq_self]
        intro r hr
        have hne : n.file e.path ≠ id := mt (hid e List.mem_cons_self).mp hpath
        simpa [hrows e r hr] using hne
      rw [hall, List.filter_cons_of_pos (by simpa using hpath), List.flatMap_cons]

/-- Leaving out the file at a path leaves the other entries as they are. -/
theorem StoredAs.without (h : ix.StoredAs entries n) {path : String} {id : Nat}
    (hid : ∀ e ∈ entries, n.file e.path = id ↔ e.path = path) :
    StoredAs { ix.withoutSymbols id with files := ix.files.filter (·.path != path) }
      (entries.filter (·.path != path)) n := by
  have hsub : (entries.filter (·.path != path)).Sublist entries := List.filter_sublist
  constructor
  case paths =>
    exact h.paths.sublist (hsub.map _)
  case owned =>
    intro e he
    exact h.owned e (hsub.subset he)
  case files =>
    have := h.files.filter (·.path != path)
    rwa [List.filter_map] at this
  case fileIds =>
    exact h.fileIds.sublist (hsub.map _)
  case declarations =>
    have := h.declarations.filter (·.fileId != id)
    rwa [filter_fileId_flatMap (fun e _ => e.fileId_of_mem_declarationRows) hid] at this
  case declarationIds =>
    exact h.declarationIds.sublist (hsub.flatMap _)
  case declarationCounts =>
    intro e he
    exact h.declarationCounts e (hsub.subset he)
  case members =>
    have := h.members.filter (·.fileId != id)
    rwa [filter_fileId_flatMap (fun e _ => e.fileId_of_mem_memberRows) hid,
      List.filter_map] at this
  case memberIds =>
    exact h.memberIds.sublist (List.filter_sublist.map _)
  case references =>
    have := h.references.filter (·.fileId != id)
    rwa [filter_fileId_flatMap (fun e _ => e.fileId_of_mem_referenceRows) hid,
      List.filter_map] at this
  case referenceIds =>
    exact h.referenceIds.sublist (List.filter_sublist.map _)

/-- Leaving out the entry of a path leaves those of all others. -/
theorem entryAt_filter (entries : List FileEntry) (path other : String) :
    entryAt (entries.filter (·.path != path)) other =
      if other = path then none else entryAt entries other := by
  unfold entryAt
  rw [List.find?_filter]
  split
  next h =>
    subst h
    simp
  next h =>
    congr 1
    funext e
    by_cases he : e.path = other
    · simp [he, h]
    · simp [he]

/-- Dropping a file takes its entry away and tells whether there was one. -/
theorem Keeps.deleteFile {known : String → Option FileEntry} (h : ix.Keeps known) (path : String) :
    (ix.deleteFile path).1.Keeps (Function.update known path none) ∧
      (ix.deleteFile path).2 = (known path).isSome := by
  obtain ⟨entries, n, hstored, hknown⟩ := h
  unfold Index.deleteFile
  rw [hstored.file?_eq, hknown]
  cases hk : known path with
  | none =>
    have hsame : Function.update known path none = known := by
      rw [← hk, Function.update_eq_self]
    rw [hsame]
    exact ⟨⟨entries, n, hstored, hknown⟩, rfl⟩
  | some e =>
    obtain ⟨he, rfl⟩ := (entryAt_eq_some_iff hstored.paths).mp ((hknown path).trans hk)
    refine ⟨⟨entries.filter (·.path != e.path), n, ?_, ?_⟩, rfl⟩
    · apply hstored.without
      intro e' he'
      constructor
      · intro heq
        rw [List.inj_on_of_nodup_map hstored.fileIds he' he heq]
      · intro heq
        rw [FileEntry.id_fileRow, heq]
    · intro other
      rw [entryAt_filter, hknown, Function.update_apply]

end Drop

/-! ## Replacing a file -/

section Replace

variable {ix : Index} {entries : List FileEntry} {n : Numbering}

/-- New rows keep the identities of a table apart. -/
theorem nodup_ids_append_numbered {ρ α : Type} {id : ρ → Nat} {rows : List ρ}
    (hrows : (rows.map id).Nodup) {make : Nat → α → ρ} (hmake : ∀ i a, id (make i a) = i)
    (values : List α) :
    ((rows ++ numbered (freshId (rows.map id)) make values).map id).Nodup := by
  -- the new identities follow one another, from a fresh one on
  have hnew : (numbered (freshId (rows.map id)) make values).map id =
      List.range' (freshId (rows.map id)) values.length := by
    rw [numbered_eq_map_zip, List.map_map]
    have hfst : (id ∘ fun p : Nat × α => make p.1 p.2) = Prod.fst := by
      funext p
      exact hmake p.1 p.2
    rw [hfst]
    exact List.map_fst_zip (by simp)
  rw [List.map_append, hnew, List.nodup_append]
  refine ⟨hrows, List.nodup_range', ?_⟩
  intro i hi j hj
  have hlt := lt_freshId hi
  rw [List.mem_range'_1] at hj
  omega

/-- Where no file has a path, none is left out for it. -/
theorem filter_path_eq_self {files : List FileRow} {path : String}
    (h : ∀ f ∈ files, f.path ≠ path) : files.filter (·.path != path) = files := by
  rw [List.filter_eq_self]
  intro f hf
  simpa using h f hf

/-- The row of a file is put in place of that at its path, or at the end. -/
theorem putFile_perm {files : List FileRow} (hpaths : (files.map (·.path)).Nodup) (row : FileRow) :
    (putFile row files).Perm (row :: files.filter (·.path != row.path)) := by
  unfold putFile
  split
  next hany =>
    -- the row is replaced where it stands, as the only one with its path
    obtain ⟨old, hold, hpath⟩ := List.any_eq_true.mp hany
    clear hany
    rw [beq_iff_eq] at hpath
    induction files with
    | nil => cases hold
    | cons f files ih =>
      rw [List.map_cons, List.nodup_cons] at hpaths
      rw [List.map_cons]
      by_cases hf : f.path = row.path
      · have hothers : ∀ g ∈ files, g.path ≠ row.path := by
          intro g hg hgp
          exact hpaths.1 (List.mem_map.mpr ⟨g, hg, hgp.trans hf.symm⟩)
        have hmap : files.map (fun g => if g.path == row.path then row else g) = files := by
          conv_rhs => rw [← List.map_id files]
          apply List.map_congr_left
          intro g hg
          simp [hothers g hg]
        rw [hmap, List.filter_cons_of_neg (by simpa using hf), filter_path_eq_self hothers]
        simp [hf]
      · have hold' : old ∈ files := by
          rcases List.mem_cons.mp hold with rfl | h
          · exact absurd hpath hf
          · exact h
        rw [List.filter_cons_of_pos (by simpa using hf)]
        rw [if_neg (by simpa using hf)]
        exact ((ih hpaths.2 hold').cons f).trans (List.Perm.swap row f _)
  next hany =>
    have hothers : ∀ f ∈ files, f.path ≠ row.path := by
      intro f hf
      simpa using List.any_eq_false.mp (Bool.eq_false_iff.mpr hany) f hf
    rw [filter_path_eq_self hothers]
    exact List.perm_append_singleton row files

/-- What does not depend on numbers is told by the values. -/
theorem map_numbered {α β γ : Type} {start : Nat} {make : Nat → α → β} {f : β → γ} {g : α → γ}
    (hf : ∀ i a, f (make i a) = g a) (values : List α) :
    (numbered start make values).map f = values.map g := by
  unfold numbered
  rw [List.map_map]
  have hcomp : (f ∘ fun p : α × Nat => make (start + p.2) p.1) = g ∘ Prod.fst := by
    funext p
    exact hf _ _
  rw [hcomp, ← List.map_map, List.zipIdx_map_fst]

/-- The value at a place is numbered by it. -/
theorem getElem?_numbered {α β : Type} (start : Nat) (make : Nat → α → β) (values : List α)
    (i : Nat) : (numbered start make values)[i]? = values[i]?.map (make (start + i)) := by
  unfold numbered
  rw [List.getElem?_map, List.getElem?_zipIdx, Option.map_map, Nat.zero_add]
  rfl

/-- What holds of all that can be made holds of what is made. -/
theorem of_mem_numbered {α β : Type} {start : Nat} {make : Nat → α → β} {p : β → Prop}
    (hmake : ∀ i a, p (make i a)) {values : List α} {b : β} (hb : b ∈ numbered start make values) :
    p b := by
  obtain ⟨v, -, rfl⟩ := List.mem_map.mp hb
  exact hmake _ _

/-- The rows of one file are replaced, and those of the others stay. -/
theorem filter_replaced {ρ : Type} (fileId : ρ → Nat) (rows : List ρ) {added : List ρ} {id : Nat}
    (hadded : ∀ r ∈ added, fileId r = id) (other : Nat) :
    (rows.filter (fileId · != id) ++ added).filter (fileId · == other) =
      if other = id then added else rows.filter (fileId · == other) := by
  rw [List.filter_append, List.filter_filter]
  split
  next heq =>
    have hnone : rows.filter (fun r => fileId r == other && fileId r != id) = [] := by
      rw [List.filter_eq_nil_iff]
      intro r _
      simp [heq]
    have hall : added.filter (fileId · == other) = added := by
      rw [List.filter_eq_self]
      intro r hr
      simp [hadded r hr, heq]
    rw [hnone, hall, List.nil_append]
  next hne =>
    have hothers : rows.filter (fun r => fileId r == other && fileId r != id) =
        rows.filter (fileId · == other) := by
      apply List.filter_congr
      intro r _
      by_cases hr : fileId r = other
      · simp [hr, hne]
      · simp [hr]
    have hnone : added.filter (fileId · == other) = [] := by
      rw [List.filter_eq_nil_iff]
      intro r hr
      simp [hadded r hr, Ne.symm hne]
    rw [hothers, hnone, List.append_nil]

/-- The rows of one file are dropped, and those of the others stay. -/
theorem filter_dropped {ρ : Type} (fileId : ρ → Nat) (rows : List ρ) (id other : Nat) :
    (rows.filter (fileId · != id)).filter (fileId · == other) =
      if other = id then [] else rows.filter (fileId · == other) := by
  have hnone : ∀ r ∈ ([] : List ρ), fileId r = id := by simp
  have := filter_replaced fileId rows hnone other
  rwa [List.append_nil] at this

/-- The identity given to a path is that of no file at another. -/
theorem fileIdFor_ne (hpaths : (ix.files.map (·.path)).Nodup) (hids : (ix.files.map (·.id)).Nodup)
    {path : String} {f : FileRow} (hf : f ∈ ix.files) (hne : f.path ≠ path) :
    f.id ≠ ix.fileIdFor path := by
  unfold fileIdFor
  split
  next row hrow =>
    obtain ⟨hmem, hpath⟩ := (find?_key_eq_some_iff hpaths).mp hrow
    intro hid
    exact hne ((List.inj_on_of_nodup_map hids hf hmem hid) ▸ hpath)
  next =>
    have hlt : f.id < freshId (ix.files.map (·.id)) := lt_freshId (List.mem_map_of_mem hf)
    omega

/-- Whatever stood at its path before, and were it more than one row, the row is found there. -/
@[simp]
theorem find?_putFile (row : FileRow) (files : List FileRow) :
    (putFile row files).find? (·.path == row.path) = some row := by
  unfold putFile
  split
  next hany =>
    obtain ⟨old, hold⟩ := Option.isSome_iff_exists.mp (List.find?_isSome.mpr
      (List.any_eq_true.mp hany))
    -- the replacement does not change at which rows the path is found
    have hsame : (fun f : FileRow => f.path == row.path) ∘
        (fun f => if f.path == row.path then row else f) = (·.path == row.path) := by
      funext f
      by_cases hf : f.path = row.path <;> simp [hf]
    rw [List.find?_map, hsame, hold, Option.map_some, if_pos (List.find?_some hold)]
  next hnone =>
    have hothers : files.find? (·.path == row.path) = none := by simpa using hnone
    simp [List.find?_append, hothers]

/-- The rows are the new one and those at other paths. -/
theorem mem_putFile {files : List FileRow} (hpaths : (files.map (·.path)).Nodup) (row : FileRow)
    {f : FileRow} : f ∈ putFile row files ↔ f = row ∨ f ∈ files ∧ f.path ≠ row.path := by
  rw [(putFile_perm hpaths row).mem_iff, List.mem_cons, List.mem_filter, bne_iff_ne]

/-- No path is there twice. -/
theorem nodup_paths_putFile {files : List FileRow} (hpaths : (files.map (·.path)).Nodup)
    (row : FileRow) : ((putFile row files).map (·.path)).Nodup := by
  refine ((putFile_perm hpaths row).map _).nodup_iff.mpr (List.nodup_cons.mpr ⟨?_, ?_⟩)
  · intro hmem
    obtain ⟨f, hf, hpath⟩ := List.mem_map.mp hmem
    exact bne_iff_ne.mp (List.mem_filter.mp hf).2 hpath
  · exact hpaths.sublist (List.filter_sublist.map _)

/-- A row with an identity of no other path keeps identities apart. -/
theorem nodup_ids_putFile {files : List FileRow} (hpaths : (files.map (·.path)).Nodup)
    (hids : (files.map (·.id)).Nodup) {row : FileRow}
    (hrow : ∀ f ∈ files, f.path ≠ row.path → f.id ≠ row.id) :
    ((putFile row files).map (·.id)).Nodup := by
  refine ((putFile_perm hpaths row).map _).nodup_iff.mpr (List.nodup_cons.mpr ⟨?_, ?_⟩)
  · intro hmem
    obtain ⟨f, hf, hid⟩ := List.mem_map.mp hmem
    obtain ⟨hf, hne⟩ := List.mem_filter.mp hf
    exact hrow f hf (bne_iff_ne.mp hne) hid
  · exact hids.sublist (List.filter_sublist.map _)

section OfInput

variable {file : FileInput} {symbols : FileSymbols} {id first : Nat}

/-- The declarations of a file that is indexed are numbered in their order. -/
theorem declarationRows_ofInput (hfile : n.file file.path = id)
    (hids : n.declarations file.path = List.range' first symbols.declarations.length) :
    (FileEntry.ofInput file symbols).declarationRows n =
      numbered first (fun i symbol => { id := i, fileId := id, symbol, package := symbols.package })
        symbols.declarations := by
  unfold FileEntry.declarationRows
  rw [FileEntry.path_ofInput, hfile, hids, numbered_eq_map_zip]
  simp [FileEntry.ofInput, List.zip_map_right, List.map_map, Function.comp_def]

/-- The members of a file that is indexed name the numbers of their declarations. -/
theorem memberRows_ofInput (hfile : n.file file.path = id)
    (hids : n.declarations file.path = List.range' first symbols.declarations.length)
    (howned : ∀ m ∈ symbols.members, m.declIndex < symbols.declarations.length) :
    (FileEntry.ofInput file symbols).memberRows n =
      symbols.members.map fun symbol =>
        { id := 0, fileId := id, symbol, declarationId := first + symbol.declIndex } := by
  unfold FileEntry.memberRows
  rw [FileEntry.path_ofInput, hfile, hids]
  simp only [FileEntry.ofInput, List.map_map]
  apply List.map_congr_left
  intro symbol hsymbol
  -- the declaration at a place has the first number and so many more
  have hplace : (List.range' first symbols.declarations.length)[symbol.declIndex]? =
      some (first + symbol.declIndex) := by
    rw [List.getElem?_range' (howned symbol hsymbol), Nat.one_mul]
  simp [hplace]

/-- The references of a file that is indexed belong to it. -/
theorem referenceRows_ofInput (hfile : n.file file.path = id) :
    (FileEntry.ofInput file symbols).referenceRows n =
      symbols.references.map fun symbol => { id := 0, fileId := id, symbol } := by
  unfold FileEntry.referenceRows
  rw [FileEntry.path_ofInput, hfile]
  simp [FileEntry.ofInput, List.map_map, Function.comp_def]

end OfInput

/-- The identities of declarations are those of the numbering. -/
theorem StoredAs.ids_declarations (h : ix.StoredAs entries n) :
    (ix.declarations.map (·.id)).Perm (entries.flatMap fun e => n.declarations e.path) := by
  have := h.declarations.map (·.id)
  rw [List.map_flatMap] at this
  rwa [List.flatMap_congr fun e he =>
    FileEntry.ids_declarationRows (h.declarationCounts e he)] at this

/-- Adding the rows of a file that is not there yet adds its entry. -/
theorem StoredAs.add (h : ix.StoredAs entries n) {file : FileInput} {symbols : FileSymbols}
    {id : Nat} (hpath : ∀ e ∈ entries, e.path ≠ file.path)
    (hid : ∀ e ∈ entries, n.file e.path ≠ id)
    (howned : ∀ m ∈ symbols.members, m.declIndex < symbols.declarations.length)
    {files : List FileRow} (hfiles : files.Perm (FileRow.ofInput id file symbols :: ix.files)) :
    ∃ n', StoredAs ({ ix with files }.addSymbols id symbols)
      (FileEntry.ofInput file symbols :: entries) n' := by
  let first := freshId (ix.declarations.map (·.id))
  let ids := List.range' first symbols.declarations.length
  let n' := n.set file.path id ids
  -- only the path of the file is numbered anew, so the rows of the other entries are as they were
  have hfile : n'.file file.path = id := by simp [n', Numbering.set]
  have hids : n'.declarations file.path = ids := by simp [n', Numbering.set]
  have hold : ∀ e ∈ entries, n'.file e.path = n.file e.path := by
    intro e he
    simp [n', Numbering.set, hpath e he]
  have holdIds : ∀ e ∈ entries, n'.declarations e.path = n.declarations e.path := by
    intro e he
    simp [n', Numbering.set, hpath e he]
  refine ⟨n', ?_⟩
  constructor
  case paths =>
    rw [List.map_cons, List.nodup_cons]
    refine ⟨?_, h.paths⟩
    intro hmem
    obtain ⟨e, he, heq⟩ := List.mem_map.mp hmem
    exact hpath e he heq
  case owned =>
    intro e he
    rcases List.mem_cons.mp he with rfl | he
    · intro m hm
      obtain ⟨symbol, hsymbol, rfl⟩ := List.mem_map.mp hm
      simpa [FileEntry.ofInput] using howned symbol hsymbol
    · exact h.owned e he
  case files =>
    have hrow : (FileEntry.ofInput file symbols).fileRow n' = FileRow.ofInput id file symbols := by
      unfold FileEntry.fileRow
      rw [FileEntry.path_ofInput, hfile]
      rfl
    rw [List.map_cons, hrow, List.map_congr_left fun e he =>
      FileEntry.fileRow_set_of_ne (hpath e he)]
    exact hfiles.trans (h.files.cons _)
  case fileIds =>
    rw [List.map_cons, List.nodup_cons, List.map_congr_left hold, FileEntry.path_ofInput, hfile]
    refine ⟨?_, h.fileIds⟩
    intro hmem
    obtain ⟨e, he, heq⟩ := List.mem_map.mp hmem
    exact hid e he heq
  case declarations =>
    rw [List.flatMap_cons, declarationRows_ofInput hfile hids, List.flatMap_congr fun e he =>
      FileEntry.declarationRows_set_of_ne (hpath e he)]
    exact List.perm_append_comm.trans (h.declarations.append_left _)
  case declarationIds =>
    rw [List.flatMap_cons, FileEntry.path_ofInput, hids, List.flatMap_congr holdIds,
      List.nodup_append]
    refine ⟨List.nodup_range', h.declarationIds, ?_⟩
    -- new identities lie above all that are taken
    intro i hi j hj
    have hlt : j < first := lt_freshId (h.ids_declarations.mem_iff.mpr hj)
    have hge : first ≤ i := (List.mem_range'_1.mp hi).1
    omega
  case declarationCounts =>
    intro e he
    rcases List.mem_cons.mp he with rfl | he
    · rw [FileEntry.path_ofInput, hids]
      simp [ids, FileEntry.ofInput]
    · rw [holdIds e he]
      exact h.declarationCounts e he
  case members =>
    rw [List.flatMap_cons, memberRows_ofInput hfile hids howned, List.flatMap_congr fun e he =>
      FileEntry.memberRows_set_of_ne (hpath e he)]
    unfold addSymbols
    rw [List.map_append, map_numbered (g := fun symbol => (
      { id := 0, fileId := id, symbol, declarationId := first + symbol.declIndex } : MemberRow))
      fun _ _ => rfl]
    exact List.perm_append_comm.trans (h.members.append_left _)
  case memberIds =>
    exact nodup_ids_append_numbered h.memberIds (fun _ _ => rfl) symbols.members
  case references =>
    rw [List.flatMap_cons, referenceRows_ofInput hfile, List.flatMap_congr fun e he =>
      FileEntry.referenceRows_set_of_ne (hpath e he)]
    unfold addSymbols
    rw [List.map_append, map_numbered (g := fun symbol => (
      { id := 0, fileId := id, symbol } : ReferenceRow)) fun _ _ => rfl]
    exact List.perm_append_comm.trans (h.references.append_left _)
  case referenceIds =>
    exact nodup_ids_append_numbered h.referenceIds (fun _ _ => rfl) symbols.references

/-- A new entry is found at its path. -/
theorem entryAt_cons (e : FileEntry) (entries : List FileEntry) (other : String) :
    entryAt (e :: entries) other = if other = e.path then some e else entryAt entries other := by
  unfold entryAt
  by_cases h : other = e.path
  · simp [h]
  · rw [List.find?_cons_of_neg (by simpa using Ne.symm h), if_neg h]

/-- A file whose members all have a declaration can be stored. -/
theorem replaceFile_of_owned (ix : Index) (file : FileInput) {symbols : FileSymbols}
    (howned : ∀ m ∈ symbols.members, m.declIndex < symbols.declarations.length) :
    let id := ix.fileIdFor file.path
    let placed := { ix with files := putFile (FileRow.ofInput id file symbols) ix.files }
    ix.replaceFile file symbols =
      .ok ((placed.withoutSymbols id).addSymbols id symbols, countsOf symbols) := by
  have hnone : symbols.members.find? (fun m => symbols.declarations.length ≤ m.declIndex) =
      none := by
    rw [List.find?_eq_none]
    intro m hm
    simpa using howned m hm
  rw [Index.replaceFile, hnone]

/-- The entry of a file that is stored takes the place of the one at its path. -/
theorem Keeps.replaceFile {known : String → Option FileEntry} (h : ix.Keeps known)
    (file : FileInput) {symbols : FileSymbols}
    (howned : ∀ m ∈ symbols.members, m.declIndex < symbols.declarations.length) :
    ∃ ix', ix.replaceFile file symbols = .ok (ix', countsOf symbols) ∧
      ix'.Keeps (Function.update known file.path (some (.ofInput file symbols))) := by
  obtain ⟨entries, n, hstored, hknown⟩ := h
  have hid := hstored.file_eq_fileIdFor_iff file.path
  -- the old entry is taken out first, and then the new one is added
  have hothers := hstored.without hid
  have hpaths : (ix.files.map (·.path)).Nodup := by
    rw [(hstored.files.map (·.path)).nodup_iff, List.map_map]
    exact hstored.paths
  obtain ⟨n', hadded⟩ := hothers.add
    (by
      intro e he
      simpa using (List.mem_filter.mp he).2)
    (by
      intro e he
      obtain ⟨he, hne⟩ := List.mem_filter.mp he
      exact mt (hid e he).mp (by simpa using hne))
    howned (putFile_perm hpaths (FileRow.ofInput (ix.fileIdFor file.path) file symbols))
  refine ⟨_, replaceFile_of_owned ix file howned, _, n', hadded, ?_⟩
  intro other
  rw [entryAt_cons, FileEntry.path_ofInput, entryAt_filter, hknown, Function.update_apply]
  split <;> rfl

end Replace

/-! ## Other changes -/

section Others

variable {ix ix' : Index} {known : String → Option FileEntry}

/-- What is kept depends on four tables only. -/
theorem Keeps.of_tables_eq (h : ix.Keeps known) (hfiles : ix'.files = ix.files)
    (hdeclarations : ix'.declarations = ix.declarations) (hmembers : ix'.members = ix.members)
    (hreferences : ix'.references = ix.references) : ix'.Keeps known := by
  obtain ⟨entries, n, hstored, hknown⟩ := h
  refine ⟨entries, n, ?_, hknown⟩
  exact
    { hstored with
      files := by rw [hfiles]; exact hstored.files
      declarations := by rw [hdeclarations]; exact hstored.declarations
      members := by rw [hmembers]; exact hstored.members
      memberIds := by rw [hmembers]; exact hstored.memberIds
      references := by rw [hreferences]; exact hstored.references
      referenceIds := by rw [hreferences]; exact hstored.referenceIds }

/-- An empty index keeps nothing. -/
theorem keeps_empty : Keeps {} fun _ => none := by
  refine ⟨[], ⟨fun _ => 0, fun _ => []⟩, ?_, fun _ => rfl⟩
  constructor <;> simp

/-- The note that files were indexed changes nothing that is kept. -/
theorem Keeps.noteIndexed (h : ix.Keeps known) : ix.noteIndexed.Keeps known :=
  h.of_tables_eq rfl rfl rfl rfl

/-- Diagnostics change nothing that is kept. -/
theorem Keeps.replaceMarkers (h : ix.Keeps known) {path : String} {markers : List Marker}
    (hix' : ix.replaceMarkers path markers = .ok ix') : ix'.Keeps known := by
  unfold Index.replaceMarkers at hix'
  split at hix'
  · cases hix'
  · cases hix'
    exact h.of_tables_eq rfl rfl rfl rfl

end Others

end Index

/-- The entry, to be indexed again in any case. -/
def FileEntry.cleared (e : FileEntry) : FileEntry :=
  { e with file := { e.file with digest := .cleared } }

/-- Bringing an index to the present form clears the digest of every file, and nothing else. -/
theorem Index.StoredAs.upgrade {ix : Index} {entries : List FileEntry} {n : Numbering}
    (h : ix.StoredAs entries n) : ix.upgrade.StoredAs (entries.map (·.cleared)) n := by
  constructor
  case paths =>
    rw [List.map_map]
    exact h.paths
  case owned =>
    intro e he
    obtain ⟨old, hold, rfl⟩ := List.mem_map.mp he
    exact h.owned old hold
  case files =>
    have hfiles := h.files.map fun f => { f with digest := Digest.cleared }
    rw [List.map_map] at hfiles ⊢
    exact hfiles
  case fileIds =>
    rw [List.map_map]
    exact h.fileIds
  case declarations =>
    rw [List.flatMap_map]
    exact h.declarations
  case declarationIds =>
    rw [List.flatMap_map]
    exact h.declarationIds
  case declarationCounts =>
    intro e he
    obtain ⟨old, hold, rfl⟩ := List.mem_map.mp he
    exact h.declarationCounts old hold
  case members =>
    rw [List.flatMap_map]
    exact h.members
  case memberIds => exact h.memberIds
  case references =>
    rw [List.flatMap_map]
    exact h.references
  case referenceIds => exact h.referenceIds

/-- Bringing an index to the present form clears every entry. -/
theorem Index.Keeps.upgrade {ix : Index} {known : String → Option FileEntry} (h : ix.Keeps known) :
    ix.upgrade.Keeps fun path => (known path).map (·.cleared) := by
  obtain ⟨entries, n, hstored, hknown⟩ := h
  refine ⟨entries.map (·.cleared), n, hstored.upgrade, ?_⟩
  intro path
  show _ = (known path).map _
  rw [← hknown]
  exact List.find?_map

end JavaAtlas
