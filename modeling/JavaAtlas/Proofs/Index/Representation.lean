import JavaAtlas.Proofs.Index.Entries

namespace JavaAtlas.Index

/-! # Indexes as maps

What an index keeps decides its rows up to identities, and every index in which identities are in
order keeps something.

* `Keeps.sameRows`: two indexes that keep the same have the same rows;
* `SameRows.keeps`: what is kept is the same for indexes with the same rows;
* `Sound.exists_keeps`: an index in which no identity is doubled or leads nowhere keeps a map.
-/

/-! ## The rows are decided -/

/-- Lists of the same lengths that are equal together are equal one by one. -/
theorem map_eq_of_map_flatMap_eq {α β γ : Type} {f : α → β} {g : γ → List α} {h : γ → List β}
    {l : List γ} (hlength : ∀ c ∈ l, (g c).length = (h c).length)
    (heq : (l.flatMap g).map f = l.flatMap h) : ∀ c ∈ l, (g c).map f = h c := by
  induction l with
  | nil =>
    intro c hc
    cases hc
  | cons a l ih =>
    rw [List.flatMap_cons, List.flatMap_cons, List.map_append] at heq
    obtain ⟨hhead, hrest⟩ := List.append_inj heq
      (by rw [List.length_map]; exact hlength a List.mem_cons_self)
    intro c hc
    rcases List.mem_cons.mp hc with rfl | hc
    · exact hhead
    · exact ih (fun c hc => hlength c (List.mem_cons_of_mem a hc)) hrest c hc

section Unique

variable {a b : Index} {entries : List FileEntry} {n n' : Numbering}

/-- A renaming of files and declarations takes one numbering to the other. -/
structure Carries (n n' : Numbering) (entries : List FileEntry) (file declaration : Nat → Nat) :
    Prop where
  files : ∀ e ∈ entries, file (n.file e.path) = n'.file e.path
  declarations : ∀ e ∈ entries, (n.declarations e.path).map declaration = n'.declarations e.path

/-- Between two numberings of the same entries there is a renaming. -/
theorem StoredAs.exists_carries (ha : a.StoredAs entries n) (hb : b.StoredAs entries n') :
    ∃ file declaration : Equiv.Perm Nat, Carries n n' entries file declaration := by
  have hcounts : ∀ e ∈ entries,
      (n.declarations e.path).length = (n'.declarations e.path).length := by
    intro e he
    rw [ha.declarationCounts e he, hb.declarationCounts e he]
  obtain ⟨file, hfile⟩ := exists_perm_map_eq ha.fileIds hb.fileIds (by simp)
  -- both numberings number as many declarations, file by file
  have hlength : (entries.flatMap fun e => n.declarations e.path).length =
      (entries.flatMap fun e => n'.declarations e.path).length := by
    rw [List.length_flatMap, List.length_flatMap, List.map_congr_left hcounts]
  obtain ⟨declaration, hdeclaration⟩ :=
    exists_perm_map_eq ha.declarationIds hb.declarationIds hlength
  refine ⟨file, declaration, ?_, ?_⟩
  · rw [List.map_map] at hfile
    exact List.map_inj_left.mp hfile
  · exact map_eq_of_map_flatMap_eq hcounts hdeclaration

section Carries

variable {file declaration : Nat → Nat}

/-- A renaming takes the rows of files to those of the other numbering. -/
theorem Carries.map_files (h : Carries n n' entries file declaration) :
    (entries.map (·.fileRow n)).map (·.renamed file) = entries.map (·.fileRow n') := by
  rw [List.map_map]
  apply List.map_congr_left
  intro e he
  simp [FileEntry.fileRow, FileRow.renamed, h.files e he]

/-- A renaming takes the rows of declarations to those of the other numbering. -/
theorem Carries.map_declarations (h : Carries n n' entries file declaration) :
    (entries.flatMap (·.declarationRows n)).map (·.renamed file declaration) =
      entries.flatMap (·.declarationRows n') := by
  rw [List.map_flatMap]
  apply List.flatMap_congr
  intro e he
  unfold FileEntry.declarationRows
  rw [← h.declarations e he, ← h.files e he, List.zip_map_left, List.map_map, List.map_map]
  rfl

/-- A renaming takes the rows of members to those of the other numbering. -/
theorem Carries.map_members (h : Carries n n' entries file declaration)
    (howned : ∀ e ∈ entries, ∀ m ∈ e.members, m.declarationId < (n.declarations e.path).length) :
    (entries.flatMap (·.memberRows n)).map (·.renamed file declaration id) =
      entries.flatMap (·.memberRows n') := by
  rw [List.map_flatMap]
  apply List.flatMap_congr
  intro e he
  unfold FileEntry.memberRows
  rw [← h.declarations e he, ← h.files e he, List.map_map]
  apply List.map_congr_left
  intro m hm
  -- a member is renamed with the declaration at its place
  have hplace : ((n.declarations e.path).map declaration).getD m.declarationId 0 =
      declaration ((n.declarations e.path).getD m.declarationId 0) := by
    simp [List.getD_eq_getElem?_getD, List.getElem?_eq_getElem (howned e he m hm)]
  simp only [Function.comp_apply, MemberRow.renamed, hplace, id_eq]

/-- A renaming takes the rows of references to those of the other numbering. -/
theorem Carries.map_references (h : Carries n n' entries file declaration) :
    (entries.flatMap (·.referenceRows n)).map (·.renamed file id) =
      entries.flatMap (·.referenceRows n') := by
  rw [List.map_flatMap]
  apply List.flatMap_congr
  intro e he
  unfold FileEntry.referenceRows
  rw [← h.files e he, List.map_map]
  rfl

end Carries

/-- Every member names a declaration that has an identity. -/
theorem StoredAs.lt_length_of_mem_members (h : a.StoredAs entries n) :
    ∀ e ∈ entries, ∀ m ∈ e.members, m.declarationId < (n.declarations e.path).length := by
  intro e he m hm
  rw [h.declarationCounts e he]
  exact h.owned e he m hm

/-- The rows of two indexes with the same entries are the same up to identities. -/
theorem StoredAs.sameRows (ha : a.StoredAs entries n) (hb : b.StoredAs entries n') :
    SameRows a b := by
  obtain ⟨file, declaration, h⟩ := ha.exists_carries hb
  have hmembers : ((a.members.map (·.renamed file declaration id)).map
      fun m => { m with id := 0 }).Perm (b.members.map fun m => { m with id := 0 }) := by
    have := ha.members.map (·.renamed file declaration id)
    rw [h.map_members ha.lt_length_of_mem_members] at this
    rw [List.map_map] at this ⊢
    exact this.trans hb.members.symm
  have hreferences : ((a.references.map (·.renamed file id)).map
      fun r => { r with id := 0 }).Perm (b.references.map fun r => { r with id := 0 }) := by
    have := ha.references.map (·.renamed file id)
    rw [h.map_references] at this
    rw [List.map_map] at this ⊢
    exact this.trans hb.references.symm
  -- nothing refers to members and references, so their identities are matched last
  obtain ⟨member, hmember⟩ := exists_renaming MemberRow.id
    (fun i m => { m with id := i }) (fun _ => rfl) (fun _ _ _ => rfl)
    (by rw [List.map_map]; exact ha.memberIds) hb.memberIds hmembers
  obtain ⟨reference, hreference⟩ := exists_renaming ReferenceRow.id
    (fun i r => { r with id := i }) (fun _ => rfl) (fun _ _ _ => rfl)
    (by rw [List.map_map]; exact ha.referenceIds) hb.referenceIds hreferences
  refine ⟨file, declaration, member, reference, ?_, ?_, ?_, ?_⟩
  · have := ha.files.map (·.renamed file)
    rw [h.map_files] at this
    exact this.trans hb.files.symm
  · have := ha.declarations.map (·.renamed file declaration)
    rw [h.map_declarations] at this
    exact this.trans hb.declarations.symm
  · rwa [List.map_map] at hmember
  · rwa [List.map_map] at hreference

/-- The order of entries does not matter. -/
theorem StoredAs.perm (h : a.StoredAs entries n) {others : List FileEntry}
    (hperm : entries.Perm others) : a.StoredAs others n where
  paths := (hperm.map _).nodup_iff.mp h.paths
  owned := fun e he => h.owned e (hperm.mem_iff.mpr he)
  files := h.files.trans (hperm.map _)
  fileIds := (hperm.map _).nodup_iff.mp h.fileIds
  declarations := h.declarations.trans (hperm.flatMap_right _)
  declarationIds := (hperm.flatMap_right _).nodup_iff.mp h.declarationIds
  declarationCounts := fun e he => h.declarationCounts e (hperm.mem_iff.mpr he)
  members := h.members.trans (hperm.flatMap_right _)
  memberIds := h.memberIds
  references := h.references.trans (hperm.flatMap_right _)
  referenceIds := h.referenceIds

/-- Entries that are the same path by path are the same up to their order. -/
theorem perm_of_entryAt_eq {others : List FileEntry} (hpaths : (entries.map (·.path)).Nodup)
    (hothers : (others.map (·.path)).Nodup)
    (heq : ∀ path, entryAt entries path = entryAt others path) : entries.Perm others := by
  rw [List.perm_ext_iff_of_nodup hpaths.of_map hothers.of_map]
  intro e
  have hmem : e ∈ entries ↔ entryAt entries e.path = some e := by
    rw [entryAt_eq_some_iff hpaths, and_iff_left rfl]
  rw [hmem, heq, entryAt_eq_some_iff hothers, and_iff_left rfl]

/-- What is kept decides the rows up to identities. -/
theorem Keeps.sameRows {known : String → Option FileEntry} (ha : a.Keeps known)
    (hb : b.Keeps known) : SameRows a b := by
  obtain ⟨entries, n, ha, hknown⟩ := ha
  obtain ⟨others, n', hb, hknown'⟩ := hb
  have hperm : entries.Perm others := by
    apply perm_of_entryAt_eq ha.paths hb.paths
    intro path
    rw [hknown, hknown']
  exact (ha.perm hperm).sameRows hb

/-- Indexes with the same rows keep the same. -/
theorem SameRows.keeps {known : String → Option FileEntry} (h : SameRows a b)
    (hb : b.Keeps known) : a.Keeps known := by
  obtain ⟨file, declaration, member, reference, h⟩ := h.symm
  obtain ⟨entries, n, hb, hknown⟩ := hb
  -- the other index numbers as this one does, renamed
  let n' : Numbering :=
    { file := fun path => file (n.file path)
      declarations := fun path => (n.declarations path).map declaration }
  have hcarries : Carries n n' entries file declaration := ⟨fun _ _ => rfl, fun _ _ => rfl⟩
  refine ⟨entries, n', ?_, hknown⟩
  constructor
  case paths =>
    exact hb.paths
  case owned =>
    exact hb.owned
  case files =>
    have := hb.files.map (·.renamed file)
    rw [hcarries.map_files] at this
    exact h.files.symm.trans this
  case fileIds =>
    have := hb.fileIds.map file.injective
    rwa [List.map_map] at this
  case declarations =>
    have := hb.declarations.map (·.renamed file declaration)
    rw [hcarries.map_declarations] at this
    exact h.declarations.symm.trans this
  case declarationIds =>
    have := hb.declarationIds.map declaration.injective
    rwa [List.map_flatMap] at this
  case declarationCounts =>
    intro e he
    rw [List.length_map]
    exact hb.declarationCounts e he
  case members =>
    have := hb.members.map (·.renamed file declaration id)
    rw [hcarries.map_members hb.lt_length_of_mem_members] at this
    have hsame := h.members.symm.map fun m => { m with id := 0 }
    rw [List.map_map] at this hsame
    exact hsame.trans this
  case memberIds =>
    rw [← (h.members.map (·.id)).nodup_iff, List.map_map]
    have := hb.memberIds.map member.injective
    rwa [List.map_map] at this
  case references =>
    have := hb.references.map (·.renamed file id)
    rw [hcarries.map_references] at this
    have hsame := h.references.symm.map fun r => { r with id := 0 }
    rw [List.map_map] at this hsame
    exact hsame.trans this
  case referenceIds =>
    rw [← (h.references.map (·.id)).nodup_iff, List.map_map]
    have := hb.referenceIds.map reference.injective
    rwa [List.map_map] at this

end Unique

/-! ## Identities in order -/

/-- No identity is doubled in a table and none leads nowhere. -/
structure Sound (ix : Index) : Prop where
  paths : (ix.files.map (·.path)).Nodup
  fileIds : (ix.files.map (·.id)).Nodup
  declarationIds : (ix.declarations.map (·.id)).Nodup
  memberIds : (ix.members.map (·.id)).Nodup
  referenceIds : (ix.references.map (·.id)).Nodup
  declarationFiles : ∀ d ∈ ix.declarations, ∃ f ∈ ix.files, f.id = d.fileId
  memberOwners : ∀ m ∈ ix.members,
    ∃ d ∈ ix.declarations, d.id = m.declarationId ∧ d.fileId = m.fileId
  referenceFiles : ∀ r ∈ ix.references, ∃ f ∈ ix.files, f.id = r.fileId

/-- Rows taken together by a key that each of them has are all the rows. -/
theorem perm_flatMap_filter {ρ : Type} (key : ρ → Nat) {keys : List Nat} (hkeys : keys.Nodup)
    (rows : List ρ) (hrows : ∀ r ∈ rows, key r ∈ keys) :
    rows.Perm (keys.flatMap fun k => rows.filter (key · == k)) := by
  induction keys generalizing rows with
  | nil =>
    have hnil : rows = [] :=
      List.eq_nil_iff_forall_not_mem.mpr fun r hr => by simpa using hrows r hr
    rw [hnil]
    exact List.Perm.refl _
  | cons k keys ih =>
    rw [List.nodup_cons] at hkeys
    -- the rows without the first key, by induction
    have hothers := ih hkeys.2 (rows.filter fun r => !(key r == k)) (by
      intro r hr
      obtain ⟨hr, hne⟩ := List.mem_filter.mp hr
      rcases List.mem_cons.mp (hrows r hr) with h | h
      · simp [h] at hne
      · exact h)
    have hsame : (keys.flatMap fun k' =>
          (rows.filter fun r => !(key r == k)).filter (key · == k')) =
        keys.flatMap fun k' => rows.filter (key · == k') := by
      apply List.flatMap_congr
      intro k' hk'
      rw [List.filter_filter]
      congr 1
      funext r
      by_cases hr : key r = k'
      · have hne : key r ≠ k := by
          rintro rfl
          exact hkeys.1 (hr ▸ hk')
        simp [hr, hr ▸ hne]
      · simp [hr]
    rw [List.flatMap_cons, ← hsame]
    exact (List.filter_append_perm _ _).symm.trans (hothers.append_left _)

section Sound

variable {ix : Index}

/-- The declarations of a file. -/
def declarationsOf (ix : Index) (f : FileRow) : List DeclarationRow :=
  ix.declarations.filter (·.fileId == f.id)

/-- The members of a file. -/
def membersOf (ix : Index) (f : FileRow) : List MemberRow :=
  ix.members.filter (·.fileId == f.id)

/-- The references of a file. -/
def referencesOf (ix : Index) (f : FileRow) : List ReferenceRow :=
  ix.references.filter (·.fileId == f.id)

/-- The entry of a file of an index. -/
def entryOf (ix : Index) (f : FileRow) : FileEntry :=
  { file := f
    declarations := ix.declarationsOf f
    members := (ix.membersOf f).map fun m =>
      { m with declarationId := ((ix.declarationsOf f).map (·.id)).idxOf m.declarationId }
    references := ix.referencesOf f }

/-- The identities that an index has. -/
def ownNumbering (ix : Index) : Numbering :=
  { file := fun path => ((ix.file? path).map (·.id)).getD 0
    declarations := fun path =>
      ((ix.file? path).map fun f => (ix.declarationsOf f).map (·.id)).getD [] }

/-- A file of a sound index is found under its path. -/
theorem Sound.file?_eq (h : ix.Sound) {f : FileRow} (hf : f ∈ ix.files) :
    ix.file? f.path = some f :=
  (find?_key_eq_some_iff h.paths).mpr ⟨hf, rfl⟩

/-- In a sound index the file with a path is the one that is found. -/
theorem Sound.file?_eq_some_iff (h : ix.Sound) {path : String} {f : FileRow} :
    ix.file? path = some f ↔ f ∈ ix.files ∧ f.path = path :=
  find?_key_eq_some_iff h.paths

/-- Files with one identity are one. -/
theorem Sound.eq_of_id_eq (h : ix.Sound) {f g : FileRow} (hf : f ∈ ix.files) (hg : g ∈ ix.files)
    (hid : f.id = g.id) : f = g :=
  List.inj_on_of_nodup_map h.fileIds hf hg hid

/-- A member of a file names a declaration of it. -/
theorem Sound.mem_ids_of_mem_membersOf (h : ix.Sound) {f : FileRow} {m : MemberRow}
    (hm : m ∈ ix.membersOf f) : m.declarationId ∈ (ix.declarationsOf f).map (·.id) := by
  obtain ⟨hm, hfile⟩ := List.mem_filter.mp hm
  obtain ⟨d, hd, hid, hdfile⟩ := h.memberOwners m hm
  rw [← hid]
  apply List.mem_map_of_mem
  apply List.mem_filter.mpr
  exact ⟨hd, by rw [hdfile]; exact hfile⟩

/-- The row of a file is written back from its entry. -/
theorem Sound.fileRow_entryOf (h : ix.Sound) {f : FileRow} (hf : f ∈ ix.files) :
    (ix.entryOf f).fileRow ix.ownNumbering = f := by
  unfold FileEntry.fileRow
  simp [ownNumbering, entryOf, FileEntry.path, h.file?_eq hf]

/-- The rows of declarations are written back from their entry. -/
theorem Sound.declarationRows_entryOf (h : ix.Sound) {f : FileRow} (hf : f ∈ ix.files) :
    (ix.entryOf f).declarationRows ix.ownNumbering = ix.declarationsOf f := by
  unfold FileEntry.declarationRows
  simp only [ownNumbering, entryOf, FileEntry.path, h.file?_eq hf, Option.map_some,
    Option.getD_some]
  rw [← List.map_prod_right_eq_zip, List.map_map]
  conv_rhs => rw [← List.map_id (ix.declarationsOf f)]
  apply List.map_congr_left
  intro d hd
  have hfile : d.fileId = f.id := by simpa using (List.mem_filter.mp hd).2
  simp [← hfile]

/-- The rows of members are written back from their entry, up to their identities. -/
theorem Sound.memberRows_entryOf (h : ix.Sound) {f : FileRow} (hf : f ∈ ix.files) :
    (ix.entryOf f).memberRows ix.ownNumbering =
      (ix.membersOf f).map fun m => { m with id := 0 } := by
  unfold FileEntry.memberRows
  simp only [ownNumbering, entryOf, FileEntry.path, h.file?_eq hf, Option.map_some,
    Option.getD_some, List.map_map]
  apply List.map_congr_left
  intro m hm
  have hfile : m.fileId = f.id := by simpa using (List.mem_filter.mp hm).2
  have hplace := h.mem_ids_of_mem_membersOf hm
  -- the place of a declaration leads back to its identity
  have hfound : ((ix.declarationsOf f).map (·.id))[
      ((ix.declarationsOf f).map (·.id)).idxOf m.declarationId]? = some m.declarationId :=
    List.getElem?_idxOf hplace
  simp only [Function.comp_apply, List.getD_eq_getElem?_getD, hfound, Option.getD_some, ← hfile]

/-- The rows of references are written back from their entry, up to their identities. -/
theorem Sound.referenceRows_entryOf (h : ix.Sound) {f : FileRow} (hf : f ∈ ix.files) :
    (ix.entryOf f).referenceRows ix.ownNumbering =
      (ix.referencesOf f).map fun r => { r with id := 0 } := by
  unfold FileEntry.referenceRows
  simp only [ownNumbering, entryOf, FileEntry.path, h.file?_eq hf, Option.map_some,
    Option.getD_some]
  apply List.map_congr_left
  intro r hr
  have hfile : r.fileId = f.id := by simpa using (List.mem_filter.mp hr).2
  simp [← hfile]

/-- An index with its identities in order keeps the entries of its files. -/
theorem Sound.storedAs (h : ix.Sound) : ix.StoredAs (ix.files.map ix.entryOf) ix.ownNumbering := by
  have hfileId : ∀ f ∈ ix.files, ix.ownNumbering.file f.path = f.id := by
    intro f hf
    simp [ownNumbering, h.file?_eq hf]
  have hids : ∀ f ∈ ix.files,
      ix.ownNumbering.declarations f.path = (ix.declarationsOf f).map (·.id) := by
    intro f hf
    simp [ownNumbering, h.file?_eq hf]
  -- rows taken together file by file are all rows, since each refers to a file
  have hdeclarations : ix.declarations.Perm (ix.files.flatMap ix.declarationsOf) := by
    have := perm_flatMap_filter DeclarationRow.fileId h.fileIds ix.declarations (by
      intro d hd
      obtain ⟨f, hf, hid⟩ := h.declarationFiles d hd
      exact hid ▸ List.mem_map_of_mem hf)
    rwa [List.flatMap_map] at this
  have hmembers : ix.members.Perm (ix.files.flatMap ix.membersOf) := by
    have := perm_flatMap_filter MemberRow.fileId h.fileIds ix.members (by
      intro m hm
      obtain ⟨d, hd, -, hfile⟩ := h.memberOwners m hm
      obtain ⟨f, hf, hid⟩ := h.declarationFiles d hd
      exact hfile ▸ hid ▸ List.mem_map_of_mem hf)
    rwa [List.flatMap_map] at this
  have hreferences : ix.references.Perm (ix.files.flatMap ix.referencesOf) := by
    have := perm_flatMap_filter ReferenceRow.fileId h.fileIds ix.references (by
      intro r hr
      obtain ⟨f, hf, hid⟩ := h.referenceFiles r hr
      exact hid ▸ List.mem_map_of_mem hf)
    rwa [List.flatMap_map] at this
  constructor
  case paths =>
    rw [List.map_map]
    exact h.paths
  case owned =>
    intro e he
    obtain ⟨f, hf, rfl⟩ := List.mem_map.mp he
    intro m hm
    obtain ⟨old, hold, rfl⟩ := List.mem_map.mp hm
    have := List.idxOf_lt_length_of_mem (h.mem_ids_of_mem_membersOf hold)
    rwa [List.length_map] at this
  case files =>
    rw [List.map_map]
    have : ix.files.map (fun f => (ix.entryOf f).fileRow ix.ownNumbering) = ix.files := by
      conv_rhs => rw [← List.map_id ix.files]
      exact List.map_congr_left fun f hf => h.fileRow_entryOf hf
    exact (List.Perm.of_eq this).symm
  case fileIds =>
    rw [List.map_map]
    exact (List.map_congr_left hfileId).symm ▸ h.fileIds
  case declarations =>
    rw [List.flatMap_map, List.flatMap_congr fun f hf => h.declarationRows_entryOf hf]
    exact hdeclarations
  case declarationIds =>
    rw [List.flatMap_map]
    have : (ix.files.flatMap fun f => ix.ownNumbering.declarations f.path) =
        (ix.files.flatMap ix.declarationsOf).map (·.id) := by
      rw [List.map_flatMap]
      exact List.flatMap_congr hids
    exact this.symm ▸ (hdeclarations.map (·.id)).nodup_iff.mp h.declarationIds
  case declarationCounts =>
    intro e he
    obtain ⟨f, hf, rfl⟩ := List.mem_map.mp he
    exact (hids f hf).symm ▸ List.length_map _
  case members =>
    rw [List.flatMap_map, List.flatMap_congr fun f hf => h.memberRows_entryOf hf,
      ← List.map_flatMap]
    exact hmembers.map _
  case memberIds =>
    exact h.memberIds
  case references =>
    rw [List.flatMap_map, List.flatMap_congr fun f hf => h.referenceRows_entryOf hf,
      ← List.map_flatMap]
    exact hreferences.map _
  case referenceIds =>
    exact h.referenceIds

/-- A sound index keeps something. -/
theorem Sound.exists_keeps (h : ix.Sound) : ∃ known, ix.Keeps known :=
  ⟨_, _, _, h.storedAs, fun _ => rfl⟩

/-- The declaration that a member names stands among those of its file. -/
theorem exists_declarationRow {n : Numbering} {e : FileEntry} {i : Nat}
    (hcount : (n.declarations e.path).length = e.declarations.length)
    (hi : i < e.declarations.length) :
    ∃ d ∈ e.declarationRows n, d.id = (n.declarations e.path).getD i 0 := by
  have hmem : (n.declarations e.path).getD i 0 ∈ (e.declarationRows n).map (·.id) := by
    have hlt : i < (n.declarations e.path).length := hcount ▸ hi
    rw [FileEntry.ids_declarationRows hcount, List.getD_eq_getElem?_getD,
      List.getElem?_eq_getElem hlt]
    exact List.getElem_mem hlt
  obtain ⟨d, hd, hid⟩ := List.mem_map.mp hmem
  exact ⟨d, hd, hid⟩

/-- An index that keeps entries is sound. -/
theorem StoredAs.sound {entries : List FileEntry} {n : Numbering} (h : ix.StoredAs entries n) :
    ix.Sound := by
  have hfile : ∀ e ∈ entries, ∃ f ∈ ix.files, f.id = n.file e.path := fun e he =>
    ⟨e.fileRow n, h.files.mem_iff.mpr (List.mem_map_of_mem he), rfl⟩
  constructor
  case paths =>
    rw [(h.files.map (·.path)).nodup_iff, List.map_map]
    exact h.paths
  case fileIds =>
    rw [(h.files.map (·.id)).nodup_iff, List.map_map]
    exact h.fileIds
  case declarationIds =>
    rw [h.ids_declarations.nodup_iff]
    exact h.declarationIds
  case memberIds =>
    exact h.memberIds
  case referenceIds =>
    exact h.referenceIds
  case declarationFiles =>
    intro d hd
    obtain ⟨e, he, hd⟩ := List.mem_flatMap.mp (h.declarations.mem_iff.mp hd)
    rw [FileEntry.fileId_of_mem_declarationRows hd]
    exact hfile e he
  case memberOwners =>
    intro m hm
    obtain ⟨e, he, hrow⟩ :=
      List.mem_flatMap.mp (h.members.mem_iff.mp (List.mem_map_of_mem hm))
    obtain ⟨m', hm', heq⟩ := List.mem_map.mp hrow
    obtain ⟨d, hd, hid⟩ := exists_declarationRow (h.declarationCounts e he) (h.owned e he m' hm')
    refine ⟨d, h.declarations.mem_iff.mpr (List.mem_flatMap.mpr ⟨e, he, hd⟩), ?_, ?_⟩
    · rw [hid]
      exact congrArg MemberRow.declarationId heq
    · rw [FileEntry.fileId_of_mem_declarationRows hd]
      exact congrArg MemberRow.fileId heq
  case referenceFiles =>
    intro r hr
    obtain ⟨e, he, hrow⟩ :=
      List.mem_flatMap.mp (h.references.mem_iff.mp (List.mem_map_of_mem hr))
    have hid := FileEntry.fileId_of_mem_referenceRows hrow
    dsimp only at hid
    rw [hid]
    exact hfile e he

end Sound

end JavaAtlas.Index
