import JavaAtlas.Proofs.Index.Representation

namespace JavaAtlas.Index

/-! # Changes of one file

A change of a file touches the rows of that file and no others, and leaves no row that belongs to a
file or a declaration that is not there.

* `Linked`: every row belongs to a file, and every member to a declaration of its file;
* `Replaced`, `Dropped`, `Marked`: what each change does, path by path;
* `Linked.changed`: each change keeps the rows linked;
* `linked_after`: whatever changes are made, one after the other, the rows stay linked.
-/

/-! ## The rows of a file -/

/-- What an index has of one path. -/
structure Rows where
  file : Option FileRow := none
  declarations : List DeclarationRow := []
  members : List MemberRow := []
  references : List ReferenceRow := []
  markers : List MarkerRow := []
deriving DecidableEq

/-- What an index has of a path. -/
def rowsOf (ix : Index) (path : String) : Rows :=
  match ix.file? path with
  | none => {}
  | some f =>
    { file := some f
      declarations := ix.declarations.filter (·.fileId == f.id)
      members := ix.members.filter (·.fileId == f.id)
      references := ix.references.filter (·.fileId == f.id)
      markers := ix.markers.filter (·.fileId == f.id) }

/-- The rows are those of a file with these symbols, and no diagnostics: every member belongs to
the declaration that it names. -/
structure Rows.Hold (rows : Rows) (id : Nat) (file : FileInput) (symbols : FileSymbols) : Prop where
  file : rows.file = some (FileRow.ofInput id file symbols)
  declarations : rows.declarations.map (fun d => (d.symbol, d.package, d.damage)) =
    symbols.declarations.map fun s => (s, symbols.package, [])
  members : rows.members.map (fun m => (m.symbol, some m.declarationId, m.damage)) =
    symbols.members.map fun s => (s, (rows.declarations.map (·.id))[s.declIndex]?, [])
  references : rows.references.map (fun r => (r.symbol, r.damage)) =
    symbols.references.map fun s => (s, [])
  markers : rows.markers = []

/-- Every row belongs to a file, and every member to a declaration of its file. -/
structure Linked (ix : Index) : Prop extends ix.Sound where
  markerFiles : ∀ m ∈ ix.markers, ∃ f ∈ ix.files, f.id = m.fileId

/-- Nothing but what is known of one path differs. -/
def SameElsewhere (ix ix' : Index) (path : String) : Prop :=
  ix'.facts = ix.facts ∧ ∀ other, other ≠ path → ix'.rowsOf other = ix.rowsOf other

/-- A file has been replaced, under its own identity if it had one. -/
structure Replaced (ix ix' : Index) (file : FileInput) (symbols : FileSymbols) : Prop where
  here : ∃ id, (ix'.rowsOf file.path).Hold id file symbols ∧
    ∀ old, ix.file? file.path = some old → id = old.id
  elsewhere : SameElsewhere ix ix' file.path

/-- A file has been dropped. -/
structure Dropped (ix ix' : Index) (path : String) : Prop where
  here : ix'.rowsOf path = {}
  elsewhere : SameElsewhere ix ix' path

/-- The diagnostics of a file have been replaced. -/
structure Marked (ix ix' : Index) (path : String) (markers : List Marker) : Prop where
  here : ∃ rows : List MarkerRow, ix'.rowsOf path = { ix.rowsOf path with markers := rows } ∧
    rows.map (·.marker) = markers
  elsewhere : SameElsewhere ix ix' path

section Elsewhere

variable {ix ix' : Index} {path : String}

/-- Files at other paths and the rows with other identities are as they were. -/
theorem sameElsewhere_of_filters (id : Nat) (hfacts : ix'.facts = ix.facts)
    (hfile : ∀ other, other ≠ path → ix'.file? other = ix.file? other)
    (hid : ∀ other f, other ≠ path → ix.file? other = some f → f.id ≠ id)
    (hdeclarations : ∀ i, i ≠ id →
      ix'.declarations.filter (·.fileId == i) = ix.declarations.filter (·.fileId == i))
    (hmembers : ∀ i, i ≠ id → ix'.members.filter (·.fileId == i) = ix.members.filter (·.fileId == i))
    (hreferences : ∀ i, i ≠ id →
      ix'.references.filter (·.fileId == i) = ix.references.filter (·.fileId == i))
    (hmarkers : ∀ i, i ≠ id →
      ix'.markers.filter (·.fileId == i) = ix.markers.filter (·.fileId == i)) :
    SameElsewhere ix ix' path := by
  refine ⟨hfacts, ?_⟩
  intro other hother
  unfold rowsOf
  rw [hfile other hother]
  split
  next => rfl
  next f hf =>
    -- The file there has another identity, under which all rows are as before.
    have hne := hid other f hother hf
    rw [hdeclarations _ hne, hmembers _ hne, hreferences _ hne, hmarkers _ hne]

end Elsewhere

/-! ## Replacing a file -/

section Replace

variable {ix : Index} {file : FileInput} {symbols : FileSymbols}

/-- The new rows of declarations, with identities from `first` on. -/
def addedDeclarations (first fileId : Nat) (symbols : FileSymbols) : List DeclarationRow :=
  numbered first (fun id symbol => { id, fileId, symbol, package := symbols.package })
    symbols.declarations

/-- The new rows of members, where the first declaration has the identity `owner`. -/
def addedMembers (first owner fileId : Nat) (symbols : FileSymbols) : List MemberRow :=
  numbered first (fun id symbol => { id, fileId, symbol, declarationId := owner + symbol.declIndex })
    symbols.members

/-- The new rows of references. -/
def addedReferences (first fileId : Nat) (symbols : FileSymbols) : List ReferenceRow :=
  numbered first (fun id symbol => { id, fileId, symbol }) symbols.references

/-- The index with a file replaced, where every member has a declaration. -/
def withFile (ix : Index) (file : FileInput) (symbols : FileSymbols) : Index :=
  let id := ix.fileIdFor file.path
  let declarations := ix.declarations.filter (·.fileId != id)
  let members := ix.members.filter (·.fileId != id)
  let references := ix.references.filter (·.fileId != id)
  let first := freshId (declarations.map (·.id))
  { ix with
    files := putFile (FileRow.ofInput id file symbols) ix.files
    declarations := declarations ++ addedDeclarations first id symbols
    members := members ++ addedMembers (freshId (members.map (·.id))) first id symbols
    references := references ++ addedReferences (freshId (references.map (·.id))) id symbols
    markers := ix.markers.filter (·.fileId != id) }

/-- A member without a declaration is refused; else everything is replaced. -/
theorem replaceFile_cases (ix : Index) (file : FileInput) (symbols : FileSymbols) :
    (∃ m, symbols.members.find? (fun m => symbols.declarations.length ≤ m.declIndex) = some m ∧
      ix.replaceFile file symbols = .error (.orphanMember m.name)) ∨
    ((∀ m ∈ symbols.members, m.declIndex < symbols.declarations.length) ∧
      ix.replaceFile file symbols = .ok (ix.withFile file symbols, countsOf symbols)) := by
  unfold replaceFile
  split
  next m hm => exact .inl ⟨m, hm, rfl⟩
  next hnone =>
    refine .inr ⟨?_, rfl⟩
    intro m hm
    simpa using List.find?_eq_none.mp hnone m hm

/-- New declarations belong to the file. -/
theorem fileId_of_mem_addedDeclarations {first fileId : Nat} {d : DeclarationRow}
    (hd : d ∈ addedDeclarations first fileId symbols) : d.fileId = fileId :=
  of_mem_numbered (p := fun d : DeclarationRow => d.fileId = fileId) (fun _ _ => rfl) hd

/-- New members belong to the file. -/
theorem fileId_of_mem_addedMembers {first owner fileId : Nat} {m : MemberRow}
    (hm : m ∈ addedMembers first owner fileId symbols) : m.fileId = fileId :=
  of_mem_numbered (p := fun m : MemberRow => m.fileId = fileId) (fun _ _ => rfl) hm

/-- New references belong to the file. -/
theorem fileId_of_mem_addedReferences {first fileId : Nat} {r : ReferenceRow}
    (hr : r ∈ addedReferences first fileId symbols) : r.fileId = fileId :=
  of_mem_numbered (p := fun r : ReferenceRow => r.fileId = fileId) (fun _ _ => rfl) hr

/-- The new declarations are those found, undamaged and in their order. -/
theorem symbols_addedDeclarations (first fileId : Nat) (symbols : FileSymbols) :
    (addedDeclarations first fileId symbols).map (fun d => (d.symbol, d.package, d.damage)) =
      symbols.declarations.map fun s => (s, symbols.package, []) :=
  map_numbered (g := fun s : FileDeclaration => (s, symbols.package, [])) (fun _ _ => rfl) _

/-- The new references are those found, undamaged and in their order. -/
theorem symbols_addedReferences (first fileId : Nat) (symbols : FileSymbols) :
    (addedReferences first fileId symbols).map (fun r => (r.symbol, r.damage)) =
      symbols.references.map fun s => (s, []) :=
  map_numbered (g := fun s : FileReference => (s, [])) (fun _ _ => rfl) _

/-- New declarations are numbered in their order. -/
theorem getElem?_addedDeclarations {first fileId i : Nat} (hi : i < symbols.declarations.length) :
    (addedDeclarations first fileId symbols)[i]? = some
      { id := first + i, fileId, symbol := symbols.declarations[i], package := symbols.package } := by
  unfold addedDeclarations
  rw [getElem?_numbered, List.getElem?_eq_getElem hi]
  rfl

/-- A member belongs to the declaration that stands where it says. -/
theorem owners_addedMembers {first owner fileId : Nat}
    (howned : ∀ m ∈ symbols.members, m.declIndex < symbols.declarations.length) :
    (addedMembers first owner fileId symbols).map (fun m => (m.symbol, some m.declarationId, m.damage)) =
      symbols.members.map fun s =>
        (s, ((addedDeclarations owner fileId symbols).map (·.id))[s.declIndex]?, []) := by
  have hid : ∀ s ∈ symbols.members,
      ((addedDeclarations owner fileId symbols).map (·.id))[s.declIndex]? =
        some (owner + s.declIndex) := by
    intro s hs
    rw [List.getElem?_map, getElem?_addedDeclarations (howned s hs)]
    rfl
  unfold addedMembers
  rw [map_numbered (g := fun s : FileMember => (s, some (owner + s.declIndex), [])) (fun _ _ => rfl)]
  apply List.map_congr_left
  intro s hs
  rw [hid s hs]

/-- Every new member belongs to a new declaration of the same file. -/
theorem exists_owner_of_mem_addedMembers {first owner fileId : Nat}
    (howned : ∀ m ∈ symbols.members, m.declIndex < symbols.declarations.length) {m : MemberRow}
    (hm : m ∈ addedMembers first owner fileId symbols) :
    ∃ d ∈ addedDeclarations owner fileId symbols, d.id = m.declarationId ∧ d.fileId = m.fileId := by
  obtain ⟨⟨s, i⟩, hs, rfl⟩ := List.mem_map.mp hm
  have hlt := howned s (List.fst_mem_of_mem_zipIdx hs)
  exact ⟨_, List.mem_of_getElem? (getElem?_addedDeclarations hlt), rfl, rfl⟩

/-- The files are the new one and those at other paths. -/
theorem mem_files_withFile (h : ix.Sound) {f : FileRow} : f ∈ (ix.withFile file symbols).files ↔
    f = FileRow.ofInput (ix.fileIdFor file.path) file symbols ∨ f ∈ ix.files ∧ f.path ≠ file.path :=
  mem_putFile h.paths _

/-- At other paths the same files are found. -/
theorem file?_withFile_of_ne (h : ix.Sound) {other : String} (hother : other ≠ file.path) :
    (ix.withFile file symbols).file? other = ix.file? other := by
  have hpaths : ((ix.withFile file symbols).files.map (·.path)).Nodup :=
    nodup_paths_putFile h.paths _
  apply Option.ext
  intro f
  rw [h.file?_eq_some_iff]
  refine (find?_key_eq_some_iff hpaths).trans ?_
  rw [mem_files_withFile h]
  constructor
  · -- the new file is at its own path
    rintro ⟨rfl | ⟨hf, -⟩, hpath⟩
    · exact absurd hpath.symm hother
    · exact ⟨hf, hpath⟩
  · rintro ⟨hf, hpath⟩
    exact ⟨.inr ⟨hf, fun heq => hother (hpath.symm.trans heq)⟩, hpath⟩

/-- At its path the new file is found. -/
theorem file?_withFile (h : ix.Sound) : (ix.withFile file symbols).file? file.path =
    some (FileRow.ofInput (ix.fileIdFor file.path) file symbols) := by
  have hpaths : ((ix.withFile file symbols).files.map (·.path)).Nodup :=
    nodup_paths_putFile h.paths _
  exact (find?_key_eq_some_iff hpaths).mpr ⟨(mem_files_withFile h).mpr (.inl rfl), rfl⟩

/-- The rows of the file are the new ones. -/
theorem hold_withFile (h : ix.Sound)
    (howned : ∀ m ∈ symbols.members, m.declIndex < symbols.declarations.length) :
    ((ix.withFile file symbols).rowsOf file.path).Hold (ix.fileIdFor file.path) file symbols := by
  unfold rowsOf
  rw [file?_withFile h]
  dsimp only [withFile, FileRow.ofInput]
  rw [filter_replaced DeclarationRow.fileId _ (fun _ => fileId_of_mem_addedDeclarations),
    filter_replaced MemberRow.fileId _ (fun _ => fileId_of_mem_addedMembers),
    filter_replaced ReferenceRow.fileId _ (fun _ => fileId_of_mem_addedReferences),
    filter_dropped MarkerRow.fileId, if_pos rfl, if_pos rfl, if_pos rfl, if_pos rfl]
  constructor
  case file => rfl
  case declarations => exact symbols_addedDeclarations _ _ _
  case members => exact owners_addedMembers howned
  case references => exact symbols_addedReferences _ _ _
  case markers => rfl

/-- The file is replaced, and nothing else changes. -/
theorem replaced_withFile (h : ix.Sound)
    (howned : ∀ m ∈ symbols.members, m.declIndex < symbols.declarations.length) :
    Replaced ix (ix.withFile file symbols) file symbols := by
  refine ⟨⟨_, hold_withFile h howned, ?_⟩, ?_⟩
  · intro old hold
    unfold fileIdFor
    rw [hold]
  · -- rows under the identity of the file were its own, and rows under others stay
    refine sameElsewhere_of_filters (ix.fileIdFor file.path) rfl
      (fun _ hother => file?_withFile_of_ne h hother) ?_ ?_ ?_ ?_ ?_
    · intro other f hother hf
      obtain ⟨hmem, rfl⟩ := h.file?_eq_some_iff.mp hf
      exact fileIdFor_ne h.paths h.fileIds hmem hother
    · intro i hi
      exact (filter_replaced DeclarationRow.fileId _
        (fun _ => fileId_of_mem_addedDeclarations) i).trans (if_neg hi)
    · intro i hi
      exact (filter_replaced MemberRow.fileId _
        (fun _ => fileId_of_mem_addedMembers) i).trans (if_neg hi)
    · intro i hi
      exact (filter_replaced ReferenceRow.fileId _
        (fun _ => fileId_of_mem_addedReferences) i).trans (if_neg hi)
    · intro i hi
      exact (filter_dropped MarkerRow.fileId _ _ i).trans (if_neg hi)

/-- Replacing a file keeps the rows linked. -/
theorem Linked.withFile (h : ix.Linked)
    (howned : ∀ m ∈ symbols.members, m.declIndex < symbols.declarations.length) :
    (ix.withFile file symbols).Linked := by
  have hother : ∀ f ∈ ix.files, f.path ≠ file.path → f.id ≠ ix.fileIdFor file.path :=
    fun f hf hne => fileIdFor_ne h.paths h.fileIds hf hne
  have hmem : ∀ f, f ∈ (ix.withFile file symbols).files ↔
      f = FileRow.ofInput (ix.fileIdFor file.path) file symbols ∨
        f ∈ ix.files ∧ f.path ≠ file.path := fun _ => mem_files_withFile h.toSound
  -- a row that stays belongs to a file that stays
  have hstays : ∀ i, i ≠ ix.fileIdFor file.path → (∃ f ∈ ix.files, f.id = i) →
      ∃ f ∈ (ix.withFile file symbols).files, f.id = i := by
    rintro i hi ⟨f, hf, rfl⟩
    refine ⟨f, (hmem f).mpr (.inr ⟨hf, ?_⟩), rfl⟩
    intro hpath
    have hfile : ix.file? file.path = some f := h.file?_eq_some_iff.mpr ⟨hf, hpath⟩
    exact hi (by rw [fileIdFor, hfile])
  have hrow : ∃ f ∈ (ix.withFile file symbols).files, f.id = ix.fileIdFor file.path :=
    ⟨_, (hmem _).mpr (.inl rfl), rfl⟩
  constructor
  case toSound =>
    constructor
    case paths => exact nodup_paths_putFile h.paths _
    case fileIds => exact nodup_ids_putFile h.paths h.fileIds hother
    case declarationIds =>
      exact nodup_ids_append_numbered (h.declarationIds.sublist (List.filter_sublist.map _))
        (fun _ _ => rfl) _
    case memberIds =>
      exact nodup_ids_append_numbered (h.memberIds.sublist (List.filter_sublist.map _))
        (fun _ _ => rfl) _
    case referenceIds =>
      exact nodup_ids_append_numbered (h.referenceIds.sublist (List.filter_sublist.map _))
        (fun _ _ => rfl) _
    case declarationFiles =>
      intro d hd
      rcases List.mem_append.mp hd with hd | hd
      · obtain ⟨hd, hne⟩ := List.mem_filter.mp hd
        exact hstays _ (bne_iff_ne.mp hne) (h.declarationFiles d hd)
      · rw [fileId_of_mem_addedDeclarations hd]
        exact hrow
    case memberOwners =>
      intro m hm
      rcases List.mem_append.mp hm with hm | hm
      · obtain ⟨hm, hne⟩ := List.mem_filter.mp hm
        obtain ⟨d, hd, hid, hfile⟩ := h.memberOwners m hm
        refine ⟨d, List.mem_append_left _ (List.mem_filter.mpr ⟨hd, ?_⟩), hid, hfile⟩
        -- a declaration stays with its member, since both are of one file
        rw [hfile]
        exact hne
      · obtain ⟨d, hd, howner⟩ := exists_owner_of_mem_addedMembers howned hm
        exact ⟨d, List.mem_append_right _ hd, howner⟩
    case referenceFiles =>
      intro r hr
      rcases List.mem_append.mp hr with hr | hr
      · obtain ⟨hr, hne⟩ := List.mem_filter.mp hr
        exact hstays _ (bne_iff_ne.mp hne) (h.referenceFiles r hr)
      · rw [fileId_of_mem_addedReferences hr]
        exact hrow
  case markerFiles =>
    intro m hm
    obtain ⟨hm, hne⟩ := List.mem_filter.mp hm
    exact hstays _ (bne_iff_ne.mp hne) (h.markerFiles m hm)

end Replace

/-! ## Dropping a file, and replacing its diagnostics -/

section Drop

variable {ix : Index} {path : String} {row : FileRow} {markers : List Marker}

/-- The index without a file. -/
def withoutFile (ix : Index) (row : FileRow) : Index :=
  { ix.withoutSymbols row.id with files := ix.files.filter (·.path != row.path) }

/-- A file that is there is dropped. -/
theorem deleteFile_of_file? (h : ix.Sound) (hrow : ix.file? path = some row) :
    ix.deleteFile path = (ix.withoutFile row, true) := by
  obtain ⟨-, rfl⟩ := h.file?_eq_some_iff.mp hrow
  unfold deleteFile
  rw [hrow]
  rfl

/-- Where there is no file nothing happens. -/
theorem deleteFile_of_none (hnone : ix.file? path = none) : ix.deleteFile path = (ix, false) := by
  unfold deleteFile
  rw [hnone]

/-- At the path of the file that was dropped nothing is found, elsewhere the same. -/
theorem file?_withoutFile (ix : Index) (row : FileRow) (other : String) :
    (ix.withoutFile row).file? other = if other = row.path then none else ix.file? other := by
  unfold file? withoutFile
  dsimp only
  rw [List.find?_filter]
  split
  next heq =>
    subst heq
    simp
  next hne =>
    congr 1
    funext f
    by_cases hf : f.path = other
    · simp [hf, hne]
    · simp [hf]

/-- What is not of a file that is there is not of a path. -/
theorem rowsOf_of_none (hnone : ix.file? path = none) : ix.rowsOf path = {} := by
  unfold rowsOf
  rw [hnone]

/-- The file is dropped, and nothing else changes. -/
theorem dropped_withoutFile (h : ix.Sound) (hrow : row ∈ ix.files) :
    Dropped ix (ix.withoutFile row) row.path := by
  refine ⟨rowsOf_of_none (by rw [file?_withoutFile, if_pos rfl]), ?_⟩
  refine sameElsewhere_of_filters row.id rfl ?_ ?_ ?_ ?_ ?_ ?_
  · intro other hother
    rw [file?_withoutFile, if_neg hother]
  · intro other f hother hf hid
    obtain ⟨hmem, rfl⟩ := h.file?_eq_some_iff.mp hf
    exact hother (congrArg FileRow.path (h.eq_of_id_eq hmem hrow hid))
  · exact fun i hi => (filter_dropped DeclarationRow.fileId _ _ i).trans (if_neg hi)
  · exact fun i hi => (filter_dropped MemberRow.fileId _ _ i).trans (if_neg hi)
  · exact fun i hi => (filter_dropped ReferenceRow.fileId _ _ i).trans (if_neg hi)
  · exact fun i hi => (filter_dropped MarkerRow.fileId _ _ i).trans (if_neg hi)

/-- Dropping a file keeps the rows linked. -/
theorem Linked.withoutFile (h : ix.Linked) (hrow : row ∈ ix.files) : (ix.withoutFile row).Linked := by
  -- a row that stays belongs to a file that stays
  have hstays : ∀ i, i ≠ row.id → (∃ f ∈ ix.files, f.id = i) →
      ∃ f ∈ (ix.withoutFile row).files, f.id = i := by
    rintro i hi ⟨f, hf, rfl⟩
    refine ⟨f, List.mem_filter.mpr ⟨hf, bne_iff_ne.mpr ?_⟩, rfl⟩
    intro hpath
    exact hi (congrArg FileRow.id (List.inj_on_of_nodup_map h.paths hf hrow hpath))
  constructor
  case toSound =>
    constructor
    case paths => exact h.paths.sublist (List.filter_sublist.map _)
    case fileIds => exact h.fileIds.sublist (List.filter_sublist.map _)
    case declarationIds => exact h.declarationIds.sublist (List.filter_sublist.map _)
    case memberIds => exact h.memberIds.sublist (List.filter_sublist.map _)
    case referenceIds => exact h.referenceIds.sublist (List.filter_sublist.map _)
    case declarationFiles =>
      intro d hd
      obtain ⟨hd, hne⟩ := List.mem_filter.mp hd
      exact hstays _ (bne_iff_ne.mp hne) (h.declarationFiles d hd)
    case memberOwners =>
      intro m hm
      obtain ⟨hm, hne⟩ := List.mem_filter.mp hm
      obtain ⟨d, hd, hid, hfile⟩ := h.memberOwners m hm
      refine ⟨d, List.mem_filter.mpr ⟨hd, ?_⟩, hid, hfile⟩
      rw [hfile]
      exact hne
    case referenceFiles =>
      intro r hr
      obtain ⟨hr, hne⟩ := List.mem_filter.mp hr
      exact hstays _ (bne_iff_ne.mp hne) (h.referenceFiles r hr)
  case markerFiles =>
    intro m hm
    obtain ⟨hm, hne⟩ := List.mem_filter.mp hm
    exact hstays _ (bne_iff_ne.mp hne) (h.markerFiles m hm)

/-- The new rows of diagnostics. -/
def addedMarkers (first fileId : Nat) (markers : List Marker) : List MarkerRow :=
  numbered first (fun id marker => { id, fileId, marker }) markers

/-- The index with the diagnostics of a file replaced. -/
def withMarkers (ix : Index) (row : FileRow) (markers : List Marker) : Index :=
  let others := ix.markers.filter (·.fileId != row.id)
  { ix with markers := others ++ addedMarkers (freshId (others.map (·.id))) row.id markers }

/-- The diagnostics of a file that is there are replaced. -/
theorem replaceMarkers_of_file? (hrow : ix.file? path = some row) :
    ix.replaceMarkers path markers = .ok (ix.withMarkers row markers) := by
  unfold replaceMarkers
  rw [hrow]
  rfl

/-- Diagnostics of a file that is not there are refused. -/
theorem replaceMarkers_of_none (hnone : ix.file? path = none) :
    ix.replaceMarkers path markers = .error (.noIndexedFile path) := by
  unfold replaceMarkers
  rw [hnone]

/-- New diagnostics belong to the file. -/
theorem fileId_of_mem_addedMarkers {first fileId : Nat} {m : MarkerRow}
    (hm : m ∈ addedMarkers first fileId markers) : m.fileId = fileId :=
  of_mem_numbered (p := fun m : MarkerRow => m.fileId = fileId) (fun _ _ => rfl) hm

/-- The new diagnostics are those given, in their order. -/
@[simp]
theorem markers_addedMarkers (first fileId : Nat) (markers : List Marker) :
    (addedMarkers first fileId markers).map (·.marker) = markers :=
  (map_numbered (f := MarkerRow.marker) (g := id) (fun _ _ => rfl) markers).trans
    (List.map_id markers)

/-- The diagnostics are replaced, and nothing else changes. -/
theorem marked_withMarkers (h : ix.Sound) (hrow : ix.file? path = some row) :
    Marked ix (ix.withMarkers row markers) path markers := by
  have hfile : ∀ other, (ix.withMarkers row markers).file? other = ix.file? other := fun _ => rfl
  constructor
  case here =>
    let first := freshId ((ix.markers.filter (·.fileId != row.id)).map (·.id))
    refine ⟨addedMarkers first row.id markers, ?_, markers_addedMarkers _ _ markers⟩
    unfold rowsOf
    rw [hfile, hrow]
    dsimp only [withMarkers]
    rw [filter_replaced MarkerRow.fileId _ (fun _ => fileId_of_mem_addedMarkers), if_pos rfl]
  case elsewhere =>
    refine sameElsewhere_of_filters row.id rfl (fun other _ => hfile other) ?_ (fun _ _ => rfl)
      (fun _ _ => rfl) (fun _ _ => rfl) ?_
    · -- Files of one identity are one file, so at another path stands another identity.
      intro other f hother hf hid
      obtain ⟨hmem, rfl⟩ := h.file?_eq_some_iff.mp hf
      obtain ⟨hmemRow, rfl⟩ := h.file?_eq_some_iff.mp hrow
      exact hother (congrArg FileRow.path (h.eq_of_id_eq hmem hmemRow hid))
    · exact fun i hi =>
        (filter_replaced MarkerRow.fileId _ (fun _ => fileId_of_mem_addedMarkers) i).trans (if_neg hi)

/-- Replacing the diagnostics of a file keeps the rows linked. -/
theorem Linked.withMarkers (h : ix.Linked) (hrow : row ∈ ix.files) :
    (ix.withMarkers row markers).Linked := by
  refine ⟨⟨h.paths, h.fileIds, h.declarationIds, h.memberIds, h.referenceIds, h.declarationFiles,
    h.memberOwners, h.referenceFiles⟩, ?_⟩
  intro m hm
  rcases List.mem_append.mp hm with hm | hm
  · exact h.markerFiles m (List.mem_filter.mp hm).1
  · exact ⟨row, hrow, (fileId_of_mem_addedMarkers hm).symm⟩

end Drop

/-! ## Changes one after the other -/

/-- A change of one file. -/
inductive Change where
  | replace (file : FileInput) (symbols : FileSymbols)
  | mark (path : String) (markers : List Marker)
  | delete (path : String)

/-- The index after a change, which leaves it as it is if it fails. -/
def changed (ix : Index) : Change → Index
  | .replace file symbols =>
    match ix.replaceFile file symbols with
    | .ok (ix', _) => ix'
    | .error _ => ix
  | .mark path markers =>
    match ix.replaceMarkers path markers with
    | .ok ix' => ix'
    | .error _ => ix
  | .delete path => (ix.deleteFile path).1

/-- What is left of an empty index by changes, one after the other. -/
def after (changes : List Change) : Index := changes.foldl changed {}

/-- Where there are no rows, all are linked. -/
theorem linked_empty : Linked {} := by
  refine ⟨⟨?_, ?_, ?_, ?_, ?_, ?_, ?_, ?_⟩, ?_⟩ <;> simp

/-- Every change keeps the rows linked. -/
theorem Linked.changed {ix : Index} (h : ix.Linked) (change : Change) : (ix.changed change).Linked := by
  cases change with
  | replace file symbols =>
    -- A change that fails leaves the index.
    unfold Index.changed
    dsimp only
    rcases replaceFile_cases ix file symbols with ⟨m, -, herror⟩ | ⟨howned, hok⟩
    · rw [herror]
      exact h
    · rw [hok]
      exact h.withFile howned
  | mark path markers =>
    unfold Index.changed
    dsimp only
    cases hrow : ix.file? path with
    | none =>
      rw [replaceMarkers_of_none hrow]
      exact h
    | some row =>
      rw [replaceMarkers_of_file? hrow]
      exact h.withMarkers (h.file?_eq_some_iff.mp hrow).1
  | delete path =>
    unfold Index.changed
    dsimp only
    cases hrow : ix.file? path with
    | none =>
      rw [deleteFile_of_none hrow]
      exact h
    | some row =>
      rw [deleteFile_of_file? h.toSound hrow]
      exact h.withoutFile (h.file?_eq_some_iff.mp hrow).1

/-- Whatever changes are made, the rows stay linked. -/
theorem linked_after (changes : List Change) : (after changes).Linked := by
  unfold after
  -- the induction needs any linked index to start from
  generalize hstart : ({} : Index) = start
  have h : start.Linked := hstart ▸ linked_empty
  clear hstart
  induction changes generalizing start with
  | nil => exact h
  | cons change changes ih => exact ih (start.changed change) (h.changed change)

end JavaAtlas.Index
