import JavaAtlas.Proofs.Index.Linked

namespace JavaAtlas.Index

/-! # Rows written one after the other

A change of a file is written row by row, and every new row gets an identity when it is written. A
member without a declaration is found only after many rows have been dropped and added. A
transaction takes all of them back then, so nobody sees them.

* `Work`: writing that may fail, where what has been written until then stays;
* `atomically`: writing of which nothing stays if it fails;
* `on_writeFile`, `on_eraseFile`, `on_writeMarkers`: written row by row, an index with linked rows
  comes to what `replaceFile`, `deleteFile` and `replaceMarkers` say;
* `changes_exact`: so changes of files are atomic, exact and local, whatever was changed before.
-/

/-! ## Writing that may fail -/

/-- Writing of rows that may fail. What has been written until then stays. -/
abbrev Work (α : Type) := ExceptT Failure (StateM Index) α

namespace Work

variable {α β : Type}

/-- What comes of writing to an index. -/
def on (work : Work α) (ix : Index) : Except Failure α × Index := (work.run).run ix

/-- To give back a value writes nothing. -/
@[simp] theorem on_pure (a : α) (ix : Index) : (pure a : Work α).on ix = (.ok a, ix) := rfl

/-- To look at the index writes nothing. -/
@[simp] theorem on_get (ix : Index) : (get : Work Index).on ix = (.ok ix, ix) := rfl

/-- A change of the index cannot fail. -/
@[simp] theorem on_modify (f : Index → Index) (ix : Index) :
    (modify f : Work Unit).on ix = (.ok (), f ix) := rfl

/-- Writing goes on from what has been written, unless it has failed. -/
theorem on_bind (work : Work α) (next : α → Work β) (ix : Index) :
    (work >>= next).on ix =
      match work.on ix with
      | (.ok a, ix') => (next a).on ix'
      | (.error e, ix') => (.error e, ix') := by
  have hrun : (work >>= next).on ix =
      (ExceptT.bindCont next (work.on ix).1).run (work.on ix).2 := rfl
  rw [hrun]
  split
  next h => rw [h]; rfl
  next h => rw [h]; rfl

/-- What follows writing that succeeds is written to the index that this leaves. -/
theorem on_bind_ok {work : Work α} {ix ix' : Index} {a : α} (h : work.on ix = (.ok a, ix'))
    (next : α → Work β) : (work >>= next).on ix = (next a).on ix' := by
  rw [on_bind, h]

/-- Nothing follows writing that fails. -/
theorem on_bind_error {work : Work α} {ix ix' : Index} {e : Failure}
    (h : work.on ix = (.error e, ix')) (next : α → Work β) :
    (work >>= next).on ix = (.error e, ix') := by
  rw [on_bind, h]

end Work

/-- Writing of which nothing stays if it fails. -/
def atomically {α : Type} (work : Work α) : Work α := ExceptT.mk fun ix =>
  match work.on ix with
  | (.ok a, ix') => (.ok a, ix')
  | (.error e, _) => (.error e, ix)

/-- In a transaction the index is as before after a failure. -/
theorem on_atomically {α : Type} (work : Work α) (ix : Index) : (atomically work).on ix =
    match work.on ix with
    | (.ok a, ix') => (.ok a, ix')
    | (.error e, _) => (.error e, ix) := rfl

/-! ## Tables -/

/-- A table of an index. -/
structure Table (ρ : Type) where
  rows : Index → List ρ
  put : Index → List ρ → Index
  id : ρ → Nat
  rows_put : ∀ ix l, rows (put ix l) = l
  put_put : ∀ ix l l', put (put ix l) l' = put ix l'
  put_rows : ∀ ix, put ix (rows ix) = ix

namespace Table

attribute [simp] rows_put put_put put_rows

/-- The declarations. -/
def declarations : Table DeclarationRow where
  rows := Index.declarations
  put ix declarations := { ix with declarations }
  id := DeclarationRow.id
  rows_put _ _ := rfl
  put_put _ _ _ := rfl
  put_rows _ := rfl

/-- The members. -/
def members : Table MemberRow where
  rows := Index.members
  put ix members := { ix with members }
  id := MemberRow.id
  rows_put _ _ := rfl
  put_put _ _ _ := rfl
  put_rows _ := rfl

/-- The references. -/
def references : Table ReferenceRow where
  rows := Index.references
  put ix references := { ix with references }
  id := ReferenceRow.id
  rows_put _ _ := rfl
  put_put _ _ _ := rfl
  put_rows _ := rfl

/-- The diagnostics. -/
def markers : Table MarkerRow where
  rows := Index.markers
  put ix markers := { ix with markers }
  id := MarkerRow.id
  rows_put _ _ := rfl
  put_put _ _ _ := rfl
  put_rows _ := rfl

variable {ρ α : Type}

/-- The next identity. -/
def next (t : Table ρ) (ix : Index) : Nat := freshId ((t.rows ix).map t.id)

/-- Adds a row with a fresh identity. -/
def insert (t : Table ρ) (make : Nat → ρ) : Work Nat := do
  let ix ← get
  modify (t.put · (t.rows ix ++ [make (t.next ix)]))
  return t.next ix

/-- A new row stands last and has the next identity. -/
@[simp]
theorem on_insert (t : Table ρ) (make : Nat → ρ) (ix : Index) :
    (t.insert make).on ix = (.ok (t.next ix), t.put ix (t.rows ix ++ [make (t.next ix)])) := rfl

/-- After the next identity comes the one above it. -/
@[simp]
theorem freshId_concat (ids : List Nat) : freshId (ids ++ [freshId ids]) = freshId ids + 1 := by
  unfold freshId
  rw [List.foldl_append, List.foldl_cons, List.foldl_nil]
  omega

@[simp]
theorem numbered_nil {β : Type} (start : Nat) (make : Nat → α → β) :
    numbered start make [] = [] := rfl

/-- Rows are numbered from the first of them on. -/
@[simp]
theorem numbered_cons {β : Type} (start : Nat) (make : Nat → α → β) (value : α) (values : List α) :
    numbered start make (value :: values) =
      make start value :: numbered (start + 1) make values := by
  simp [numbered_eq_map_zip, List.range'_succ]

/-- Rows that are added one after the other have identities in a row. -/
theorem on_mapM_insert (t : Table ρ) {make : Nat → α → ρ} (hmake : ∀ i a, t.id (make i a) = i)
    (values : List α) (ix : Index) :
    (values.mapM fun a => t.insert (make · a)).on ix =
      (.ok (List.range' (t.next ix) values.length),
        t.put ix (t.rows ix ++ numbered (t.next ix) make values)) := by
  -- On the values, from any index. The first row takes the next identity, and the rest go on from
  -- there.
  induction values generalizing ix with
  | nil => simp
  | cons a values ih =>
    have hnext : t.next (t.put ix (t.rows ix ++ [make (t.next ix) a])) = t.next ix + 1 := by
      simp [next, hmake]
    rw [List.mapM_cons, Work.on_bind_ok (t.on_insert _ ix), Work.on_bind_ok (ih _), hnext]
    simp [List.range'_succ]

end Table

/-! ## The rows of one file -/

/-- Adds the row of a file, or changes all of that at its path but its identity. -/
def putFileRow (file : FileInput) (symbols : FileSymbols) : Work Unit := modify fun ix =>
  if ix.files.any (·.path == file.path) then
    { ix with files := ix.files.map fun f =>
        if f.path == file.path then FileRow.ofInput f.id file symbols else f }
  else
    { ix with files := ix.files ++ [FileRow.ofInput (freshId (ix.files.map (·.id))) file symbols] }

/-- The identity of the file at a path. It fails if there is none. -/
def idAt (path : String) : Work Nat := do
  let ix ← get
  match ix.file? path with
  | some row => return row.id
  | none => throw (.noIndexedFile path)

/-- Drops the members of a file. -/
def dropMembers (fileId : Nat) : Work Unit :=
  modify fun ix => { ix with members := ix.members.filter (·.fileId != fileId) }

/-- Drops the declarations of a file, and all members of them. -/
def dropDeclarations (fileId : Nat) : Work Unit := modify fun ix =>
  let gone := (ix.declarations.filter (·.fileId == fileId)).map (·.id)
  { ix with
    declarations := ix.declarations.filter (·.fileId != fileId)
    members := ix.members.filter fun m => !gone.contains m.declarationId }

/-- Drops the references of a file. -/
def dropReferences (fileId : Nat) : Work Unit :=
  modify fun ix => { ix with references := ix.references.filter (·.fileId != fileId) }

/-- Drops the diagnostics of a file. -/
def dropMarkers (fileId : Nat) : Work Unit :=
  modify fun ix => { ix with markers := ix.markers.filter (·.fileId != fileId) }

/-- The index without all that belongs to some files or to their declarations. -/
def cascaded (ix : Index) (gone : List Nat) : Index :=
  let goneDeclarations := (ix.declarations.filter (gone.contains ·.fileId)).map (·.id)
  { ix with
    declarations := ix.declarations.filter (!gone.contains ·.fileId)
    members := ix.members.filter fun m =>
      !gone.contains m.fileId && !goneDeclarations.contains m.declarationId
    references := ix.references.filter (!gone.contains ·.fileId)
    markers := ix.markers.filter (!gone.contains ·.fileId) }

/-- Drops the rows of the files at a path, with all that belongs to them, and tells how many files
there were. -/
def dropFiles (path : String) : Work Nat := do
  let ix ← get
  let gone := (ix.files.filter (·.path == path)).map (·.id)
  modify fun ix => cascaded { ix with files := ix.files.filter (·.path != path) } gone
  return gone.length

/-- Adds a declaration. -/
def addDeclaration (fileId : Nat) (package : String) (symbol : FileDeclaration) : Work Nat :=
  Table.declarations.insert fun id => { id, fileId, symbol, package }

/-- Adds a member of one of the declarations with these identities. It fails if the member names
none of them. -/
def addMember (fileId : Nat) (declarations : List Nat) (symbol : FileMember) : Work Nat :=
  match declarations[symbol.declIndex]? with
  | some declarationId => Table.members.insert fun id => { id, fileId, declarationId, symbol }
  | none => throw (.orphanMember symbol.name)

/-- Adds a reference. -/
def addReference (fileId : Nat) (symbol : FileReference) : Work Nat :=
  Table.references.insert fun id => { id, fileId, symbol }

/-- Adds a diagnostic. -/
def addMarker (fileId : Nat) (marker : Marker) : Work Nat :=
  Table.markers.insert fun id => { id, fileId, marker }

/-- Adds the rows of a file. -/
def addRows (fileId : Nat) (symbols : FileSymbols) : Work FileCounts := do
  let declarations ← symbols.declarations.mapM (addDeclaration fileId symbols.package)
  let _ ← symbols.members.mapM (addMember fileId declarations)
  let _ ← symbols.references.mapM (addReference fileId)
  return countsOf symbols

/-- Replaces a file, row by row. -/
def writeFile (file : FileInput) (symbols : FileSymbols) : Work FileCounts := do
  putFileRow file symbols
  let fileId ← idAt file.path
  dropMembers fileId
  dropDeclarations fileId
  dropReferences fileId
  dropMarkers fileId
  addRows fileId symbols

/-- Replaces the diagnostics of a file, row by row. -/
def writeMarkers (path : String) (markers : List Marker) : Work Nat := do
  let fileId ← idAt path
  dropMarkers fileId
  let _ ← markers.mapM (addMarker fileId)
  return markers.length

/-- Drops a file, and tells whether there was one. -/
def eraseFile (path : String) : Work Bool := do
  let count ← dropFiles path
  return 0 < count

/-! ## What comes of it -/

section Rows

variable {ix : Index} {file : FileInput} {symbols : FileSymbols} {path : String}

/-- A file that is indexed has an identity. -/
theorem on_idAt_some {row : FileRow} (h : ix.file? path = some row) :
    (idAt path).on ix = (.ok row.id, ix) := by
  unfold idAt
  rw [Work.on_bind_ok (Work.on_get ix), h]
  rfl

/-- Without an indexed file there is no identity. -/
theorem on_idAt_none (h : ix.file? path = none) :
    (idAt path).on ix = (.error (.noIndexedFile path), ix) := by
  unfold idAt
  rw [Work.on_bind_ok (Work.on_get ix), h]
  rfl

/-- The diagnostics of other files stay. -/
@[simp]
theorem on_dropMarkers (fileId : Nat) (ix : Index) : (dropMarkers fileId).on ix =
    (.ok (), { ix with markers := ix.markers.filter (·.fileId != fileId) }) := rfl

/-- The row is put where the row of the file was, under its identity. -/
theorem on_putFileRow (h : ix.Sound) : (putFileRow file symbols).on ix = (.ok (),
    { ix with files := putFile (FileRow.ofInput (ix.fileIdFor file.path) file symbols) ix.files }) := by
  have hid : ∀ f ∈ ix.files, f.path = file.path → f.id = ix.fileIdFor file.path := by
    intro f hf hpath
    rw [fileIdFor, h.file?_eq_some_iff.mpr ⟨hf, hpath⟩]
  -- At most one row is at the path, so the identity that is kept is the one that the file has.
  have hsame : (ix.files.map fun f =>
        if f.path == file.path then FileRow.ofInput f.id file symbols else f) =
      ix.files.map fun f =>
        if f.path == file.path then FileRow.ofInput (ix.fileIdFor file.path) file symbols
        else f := by
    apply List.map_congr_left
    intro f hf
    split
    next heq => rw [hid f hf (beq_iff_eq.mp heq)]
    next => rfl
  unfold putFileRow putFile
  rw [Work.on_modify, hsame]
  have hpath : (FileRow.ofInput (ix.fileIdFor file.path) file symbols).path = file.path := rfl
  rw [hpath]
  split
  next => rfl
  next hany =>
    have hnone : ix.file? file.path = none := by
      rw [file?, List.find?_eq_none]
      simpa using hany
    rw [fileIdFor, hnone]

/-- A member of another file's declaration does not belong to one that is gone. -/
theorem not_contains_gone (hids : (ix.declarations.map (·.id)).Nodup) {d : DeclarationRow}
    (hd : d ∈ ix.declarations) {fileId : Nat} (hne : d.fileId ≠ fileId) {id : Nat} (hid : d.id = id) :
    (!((ix.declarations.filter (·.fileId == fileId)).map (·.id)).contains id) = true := by
  rw [Bool.not_eq_true', List.contains_eq_mem, decide_eq_false_iff_not]
  intro hgone
  obtain ⟨other, hother, hsame⟩ := List.mem_map.mp hgone
  obtain ⟨hother, hfile⟩ := List.mem_filter.mp hother
  rw [List.inj_on_of_nodup_map hids hother hd (hsame.trans hid.symm)] at hfile
  exact hne (beq_iff_eq.mp hfile)

/-- Members of dropped declarations have been dropped with the file before. -/
theorem on_dropDeclarations {fileId : Nat}
    (hids : (ix.declarations.map (·.id)).Nodup)
    (howners : ∀ m ∈ ix.members,
      ∃ d ∈ ix.declarations, d.id = m.declarationId ∧ d.fileId ≠ fileId) :
    (dropDeclarations fileId).on ix =
      (.ok (), { ix with declarations := ix.declarations.filter (·.fileId != fileId) }) := by
  have hmembers : (ix.members.filter fun m => !((ix.declarations.filter (·.fileId == fileId)).map
      (·.id)).contains m.declarationId) = ix.members := by
    rw [List.filter_eq_self]
    intro m hm
    obtain ⟨d, hd, hid, hne⟩ := howners m hm
    exact not_contains_gone hids hd hne hid
  unfold dropDeclarations
  rw [Work.on_modify]
  dsimp only
  rw [hmembers]

/-- Writing the same for every value is writing the same. -/
theorem mapM_congr {α β : Type} {f g : α → Work β} {values : List α}
    (h : ∀ a ∈ values, f a = g a) : values.mapM f = values.mapM g := by
  induction values with
  | nil => rfl
  | cons a values ih =>
    rw [List.mapM_cons, List.mapM_cons, h a List.mem_cons_self,
      ih fun b hb => h b (List.mem_cons_of_mem a hb)]

/-- All declarations of a file are added behind those of the others. -/
@[simp]
theorem on_mapM_addDeclaration (fileId : Nat) (symbols : FileSymbols) (ix : Index) :
    (symbols.declarations.mapM (addDeclaration fileId symbols.package)).on ix =
      (.ok (List.range' (Table.declarations.next ix) symbols.declarations.length),
        { ix with declarations :=
            ix.declarations ++ addedDeclarations (Table.declarations.next ix) fileId symbols }) :=
  Table.on_mapM_insert Table.declarations (fun _ _ => rfl) _ ix

/-- Members that name declarations are added. -/
theorem on_mapM_addMember {fileId first : Nat}
    (howned : ∀ m ∈ symbols.members, m.declIndex < symbols.declarations.length) (ix : Index) :
    (symbols.members.mapM
        (addMember fileId (List.range' first symbols.declarations.length))).on ix =
      (.ok (List.range' (Table.members.next ix) symbols.members.length),
        { ix with members :=
            ix.members ++ addedMembers (Table.members.next ix) first fileId symbols }) := by
  -- No lookup of a declaration fails, so every member is simply inserted.
  have hall : symbols.members.mapM
        (addMember fileId (List.range' first symbols.declarations.length)) =
      symbols.members.mapM fun symbol => Table.members.insert fun id =>
        { id, fileId, symbol, declarationId := first + symbol.declIndex } := by
    apply mapM_congr
    intro m hm
    unfold addMember
    rw [List.getElem?_range' (howned m hm), Nat.one_mul]
  rw [hall]
  exact Table.on_mapM_insert Table.members (fun _ _ => rfl) _ ix

/-- All references of a file are added behind those of the others. -/
@[simp]
theorem on_mapM_addReference (fileId : Nat) (symbols : FileSymbols) (ix : Index) :
    (symbols.references.mapM (addReference fileId)).on ix =
      (.ok (List.range' (Table.references.next ix) symbols.references.length),
        { ix with references :=
            ix.references ++ addedReferences (Table.references.next ix) fileId symbols }) :=
  Table.on_mapM_insert Table.references (fun _ _ => rfl) _ ix

/-- All diagnostics of a file are added behind those of the others. -/
@[simp]
theorem on_mapM_addMarker (fileId : Nat) (markers : List Marker) (ix : Index) :
    (markers.mapM (addMarker fileId)).on ix =
      (.ok (List.range' (Table.markers.next ix) markers.length),
        { ix with markers := ix.markers ++ addedMarkers (Table.markers.next ix) fileId markers }) :=
  Table.on_mapM_insert Table.markers (fun _ _ => rfl) _ ix

/-- The first member that names none stops the writing. -/
theorem on_mapM_addMember_of_orphan {fileId : Nat} {declarations : List Nat}
    {members : List FileMember} {m : FileMember}
    (hfind : members.find? (fun m => declarations.length ≤ m.declIndex) = some m) (ix : Index) :
    ∃ ix', (members.mapM (addMember fileId declarations)).on ix =
      (.error (.orphanMember m.name), ix') := by
  induction members generalizing ix with
  | nil => cases hfind
  | cons first members ih =>
    rw [List.mapM_cons]
    -- Either the writing stops at this member or it stops later.
    by_cases horphan : declarations.length ≤ first.declIndex
    · rw [List.find?_cons_of_pos (by simpa using horphan)] at hfind
      cases hfind
      refine ⟨ix, Work.on_bind_error ?_ _⟩
      unfold addMember
      rw [List.getElem?_eq_none horphan]
      rfl
    · rw [List.find?_cons_of_neg (by simpa using horphan)] at hfind
      obtain ⟨id, added, hadded⟩ : ∃ id added,
          (addMember fileId declarations first).on ix = (.ok id, added) := by
        unfold addMember
        rw [List.getElem?_eq_getElem (Nat.lt_of_not_le horphan)]
        exact ⟨_, _, Table.on_insert _ _ ix⟩
      obtain ⟨ix', hrest⟩ := ih hfind added
      exact ⟨ix', (Work.on_bind_ok hadded _).trans (Work.on_bind_error hrest _)⟩

/-- The index with the row of a file put in its place and the other rows of the file dropped. -/
def cleared (ix : Index) (file : FileInput) (symbols : FileSymbols) : Index :=
  let id := ix.fileIdFor file.path
  withoutSymbols { ix with files := putFile (FileRow.ofInput id file symbols) ix.files } id

/-- The rows of the file are dropped before new ones are added. -/
theorem on_writeFile_eq (h : ix.Linked) : (writeFile file symbols).on ix =
    (addRows (ix.fileIdFor file.path) symbols).on (ix.cleared file symbols) := by
  let id := ix.fileIdFor file.path
  let placed : Index := { ix with files := putFile (FileRow.ofInput id file symbols) ix.files }
  have hplaced : (putFileRow file symbols).on ix = (.ok (), placed) := on_putFileRow h.toSound
  have hrow : placed.file? file.path = some (FileRow.ofInput id file symbols) :=
    (file?_withFile h.toSound : (ix.withFile file symbols).file? file.path = _)
  have hid : (idAt file.path).on placed = (.ok id, placed) := on_idAt_some hrow
  let trimmed : Index := { placed with members := ix.members.filter (·.fileId != id) }
  have hmembers : (dropMembers id).on placed = (.ok (), trimmed) := rfl
  -- The cascade finds no member, because those of the file are gone already.
  have hdeclarations : (dropDeclarations id).on trimmed =
      (.ok (), { trimmed with declarations := ix.declarations.filter (·.fileId != id) }) := by
    refine on_dropDeclarations h.declarationIds ?_
    intro m hm
    obtain ⟨hm, hne⟩ := List.mem_filter.mp hm
    obtain ⟨d, hd, howner, hfile⟩ := h.memberOwners m hm
    exact ⟨d, hd, howner, hfile ▸ bne_iff_ne.mp hne⟩
  have hreferences : ∀ ix, (dropReferences id).on ix =
      (.ok (), { ix with references := ix.references.filter (·.fileId != id) }) := fun _ => rfl
  unfold writeFile
  rw [Work.on_bind_ok hplaced, Work.on_bind_ok hid, Work.on_bind_ok hmembers,
    Work.on_bind_ok hdeclarations, Work.on_bind_ok (hreferences _),
    Work.on_bind_ok (on_dropMarkers id _)]
  rfl

/-- If every member has a declaration, all rows are added. -/
theorem on_addRows (howned : ∀ m ∈ symbols.members, m.declIndex < symbols.declarations.length) :
    (addRows (ix.fileIdFor file.path) symbols).on (ix.cleared file symbols) =
      (.ok (countsOf symbols), ix.withFile file symbols) := by
  unfold addRows
  rw [Work.on_bind_ok (on_mapM_addDeclaration _ symbols _),
    Work.on_bind_ok (on_mapM_addMember howned _),
    Work.on_bind_ok (on_mapM_addReference _ symbols _), Work.on_pure]
  rfl

/-- If a member has none, it fails somewhere on the way. -/
theorem on_addRows_of_orphan {m : FileMember} (hfind : symbols.members.find?
      (fun m => symbols.declarations.length ≤ m.declIndex) = some m) (fileId : Nat) (ix : Index) :
    ∃ ix', (addRows fileId symbols).on ix = (.error (.orphanMember m.name), ix') := by
  let declarations := List.range' (Table.declarations.next ix) symbols.declarations.length
  have hlength : declarations.length = symbols.declarations.length := List.length_range'
  rw [← hlength] at hfind
  unfold addRows
  rw [Work.on_bind_ok (on_mapM_addDeclaration fileId symbols ix)]
  obtain ⟨ix', hmembers⟩ := on_mapM_addMember_of_orphan hfind _
  exact ⟨ix', Work.on_bind_error hmembers _⟩

/-- Written row by row in a transaction, a file is replaced or everything stays. -/
theorem on_writeFile (h : ix.Linked) (file : FileInput) (symbols : FileSymbols) :
    (atomically (writeFile file symbols)).on ix =
      match ix.replaceFile file symbols with
      | .ok (ix', counts) => (.ok counts, ix')
      | .error e => (.error e, ix) := by
  rw [on_atomically, on_writeFile_eq h]
  -- Where a member is without declaration, what it left behind is not looked at.
  rcases replaceFile_cases ix file symbols with ⟨m, hfind, herror⟩ | ⟨howned, hok⟩
  · obtain ⟨ix', hstop⟩ := on_addRows_of_orphan hfind (ix.fileIdFor file.path)
      (ix.cleared file symbols)
    rw [hstop, herror]
  · rw [on_addRows howned, hok]

/-- Written row by row in a transaction, diagnostics are replaced or everything stays. -/
theorem on_writeMarkers (ix : Index) (path : String) (markers : List Marker) :
    (atomically (writeMarkers path markers)).on ix =
      match ix.replaceMarkers path markers with
      | .ok ix' => (.ok markers.length, ix')
      | .error e => (.error e, ix) := by
  rw [on_atomically]
  unfold writeMarkers
  cases hrow : ix.file? path with
  | none => rw [Work.on_bind_error (on_idAt_none hrow), replaceMarkers_of_none hrow]
  | some row =>
    rw [Work.on_bind_ok (on_idAt_some hrow), Work.on_bind_ok (on_dropMarkers row.id ix),
      Work.on_bind_ok (on_mapM_addMarker row.id markers _), Work.on_pure,
      replaceMarkers_of_file? hrow]
    rfl

/-- The row found at a path is the only one there. -/
theorem filter_path_of_file? (h : ix.Sound) {row : FileRow} (hrow : ix.file? path = some row) :
    ix.files.filter (·.path == path) = [row] := by
  obtain ⟨hmem, rfl⟩ := h.file?_eq_some_iff.mp hrow
  have hnodup : (ix.files.filter (·.path == row.path)).Nodup := h.paths.of_map.filter _
  refine List.perm_singleton.mp ((List.perm_ext_iff_of_nodup hnodup (List.nodup_singleton row)).mpr ?_)
  intro f
  rw [List.mem_filter, List.mem_singleton, beq_iff_eq]
  constructor
  · rintro ⟨hf, hpath⟩
    exact List.inj_on_of_nodup_map h.paths hf hmem hpath
  · rintro rfl
    exact ⟨hmem, rfl⟩

/-- The rows at a path go, and all that belongs to them. -/
@[simp]
theorem on_dropFiles (path : String) (ix : Index) : (dropFiles path).on ix =
    (.ok ((ix.files.filter (·.path == path)).map (·.id)).length,
      cascaded { ix with files := ix.files.filter (·.path != path) }
        ((ix.files.filter (·.path == path)).map (·.id))) := rfl

/-- Without a file that goes nothing goes with it. -/
@[simp]
theorem cascaded_nil (ix : Index) : ix.cascaded [] = ix := by
  simp [cascaded]

/-- The declarations that go with a file take no member of another file with them. -/
theorem filter_members_of_sound (h : ix.Sound) (id : Nat) :
    (ix.members.filter fun m => m.fileId != id &&
        !((ix.declarations.filter (·.fileId == id)).map (·.id)).contains m.declarationId) =
      ix.members.filter (·.fileId != id) := by
  apply List.filter_congr
  intro m hm
  by_cases hfile : m.fileId = id
  · simp [hfile]
  · obtain ⟨d, hd, hid, hdfile⟩ := h.memberOwners m hm
    rw [← hdfile] at hfile
    rw [not_contains_gone h.declarationIds hd hfile hid, Bool.and_true]

/-- With one file goes what belongs to it, and no more. -/
theorem cascaded_singleton (h : ix.Sound) (files : List FileRow) (id : Nat) :
    cascaded { ix with files } [id] = { ix.withoutSymbols id with files } := by
  have hcontains : ∀ i : Nat, [id].contains i = (i == id) := by
    intro i
    rw [List.contains_cons, List.contains_nil, Bool.or_false]
  unfold cascaded withoutSymbols
  simp only [hcontains]
  -- Only the members differ: the cascade drops them by file and by declaration.
  exact congrArg (fun members => { ix with
    files
    declarations := ix.declarations.filter (·.fileId != id)
    members
    references := ix.references.filter (·.fileId != id)
    markers := ix.markers.filter (·.fileId != id) }) (filter_members_of_sound h id)

/-- Dropping a file drops all that belongs to it. -/
theorem on_eraseFile (h : ix.Linked) (path : String) :
    (eraseFile path).on ix = (.ok (ix.deleteFile path).2, (ix.deleteFile path).1) := by
  unfold eraseFile
  rw [Work.on_bind_ok (on_dropFiles path ix), Work.on_pure]
  cases hrow : ix.file? path with
  | none =>
    -- Nothing is at the path, so nothing is dropped with it.
    have hgone : ix.files.filter (·.path == path) = [] :=
      List.filter_eq_nil_iff.mpr (List.find?_eq_none.mp hrow)
    have hfiles : ix.files.filter (·.path != path) = ix.files := by
      refine filter_path_eq_self fun f hf => ?_
      simpa using List.find?_eq_none.mp hrow f hf
    rw [hgone, hfiles, List.map_nil, cascaded_nil, deleteFile_of_none hrow]
    rfl
  | some row =>
    obtain ⟨-, rfl⟩ := h.file?_eq_some_iff.mp hrow
    rw [filter_path_of_file? h.toSound hrow, List.map_singleton, cascaded_singleton h.toSound,
      deleteFile_of_file? h.toSound hrow]
    rfl

end Rows

/-! ## Exact changes -/

/-- Whatever changes were made, the rows are linked, and the next change is atomic, exact and local:
written row by row in a transaction, a file is replaced by exactly what is given, or everything
stays because a member has no declaration; a file is dropped with all its rows; and diagnostics are
replaced, or everything stays because there is no such file. -/
theorem changes_exact (changes : List Change) :
    let ix := after changes
    ix.Linked ∧
    (∀ file symbols,
      (∃ m ∈ symbols.members, symbols.declarations.length ≤ m.declIndex ∧
        ix.replaceFile file symbols = .error (.orphanMember m.name) ∧
        (atomically (writeFile file symbols)).on ix = (.error (.orphanMember m.name), ix)) ∨
      ∃ ix', (∀ m ∈ symbols.members, m.declIndex < symbols.declarations.length) ∧
        ix.replaceFile file symbols = .ok (ix', countsOf symbols) ∧
        (atomically (writeFile file symbols)).on ix = (.ok (countsOf symbols), ix') ∧
        Replaced ix ix' file symbols) ∧
    (∀ path, ∃ ix', ix.deleteFile path = (ix', (ix.file? path).isSome) ∧
      (eraseFile path).on ix = (.ok (ix.file? path).isSome, ix') ∧ Dropped ix ix' path) ∧
    (∀ path markers,
      (ix.file? path = none ∧
        ix.replaceMarkers path markers = .error (.noIndexedFile path) ∧
        (atomically (writeMarkers path markers)).on ix = (.error (.noIndexedFile path), ix)) ∨
      ∃ ix', (ix.file? path).isSome = true ∧ ix.replaceMarkers path markers = .ok ix' ∧
        (atomically (writeMarkers path markers)).on ix = (.ok markers.length, ix') ∧
        Marked ix ix' path markers) := by
  intro ix
  have hlinked : ix.Linked := linked_after changes
  refine ⟨hlinked, ?_, ?_, ?_⟩
  · -- A file is replaced.
    intro file symbols
    have hwritten := on_writeFile hlinked file symbols
    rcases replaceFile_cases ix file symbols with ⟨m, hfind, herror⟩ | ⟨howned, hok⟩
    · rw [herror] at hwritten
      have horphan : symbols.declarations.length ≤ m.declIndex := by
        simpa using List.find?_some hfind
      exact .inl ⟨m, List.mem_of_find?_eq_some hfind, horphan, herror, hwritten⟩
    · rw [hok] at hwritten
      exact .inr ⟨_, howned, hok, hwritten, replaced_withFile hlinked.toSound howned⟩
  · -- A file is dropped.
    intro path
    have herased := on_eraseFile hlinked path
    cases hrow : ix.file? path with
    | none =>
      rw [deleteFile_of_none hrow] at herased ⊢
      exact ⟨ix, rfl, herased, rowsOf_of_none hrow, rfl, fun _ _ => rfl⟩
    | some row =>
      obtain ⟨hmem, rfl⟩ := hlinked.file?_eq_some_iff.mp hrow
      rw [deleteFile_of_file? hlinked.toSound hrow] at herased ⊢
      exact ⟨_, rfl, herased, dropped_withoutFile hlinked.toSound hmem⟩
  · -- Diagnostics are replaced.
    intro path markers
    have hwritten := on_writeMarkers ix path markers
    cases hrow : ix.file? path with
    | none =>
      rw [replaceMarkers_of_none hrow] at hwritten ⊢
      exact .inl ⟨rfl, rfl, hwritten⟩
    | some row =>
      rw [replaceMarkers_of_file? hrow] at hwritten ⊢
      exact .inr ⟨_, rfl, rfl, hwritten, marked_withMarkers hlinked.toSound hrow⟩

/-- A file of one class. -/
def oneClass : FileInput where
  path := "A.java"
  origin := .project
  digest := .cleared
  size := 15
  content := "class A{int x;}"

/-- Its symbols, with a member of the declaration at this place. -/
def oneClassSymbols (declIndex : Nat) : FileSymbols where
  declarations := [{ qualname := "A", name := "A" }]
  members := [{ declIndex, kind := .field, name := "x" }]

/-- It is indexed and marked; then it is replaced in vain, replaced, and dropped. -/
theorem changes_exact_oneClass :
    let ix := after [.replace oneClass (oneClassSymbols 0), .mark "A.java" [{}]]
    (ix.rowsOf "A.java").members.map (·.declarationId) = [1] ∧
    (ix.rowsOf "A.java").markers.length = 1 ∧
    (atomically (writeFile oneClass (oneClassSymbols 1))).on ix =
      (.error (.orphanMember "x"), ix) ∧
    (∃ ix', (atomically (writeFile oneClass (oneClassSymbols 0))).on ix =
        (.ok (countsOf (oneClassSymbols 0)), ix') ∧
      Replaced ix ix' oneClass (oneClassSymbols 0)) ∧
    (∃ ix', (eraseFile "A.java").on ix = (.ok true, ix') ∧ Dropped ix ix' "A.java") ∧
    (∃ ix', (atomically (writeMarkers "A.java" [])).on ix = (.ok 0, ix') ∧
      Marked ix ix' "A.java" []) := by
  intro ix
  obtain ⟨-, hreplace, hdelete, hmark⟩ :=
    changes_exact [.replace oneClass (oneClassSymbols 0), .mark "A.java" [{}]]
  have hfile : (ix.file? "A.java").isSome = true := by decide +kernel
  refine ⟨by decide +kernel, by decide +kernel, ?_, ?_, ?_, ?_⟩
  · rcases hreplace oneClass (oneClassSymbols 1) with ⟨m, hm, -, -, hfails⟩ | ⟨ix', howned, -⟩
    · obtain rfl := List.mem_singleton.mp hm
      exact hfails
    · exact absurd (howned _ List.mem_cons_self) (Nat.lt_irrefl 1)
  · rcases hreplace oneClass (oneClassSymbols 0) with ⟨m, hm, horphan, -⟩ | ⟨ix', -, -, hdone⟩
    · obtain rfl := List.mem_singleton.mp hm
      exact absurd horphan (by decide)
    · exact ⟨ix', hdone⟩
  · obtain ⟨ix', -, hdone⟩ := hdelete "A.java"
    rw [hfile] at hdone
    exact ⟨ix', hdone⟩
  · rcases hmark "A.java" [] with ⟨hnone, -⟩ | ⟨ix', -, -, hdone⟩
    · rw [hnone] at hfile
      cases hfile
    · exact ⟨ix', hdone⟩

end JavaAtlas.Index
