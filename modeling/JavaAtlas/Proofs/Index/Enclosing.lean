import JavaAtlas.Proofs.Index.Reading
import JavaAtlas.Proofs.Index.Representation
import JavaAtlas.Proofs.Java.Walk

namespace JavaAtlas

/-! # What is around a stored reference

The type and the member around a stored reference are looked up by ranges of bytes: of all rows of
its file whose ranges hold it, the one with the shortest range. When the file was walked, they were
known from where the walk was. The two agree.

* `Index.StoredAs.shows`: what a view shows of a file is what was extracted from it;
* `IndexView.Shows.enclosingDeclaration`: the shortest declaration around a reference is the type
  from which it was made;
* `IndexView.Shows.mem_callableRows_iff`: there is no method or constructor around a reference but
  the one in whose body it was made;
* `enclosing_agrees_with_walk`: what follows for a file that is stored.
-/

namespace Index

/-! ## The rows of one file -/

section Rows

variable {v : IndexView} {entries : List FileEntry} {n : Numbering} {e : FileEntry}

/-- A stored file is found by its number. -/
theorem StoredAs.fileOf?_eq (h : v.index.StoredAs entries n) (he : e ∈ entries) :
    v.index.fileOf? (n.file e.path) = some (e.fileRow n) :=
  (find?_key_eq_some_iff h.sound.fileIds).2
    ⟨h.files.mem_iff.2 (List.mem_map_of_mem he), rfl⟩

/-- Stored files at one path are one file. -/
theorem StoredAs.eq_of_path (h : v.index.StoredAs entries n) (he : e ∈ entries) {e' : FileEntry}
    (he' : e' ∈ entries) (hpath : e'.path = e.path) : e' = e :=
  List.inj_on_of_nodup_map h.paths he' he hpath

/-- The rows of the declarations of a file. -/
theorem StoredAs.mem_declarationRows_iff (h : v.index.StoredAs entries n) (he : e ∈ entries)
    {row : DeclarationRow × FileRow} :
    row ∈ v.declarationRows ∧ row.2.path = e.path ↔
      row.1 ∈ e.declarationRows n ∧ row.2 = e.fileRow n := by
  obtain ⟨d, f⟩ := row
  have hmem : (d, f) ∈ v.declarationRows ↔
      d ∈ v.index.declarations ∧ v.index.fileOf? d.fileId = some f := by
    simp [IndexView.declarationRows]
  rw [hmem, h.declarations.mem_iff, List.mem_flatMap]
  dsimp only
  -- A row at the path of the file belongs to the file, as no other has its path.
  constructor
  · rintro ⟨⟨⟨e', he', hd⟩, hfile⟩, hpath⟩
    rw [FileEntry.fileId_of_mem_declarationRows hd, h.fileOf?_eq he', Option.some.injEq] at hfile
    subst hfile
    obtain rfl := h.eq_of_path he he' hpath
    exact ⟨hd, rfl⟩
  · rintro ⟨hd, rfl⟩
    rw [FileEntry.fileId_of_mem_declarationRows hd]
    exact ⟨⟨⟨e, he, hd⟩, h.fileOf?_eq he⟩, rfl⟩

/-- The row of the declaration at a place in its file. -/
theorem exists_declarationRow_at {file : FileInput} {symbols : FileSymbols}
    (hcount : (n.declarations file.path).length =
      (FileEntry.ofInput file symbols).declarations.length) {i : Nat} {d : FileDeclaration}
    (hd : symbols.declarations[i]? = some d) :
    ∃ row ∈ (FileEntry.ofInput file symbols).declarationRows n,
      row.id = (n.declarations file.path).getD i 0 ∧ row.symbol = d := by
  have hplace : (FileEntry.ofInput file symbols).declarations[i]? =
      some { id := 0, fileId := 0, package := symbols.package, symbol := d } := by
    rw [FileEntry.ofInput, List.getElem?_map, hd]
    rfl
  obtain ⟨hi, hget⟩ := List.getElem?_eq_some_iff.1 hplace
  have hid : i < (n.declarations file.path).length := by omega
  -- The row was made from the identity and the declaration at the same place.
  have hzip : ((n.declarations file.path)[i], (FileEntry.ofInput file symbols).declarations[i]) ∈
      (n.declarations file.path).zip (FileEntry.ofInput file symbols).declarations := by
    rw [← List.getElem_zip]
    exact List.getElem_mem (by rw [List.length_zip]; omega)
  refine ⟨_, List.mem_map_of_mem hzip, ?_, ?_⟩
  · rw [List.getD_eq_getElem?_getD, List.getElem?_eq_getElem hid]
    rfl
  · exact congrArg DeclarationRow.symbol hget

/-- The rows of the members of a file, but for their own identities, each with the row of the
declaration that it names. -/
theorem StoredAs.memberRow_of_mem (h : v.index.StoredAs entries n) (he : e ∈ entries)
    {row : MemberRow × DeclarationRow × FileRow} (hrow : row ∈ v.memberRows)
    (hpath : row.2.2.path = e.path) :
    { row.1 with id := 0 } ∈ e.memberRows n ∧ row.2.1 ∈ v.index.declarations ∧
      row.2.1.id = row.1.declarationId := by
  obtain ⟨m, hm, hjoin⟩ := List.mem_filterMap.1 hrow
  obtain ⟨d, hd, hjoin⟩ := Option.bind_eq_some_iff.1 hjoin
  obtain ⟨f, hf, hjoin⟩ := Option.bind_eq_some_iff.1 hjoin
  cases hjoin
  obtain ⟨e', he', hstored⟩ := List.mem_flatMap.1 (h.members.mem_iff.1 (List.mem_map_of_mem hm))
  have hfile := FileEntry.fileId_of_mem_memberRows hstored
  dsimp only at hfile
  rw [hfile, h.fileOf?_eq he', Option.some.injEq] at hf
  subst hf
  obtain rfl := h.eq_of_path he he' hpath
  exact ⟨hstored, (find?_key_eq_some_iff h.sound.declarationIds).1 hd⟩

/-- The members of a stored file have rows. -/
theorem StoredAs.exists_memberRow (h : v.index.StoredAs entries n) (he : e ∈ entries)
    {m : MemberRow} (hm : m ∈ e.memberRows n) :
    ∃ row ∈ v.memberRows, row.2.2.path = e.path ∧ { row.1 with id := 0 } = m := by
  obtain ⟨m', hm', rfl⟩ := List.mem_map.1 (h.members.mem_iff.2 (List.mem_flatMap.2 ⟨e, he, hm⟩))
  have hfile := FileEntry.fileId_of_mem_memberRows hm
  dsimp only at hfile
  obtain ⟨d, hd, hid, -⟩ := h.sound.memberOwners m' hm'
  have hfind : v.index.declarations.find? (·.id == m'.declarationId) = some d :=
    (find?_key_eq_some_iff h.sound.declarationIds).2 ⟨hd, hid⟩
  refine ⟨(m', d, e.fileRow n), List.mem_filterMap.2 ⟨m', hm', ?_⟩, rfl, rfl⟩
  rw [hfind, hfile, h.fileOf?_eq he]
  rfl

/-- The rows of the references of a file, but for their own identities. -/
theorem StoredAs.referenceRow_of_mem (h : v.index.StoredAs entries n) (he : e ∈ entries)
    {row : ReferenceRow × FileRow} (hrow : row ∈ v.referenceRows) (hpath : row.2.path = e.path) :
    { row.1 with id := 0 } ∈ e.referenceRows n := by
  obtain ⟨r, hr, hjoin⟩ := List.mem_filterMap.1 hrow
  obtain ⟨f, hf, rfl⟩ := Option.map_eq_some_iff.1 hjoin
  obtain ⟨e', he', hstored⟩ := List.mem_flatMap.1 (h.references.mem_iff.1 (List.mem_map_of_mem hr))
  have hfile := FileEntry.fileId_of_mem_referenceRows hstored
  dsimp only at hfile
  rw [hfile, h.fileOf?_eq he', Option.some.injEq] at hf
  subst hf
  obtain rfl := h.eq_of_path he he' hpath
  exact hstored

/-- The references of a stored file have rows. -/
theorem StoredAs.exists_referenceRow (h : v.index.StoredAs entries n) (he : e ∈ entries)
    {r : ReferenceRow} (hr : r ∈ e.referenceRows n) :
    ∃ row ∈ v.referenceRows, row.2.path = e.path ∧ { row.1 with id := 0 } = r := by
  obtain ⟨r', hr', rfl⟩ :=
    List.mem_map.1 (h.references.mem_iff.2 (List.mem_flatMap.2 ⟨e, he, hr⟩))
  have hfile := FileEntry.fileId_of_mem_referenceRows hr
  dsimp only at hfile
  refine ⟨(r', e.fileRow n), List.mem_filterMap.2 ⟨r', hr', ?_⟩, rfl, rfl⟩
  rw [hfile, h.fileOf?_eq he]
  rfl

end Rows

end Index

namespace IndexView

/-- A view shows of a file exactly these symbols, none of them damaged, and every member with the
declaration that it names. -/
structure Shows (v : IndexView) (path : String) (symbols : FileSymbols) : Prop where
  declaration : ∀ row ∈ v.declarationRows, row.2.path = path →
    row.1.symbol ∈ symbols.declarations ∧ row.1.damage = []
  exists_declaration : ∀ d ∈ symbols.declarations,
    ∃ row ∈ v.declarationRows, row.2.path = path ∧ row.1.symbol = d
  member : ∀ row ∈ v.memberRows, row.2.2.path = path →
    row.1.symbol ∈ symbols.members ∧ row.1.damage = [] ∧
      symbols.declarations[row.1.symbol.declIndex]? = some row.2.1.symbol
  exists_member : ∀ m ∈ symbols.members,
    ∃ row ∈ v.memberRows, row.2.2.path = path ∧ row.1.symbol = m
  reference : ∀ row ∈ v.referenceRows, row.2.path = path → row.1.symbol ∈ symbols.references
  exists_reference : ∀ r ∈ symbols.references,
    ∃ row ∈ v.referenceRows, row.2.path = path ∧ row.1.symbol = r

end IndexView

namespace Index

/-- An index stored from entries shows the symbols of each. -/
theorem StoredAs.shows {v : IndexView} {entries : List FileEntry} {n : Numbering}
    (h : v.index.StoredAs entries n) {file : FileInput} {symbols : FileSymbols}
    (he : FileEntry.ofInput file symbols ∈ entries) : v.Shows file.path symbols where
  declaration row hrow hpath := by
    obtain ⟨hd, -⟩ := (h.mem_declarationRows_iff he).1 ⟨hrow, hpath⟩
    obtain ⟨⟨id, d⟩, hzip, heq⟩ := List.mem_map.1 hd
    obtain ⟨symbol, hsymbol, rfl⟩ := List.mem_map.1 (List.of_mem_zip hzip).2
    rw [← heq]
    exact ⟨hsymbol, rfl⟩
  exists_declaration d hd := by
    obtain ⟨i, hi⟩ := List.getElem?_of_mem hd
    obtain ⟨row, hrow, -, hsymbol⟩ := exists_declarationRow_at (h.declarationCounts _ he) hi
    have hmem : (row, (FileEntry.ofInput file symbols).fileRow n) ∈ v.declarationRows ∧ _ :=
      (h.mem_declarationRows_iff he).2 ⟨hrow, rfl⟩
    exact ⟨_, hmem.1, hmem.2, hsymbol⟩
  member row hrow hpath := by
    obtain ⟨hm, hd, hid⟩ := h.memberRow_of_mem he hrow hpath
    obtain ⟨m, hmem, heq⟩ := List.mem_map.1 hm
    have howned := h.owned _ he m hmem
    obtain ⟨symbol, hsymbol, rfl⟩ := List.mem_map.1 hmem
    have hsame : symbol = row.1.symbol := congrArg MemberRow.symbol heq
    have hdamage : [] = row.1.damage := congrArg MemberRow.damage heq
    have hnamed : (n.declarations file.path).getD symbol.declIndex 0 = row.1.declarationId :=
      congrArg MemberRow.declarationId heq
    have hlt : symbol.declIndex < symbols.declarations.length := by
      simpa [FileEntry.ofInput] using howned
    -- the declaration that the member names is the one at that place in the file
    obtain ⟨d, hrow', hid', hsymbol'⟩ := exists_declarationRow_at (h.declarationCounts _ he)
      (List.getElem?_eq_getElem hlt)
    have hdeclaration : row.2.1 = d :=
      List.inj_on_of_nodup_map h.sound.declarationIds hd
        (h.declarations.mem_iff.2 (List.mem_flatMap.2 ⟨_, he, hrow'⟩))
        (hid.trans (hnamed.symm.trans hid'.symm))
    rw [← hsame, hdeclaration, hsymbol']
    exact ⟨hsymbol, hdamage.symm, List.getElem?_eq_getElem hlt⟩
  exists_member m hm := by
    obtain ⟨row, hrow, hpath, heq⟩ := h.exists_memberRow he
      (List.mem_map_of_mem (List.mem_map_of_mem hm))
    exact ⟨row, hrow, hpath, congrArg MemberRow.symbol heq⟩
  reference row hrow hpath := by
    obtain ⟨r, hr, heq⟩ := List.mem_map.1 (h.referenceRow_of_mem he hrow hpath)
    obtain ⟨symbol, hsymbol, rfl⟩ := List.mem_map.1 hr
    have hsame : symbol = row.1.symbol := congrArg ReferenceRow.symbol heq
    rw [← hsame]
    exact hsymbol
  exists_reference r hr := by
    obtain ⟨row, hrow, hpath, heq⟩ := h.exists_referenceRow he
      (List.mem_map_of_mem (List.mem_map_of_mem hr))
    exact ⟨row, hrow, hpath, congrArg ReferenceRow.symbol heq⟩

/-- A file that has been stored is shown with all that was found in it. -/
theorem Sound.exists_shows {ix : Index} (h : ix.Sound) (file : FileInput) {symbols : FileSymbols}
    (howned : ∀ m ∈ symbols.members, m.declIndex < symbols.declarations.length) :
    ∃ ix', ix.replaceFile file symbols = .ok (ix', countsOf symbols) ∧
      ∀ v : IndexView, v.index = ix' → v.Shows file.path symbols := by
  obtain ⟨known, hkeeps⟩ := h.exists_keeps
  obtain ⟨ix', hstored, entries, n, hstoredAs, hknown⟩ := hkeeps.replaceFile file howned
  -- the entry at the path of the file is the one just stored
  have hentry : FileEntry.ofInput file symbols ∈ entries := by
    have hat := hknown file.path
    rw [Function.update_self, entryAt_eq_some_iff hstoredAs.paths] at hat
    exact hat.1
  refine ⟨ix', hstored, ?_⟩
  rintro v rfl
  exact hstoredAs.shows hentry

end Index

/-! ## Looking up by ranges -/

namespace IndexView

variable {v : IndexView} {path : String} {symbols : FileSymbols} {w : Java.Walked}
  {s : ReferenceSite}

/-- A site is where a reference of the walk stands, in the file at a path. -/
structure SiteOf (path : String) (w : Java.Walked) (s : ReferenceSite) : Prop where
  path : s.path = path
  start : s.startByte = w.reference.startByte
  stop : s.endByte = w.reference.endByte

/-- A range holds the site of a reference exactly if it holds its place. -/
theorem SiteOf.holdsSite (h : SiteOf path w s) (r : SourceRange) :
    holdsSite r s = r.holds w.reference.place := by
  unfold IndexView.holdsSite SourceRange.holds FileReference.place
  rw [h.start, h.stop]

/-- What is looked up at a site is what the reference of the walk was made from: the declaration
is read from the row of the type, the member from the row of the method or constructor in whose
body it was made, which belongs to that type, and outside of such bodies there is none. -/
structure FoundAt (v : IndexView) (path : String) (w : Java.Walked) (s : ReferenceSite) :
    Prop where
  declaration : ∃ row ∈ v.declarationRows, row.2.path = path ∧ row.1.symbol = w.type ∧
    ∃ d, v.readDeclaration row = .ok d ∧ v.enclosingDeclaration s = .ok (some d) ∧
      w.reference.callerClass = some d.qualname
  noMember : w.callable = none → v.enclosingMember s = .ok none
  member : ∀ m, w.callable = some m →
    ∃ row ∈ v.memberRows, row.2.2.path = path ∧ row.1.symbol = m ∧ row.2.1.symbol = w.type ∧
      ∃ found, readMember row = .ok found ∧ v.enclosingMember s = .ok (some found)

/-- The declarations of the file around a site are those whose ranges hold the reference. -/
theorem mem_rowsAround_iff (hs : SiteOf path w s)
    {row : DeclarationRow × FileRow} :
    row ∈ v.declarationRows.filter (fun (d, f) =>
      f.path == s.path && holdsSite d.symbol.range s) ↔
      row ∈ v.declarationRows ∧ row.2.path = path ∧
        row.1.symbol.range.holds w.reference.place := by
  rw [List.mem_filter, Bool.and_eq_true, beq_iff_eq, hs.path, hs.holdsSite]

/-- The type that the walk was in is the one found around the reference. -/
theorem Shows.enclosingDeclaration (h : v.Shows path symbols)
    (hw : Java.Attribution symbols.declarations symbols.members w) (hs : SiteOf path w s) :
    ∃ row ∈ v.declarationRows, row.2.path = path ∧ row.1.symbol = w.type ∧
      ∃ d, v.readDeclaration row = .ok d ∧ v.enclosingDeclaration s = .ok (some d) ∧
        w.reference.callerClass = some d.qualname := by
  obtain ⟨own, hown, hownPath, hsymbol⟩ := h.exists_declaration w.type hw.recorded
  have hownMem := (mem_rowsAround_iff hs).2 ⟨hown, hownPath, hsymbol ▸ hw.around⟩
  unfold IndexView.enclosingDeclaration
  dsimp only
  split
  · next row hhead =>
    obtain ⟨hmem, hleast⟩ := keyOrder_int.le_of_head?_sortByKey _ hhead
    obtain ⟨hrow, hpath, hholds⟩ := (mem_rowsAround_iff hs).1 hmem
    obtain ⟨hdeclared, hdamage⟩ := h.declaration row hrow hpath
    have hsame : row.1.symbol = w.type := by
      rcases hw.innermost _ hdeclared hholds with heq | hshorter
      · exact heq
      · -- a longer declaration does not come first
        have hle := hleast own hownMem
        rw [decide_eq_true_eq, hsymbol] at hle
        unfold SourceRange.ShorterThan at hshorter
        unfold rangeLength at hle
        omega
    have hread := v.readDeclaration_of_undamaged hdamage
    refine ⟨row, hrow, hpath, hsame, v.declarationOf row, hread, ?_, ?_⟩
    · rw [hread]
      rfl
    · rw [declarationOf, hsame]
      exact hw.caller
  · next hhead =>
    rw [head?_sortByKey_eq_none_iff] at hhead
    rw [hhead] at hownMem
    cases hownMem

/-- There is at most one method or constructor around a reference, so that the first one is it. -/
theorem Shows.mem_callableRows_iff (h : v.Shows path symbols)
    (hw : Java.Attribution symbols.declarations symbols.members w) (hs : SiteOf path w s)
    {row : MemberRow × DeclarationRow × FileRow} :
    row ∈ v.memberRows.filter (fun (m, _, f) =>
      f.path == s.path && m.symbol.kind != .field && holdsSite m.symbol.range s) ↔
      row ∈ v.memberRows ∧ row.2.2.path = path ∧ w.callable = some row.1.symbol := by
  rw [List.mem_filter, Bool.and_eq_true, Bool.and_eq_true, beq_iff_eq, hs.path, hs.holdsSite,
    bne_iff_ne, hw.callable]
  constructor
  · rintro ⟨hrow, ⟨hpath, hkind⟩, hholds⟩
    exact ⟨hrow, hpath, (h.member row hrow hpath).1, hkind, hholds⟩
  · rintro ⟨hrow, hpath, -, hkind, hholds⟩
    exact ⟨hrow, ⟨hpath, hkind⟩, hholds⟩

/-- If the walk was in no callable, none is found around the reference. -/
theorem Shows.enclosingMember_of_none (h : v.Shows path symbols)
    (hw : Java.Attribution symbols.declarations symbols.members w) (hs : SiteOf path w s)
    (hnone : w.callable = none) : v.enclosingMember s = .ok none := by
  unfold IndexView.enclosingMember
  dsimp only
  split
  · next row hhead =>
    obtain ⟨hmem, -⟩ := keyOrder_int.le_of_head?_sortByKey _ hhead
    obtain ⟨-, -, hcallable⟩ := (h.mem_callableRows_iff hw hs).1 hmem
    rw [hnone] at hcallable
    cases hcallable
  · rfl

/-- The callable that the walk was in is the one found around the reference. -/
theorem Shows.enclosingMember_of_some (h : v.Shows path symbols)
    (hw : Java.Attribution symbols.declarations symbols.members w) (hs : SiteOf path w s)
    {m : FileMember} (hm : w.callable = some m) :
    ∃ row ∈ v.memberRows, row.2.2.path = path ∧ row.1.symbol = m ∧
      ∃ found, readMember row = .ok found ∧ v.enclosingMember s = .ok (some found) := by
  obtain ⟨own, hown, hownPath, hsymbol⟩ := h.exists_member m ((hw.callable m).1 hm).1
  have hownMem := (h.mem_callableRows_iff hw hs).2 ⟨hown, hownPath, hsymbol ▸ hm⟩
  unfold IndexView.enclosingMember
  dsimp only
  split
  · next row hhead =>
    obtain ⟨hmem, -⟩ := keyOrder_int.le_of_head?_sortByKey _ hhead
    obtain ⟨hrow, hpath, hcallable⟩ := (h.mem_callableRows_iff hw hs).1 hmem
    have hread := readMember_of_undamaged (h.member row hrow hpath).2.1
    -- All rows that hold the site are of the one callable, so the first will do.
    refine ⟨row, hrow, hpath, Option.some.inj (hcallable.symm.trans hm), memberOf row, hread, ?_⟩
    rw [hread]
    rfl
  · next hhead =>
    rw [head?_sortByKey_eq_none_iff] at hhead
    rw [hhead] at hownMem
    cases hownMem

end IndexView

/-- A reference is attributed to the same type and member when it is looked up as when its file was
walked, for every tree whose nodes are nested and every index whose identities are in order. After
the file is stored, its reference rows are the references of the walk; and around each of them that
covers a byte stands the declaration that it names as its caller, and the method or constructor in
whose body it was made, if any. -/
theorem enclosing_agrees_with_walk (source : String) {root : Tree} (hroot : root.WellNested)
    {ix : Index} (hix : ix.Sound) (file : FileInput) :
    (Java.walk source root).map (·.reference) = (Java.extract source root).references ∧
    ∃ ix', ix.replaceFile file (Java.extract source root) =
        .ok (ix', Index.countsOf (Java.extract source root)) ∧
      ∀ v : IndexView, v.index = ix' →
        (∀ w ∈ Java.walk source root, ∃ row ∈ v.referenceRows,
          row.2.path = file.path ∧ row.1.symbol = w.reference) ∧
        ∀ row ∈ v.referenceRows, row.2.path = file.path →
          (∃ w ∈ Java.walk source root, w.reference = row.1.symbol) ∧
          (row.1.symbol.startByte < row.1.symbol.endByte →
            ∀ w ∈ Java.walk source root, w.reference = row.1.symbol →
              v.FoundAt file.path w (IndexView.candidateOf row).site) := by
  have hreferences := Java.references_walk source root
  obtain ⟨known, hkeeps⟩ := hix.exists_keeps
  obtain ⟨ix', hstored, entries, n, hstoredAs, hknown⟩ :=
    hkeeps.replaceFile file (Java.extract_members_owned source root)
  -- the entry at the path of the file is the one just stored
  have hentry : FileEntry.ofInput file (Java.extract source root) ∈ entries := by
    have hat := hknown file.path
    rw [Function.update_self, Index.entryAt_eq_some_iff hstoredAs.paths] at hat
    exact hat.1
  refine ⟨hreferences, ix', hstored, ?_⟩
  rintro v rfl
  have hshows := hstoredAs.shows hentry
  refine ⟨?_, ?_⟩
  · intro w hw
    apply hshows.exists_reference
    rw [← hreferences]
    exact List.mem_map_of_mem hw
  · intro row hrow hpath
    refine ⟨?_, ?_⟩
    · have hmem := hshows.reference row hrow hpath
      rw [← hreferences] at hmem
      exact List.mem_map.1 hmem
    · intro hbyte w hw hsymbol
      have hattributed := Java.walk_attributed hroot hw (by rw [hsymbol]; exact hbyte)
      have hs : IndexView.SiteOf file.path w (IndexView.candidateOf row).site :=
        ⟨hpath, by rw [hsymbol]; rfl, by rw [hsymbol]; rfl⟩
      refine ⟨hshows.enclosingDeclaration hattributed hs,
        hshows.enclosingMember_of_none hattributed hs, ?_⟩
      intro m hm
      -- the row of the member is joined with that of its declaration, which is the type
      obtain ⟨mrow, hmrow, hmpath, hmsymbol, hfound⟩ :=
        hshows.enclosingMember_of_some hattributed hs hm
      refine ⟨mrow, hmrow, hmpath, hmsymbol, ?_, hfound⟩
      have howner := (hshows.member mrow hmrow hmpath).2.2
      rw [hmsymbol, Java.walk_owned hw hm] at howner
      exact (Option.some.inj howner).symm

/-! A class with a method, a field and a nested class, each with a call. -/

/-- A named node in a field of its parent. -/
def namedNode (kind : String) (startByte endByte : Nat) (field : Option String := none)
    (children : List Tree := []) : Tree :=
  .node { kind, named := true, startByte, endByte, startRow := 0, endRow := 0, field } children

/-- A call without arguments of a method whose name is one letter. -/
def callNode (startByte : Nat) (field : Option String := none) : Tree :=
  namedNode "method_invocation" startByte (startByte + 3) field
    [namedNode "identifier" startByte (startByte + 1) (some "name"),
      namedNode "argument_list" (startByte + 1) (startByte + 3) (some "arguments")]

/-- The text of the class. -/
def nestedSource : String := "class A{void m(){f();}int x=g();class B{B(){h();}}}"

/-- Its tree, less the tokens that are not named. -/
def nestedTree : Tree :=
  namedNode "program" 0 51 none
    [namedNode "class_declaration" 0 51 none
      [namedNode "identifier" 6 7 (some "name"),
        namedNode "class_body" 7 51 (some "body")
          [namedNode "method_declaration" 8 22 none
            [namedNode "void_type" 8 12 (some "type"),
              namedNode "identifier" 13 14 (some "name"),
              namedNode "formal_parameters" 14 16 (some "parameters"),
              namedNode "block" 16 22 (some "body")
                [namedNode "expression_statement" 17 21 none [callNode 17]]],
            namedNode "field_declaration" 22 32 none
              [namedNode "integral_type" 22 25 (some "type"),
                namedNode "variable_declarator" 26 31 (some "declarator")
                  [namedNode "identifier" 26 27 (some "name"), callNode 28 (some "value")]],
            namedNode "class_declaration" 32 50 none
              [namedNode "identifier" 38 39 (some "name"),
                namedNode "class_body" 39 50 (some "body")
                  [namedNode "constructor_declaration" 40 49 none
                    [namedNode "identifier" 40 41 (some "name"),
                      namedNode "formal_parameters" 41 43 (some "parameters"),
                      namedNode "constructor_body" 43 49 (some "body")
                        [namedNode "expression_statement" 44 48 none [callNode 44]]]]]]]]

/-- The file that holds it. -/
def nestedFile : FileInput where
  path := "A.java"
  origin := .project
  digest := .cleared
  size := 51
  content := nestedSource

/-- Three calls: in a method, in an initializer, and in a constructor of a nested class. -/
theorem enclosing_agrees_with_walk_nested :
    ((Java.walk nestedSource nestedTree).map fun w =>
      (w.reference.name, w.type.qualname, w.callable.map (·.name))) =
        [("f", "A", some "m"), ("g", "A", none), ("h", "A.B", some "B")] ∧
    ∃ ix' counts, Index.replaceFile {} nestedFile (Java.extract nestedSource nestedTree) =
        .ok (ix', counts) ∧
      ∀ v : IndexView, v.index = ix' → ∀ w ∈ Java.walk nestedSource nestedTree,
        ∃ row ∈ v.referenceRows, row.1.symbol = w.reference ∧
          v.FoundAt "A.java" w (IndexView.candidateOf row).site := by
  have hwalk : ((Java.walk nestedSource nestedTree).map fun w =>
      (w.reference.name, w.type.qualname, w.callable.map (·.name))) =
      [("f", "A", some "m"), ("g", "A", none), ("h", "A.B", some "B")] := by decide +kernel
  -- Every reference covers some text.
  have hbytes : ∀ w ∈ Java.walk nestedSource nestedTree,
      w.reference.startByte < w.reference.endByte := by decide +kernel
  have hempty : Index.Sound {} := by constructor <;> simp
  obtain ⟨-, ix', hstored, hrows⟩ := enclosing_agrees_with_walk nestedSource
    (by decide +kernel : nestedTree.WellNested) hempty nestedFile
  refine ⟨hwalk, ix', _, hstored, ?_⟩
  intro v hv w hw
  obtain ⟨hevery, hfound⟩ := hrows v hv
  obtain ⟨row, hrow, hpath, hsymbol⟩ := hevery w hw
  have hbyte : row.1.symbol.startByte < row.1.symbol.endByte := by
    rw [hsymbol]
    exact hbytes w hw
  exact ⟨row, hrow, hsymbol, (hfound row hrow hpath).2 hbyte w hw hsymbol.symm⟩

end JavaAtlas
