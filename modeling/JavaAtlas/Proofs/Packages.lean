import JavaAtlas.Proofs.Classpath.Search
import JavaAtlas.Proofs.Index.Enclosing
import JavaAtlas.Proofs.Index.History
import JavaAtlas.Proofs.Java.WellFormed
import JavaAtlas.Proofs.Resolve.Qualified

namespace JavaAtlas

/-! # Packages of nested types

A description tells the package that is declared in the file of a type. Where none is, and for every
compiled type, it takes what stands before the last dot of the full name, which for a nested type is
the name of the type around it.

* `packageOf_nested_iff`: when a nested type is told to be in the package of the one around it;
* `Index.KeepsOnly.shows`: what is seen of a file that has been indexed;
* `Classpath.package_of_loaded`: the package that is told of a compiled type;
* `nested_package_iff`: all of this for the descriptions that are given.
-/

namespace Java

/-! ## The last dot of a name -/

variable {front last : String}

/-- Read backwards, a name without dots is passed as a whole. -/
theorem takeWhile_reverse_of_dotless (h : '.' ∉ last.toList) (more : List Char) :
    (last.toList.reverse ++ more).takeWhile (· != '.') =
      last.toList.reverse ++ more.takeWhile (· != '.') := by
  refine List.takeWhile_append_of_pos fun ch hch => ?_
  rw [List.mem_reverse] at hch
  simp only [bne_iff_ne, ne_eq]
  rintro rfl
  exact h hch

/-- A name without dots is its own simple name. -/
@[simp]
theorem simpleName_of_dotless (h : '.' ∉ last.toList) : simpleName last = last := by
  have htake : last.toList.reverse.takeWhile (· != '.') = last.toList.reverse := by
    simpa using takeWhile_reverse_of_dotless h []
  simp [simpleName, htake]

/-- The simple name is what stands behind the last dot. -/
@[simp]
theorem simpleName_append (h : '.' ∉ last.toList) : simpleName (front ++ "." ++ last) = last := by
  simp [simpleName, takeWhile_reverse_of_dotless h]

/-- A name without dots has no package. -/
@[simp]
theorem splitQualname_of_dotless (h : '.' ∉ last.toList) : splitQualname last = ("", last) := by
  simp [splitQualname, h]

/-- A name is split at its last dot. -/
@[simp]
theorem splitQualname_append (h : '.' ∉ last.toList) :
    splitQualname (front ++ "." ++ last) = (front, last) := by
  have hlength : (front ++ "." ++ last).length - last.length - 1 = front.toList.length := by
    rw [String.length_append, String.length_append, String.length_toList]
    have : ("." : String).length = 1 := by decide
    omega
  unfold splitQualname
  dsimp only
  rw [simpleName_append h, hlength, String.append_assoc, String.toList_append, List.take_left,
    String.ofList_toList]

/-- A name with dots is split at its last one. -/
theorem exists_last_dot {name : String} (h : '.' ∈ name.toList) :
    ∃ front last, name = front ++ "." ++ last ∧ '.' ∉ last.toList := by
  obtain ⟨back, rest, hsplit, hback⟩ := List.eq_append_cons_of_mem (List.mem_reverse.mpr h)
  refine ⟨String.ofList rest.reverse, String.ofList back.reverse, ?_, ?_⟩
  · have hdot : ("." : String).toList = ['.'] := rfl
    rw [← String.toList_inj, String.toList_append, String.toList_append, hdot,
      String.toList_ofList, String.toList_ofList, ← List.reverse_inj, hsplit]
    simp
  · rw [String.toList_ofList, List.mem_reverse]
    exact hback

/-- What stands before the last dot of a name with more dots added begins with the name. -/
theorem splitQualname_append_fst (q name : String) :
    ∃ rest, (splitQualname (q ++ "." ++ name)).1 = q ++ rest ∧ (rest = "" ↔ '.' ∉ name.toList) := by
  by_cases hname : '.' ∈ name.toList
  · obtain ⟨front, last, rfl, hlast⟩ := exists_last_dot hname
    refine ⟨"." ++ front, ?_, ?_⟩
    · have hassoc : q ++ "." ++ (front ++ "." ++ last) = q ++ ("." ++ front) ++ "." ++ last := by
        simp only [String.append_assoc]
      rw [hassoc, splitQualname_append hlast]
    · simp
  · exact ⟨"", by rw [splitQualname_append hname, String.append_empty], by simp [hname]⟩

/-- What stands before the last dot of a name is shorter, unless there is nothing to be split. -/
theorem length_splitQualname_fst (q : String) :
    (splitQualname q).1.length < q.length ∨ (splitQualname q).1 = "" := by
  by_cases hq : '.' ∈ q.toList
  · obtain ⟨front, last, rfl, hlast⟩ := exists_last_dot hq
    left
    rw [splitQualname_append hlast, String.length_append, String.length_append]
    dsimp only
    have : ("." : String).length = 1 := by decide
    omega
  · exact Or.inr (by rw [splitQualname_of_dotless hq])

end Java

/-! ## Types of source files -/

/-- A nested type is told to be in the package of the type around it if a package is declared. If
none is, it would have to be nested in a type without a name. -/
theorem packageOf_nested_iff {d o : Declaration} (hpackage : d.package = o.package)
    (hname : d.qualname = o.qualname ++ "." ++ d.name) :
    packageOf d = packageOf o ↔ d.package ≠ "" ∨ o.qualname = "" ∧ '.' ∉ d.name.toList := by
  unfold packageOf
  rw [← hpackage]
  by_cases hdeclared : d.package = ""
  · rw [if_pos hdeclared, if_pos hdeclared, hname]
    obtain ⟨rest, hfront, hrest⟩ := Java.splitQualname_append_fst o.qualname d.name
    rw [hfront, ← hrest]
    simp only [hdeclared, ne_eq, not_true_eq_false, false_or]
    constructor
    · intro heq
      -- what the name of the outer type is cut to is no longer than the name
      have hlength := congrArg String.length heq
      rw [String.length_append] at hlength
      rcases Java.length_splitQualname_fst o.qualname with hlt | hempty
      · omega
      · rw [hempty] at heq
        simpa using heq
    · rintro ⟨hq, hempty⟩
      rw [hq, hempty]
      decide
  · simp [hdeclared]

namespace Java

/-- A nested type of a file is called after the type around it, which the file declares as well. -/
theorem extract_outer (source : String) (root : Tree) {d : FileDeclaration}
    (hd : d ∈ (extract source root).declarations) {q : String} (hq : d.outer = some q) :
    d.qualname = q ++ "." ++ d.name ∧ ∃ o ∈ (extract source root).declarations, o.qualname = q := by
  rw [← Walker.walked_symbols] at hd ⊢
  obtain ⟨x, hx, rfl⟩ := List.mem_map.mp hd
  obtain ⟨i, hi⟩ := List.mem_iff_getElem?.mp hx
  have hnamed := (Walker.walked_sound source root).named i x hi
  unfold NamedAfter at hnamed
  rw [hq] at hnamed
  obtain ⟨y, hy, hname, hqualname, -⟩ := hnamed
  exact ⟨hqualname, y.1, List.mem_map_of_mem (List.mem_of_mem_take hy), hname⟩

end Java

/-- The entry of a file that has been indexed with what a tree of it declares. -/
def FileEntry.Extracted (e : FileEntry) : Prop :=
  ∃ file source root, e = .ofInput file (Java.extract source root)

namespace Index

variable {v : IndexView}

/-- Everything that comes about by indexing has been extracted. -/
theorem extracted_run {actions : List Action} (h : ∀ a ∈ actions, a.Grounded) :
    (Index.run {} actions).KeepsOnly FileEntry.Extracted := by
  refine KeepsOnly.run ⟨_, keeps_empty, nofun⟩ ?_ h ?_
  · exact fun path text => ⟨_, text, _, rfl⟩
  · exact fun path _ _ origin text _ => ⟨_, text, _, rfl⟩

/-- Of a file that has been indexed its symbols are seen, in its package. -/
theorem KeepsOnly.shows (h : v.index.KeepsOnly FileEntry.Extracted) {f : FileRow}
    (hf : f ∈ v.index.files) :
    ∃ source root, v.Shows f.path (Java.extract source root) ∧
      ∀ row ∈ v.declarationRows, row.2.path = f.path →
        row.1.package = (Java.extract source root).package := by
  obtain ⟨known, ⟨entries, n, hstored, hentries⟩, hknown⟩ := h
  obtain ⟨e, he, rfl⟩ := List.mem_map.mp (hstored.files.mem_iff.mp hf)
  have hat := hentries e.path
  rw [(entryAt_eq_some_iff hstored.paths).mpr ⟨he, rfl⟩] at hat
  obtain ⟨file, source, root, rfl⟩ := hknown e.path e hat.symm
  refine ⟨source, root, hstored.shows he, ?_⟩
  intro row hrow hpath
  -- All declarations of a file are stored with the package of the file.
  obtain ⟨hd, -⟩ := (hstored.mem_declarationRows_iff he).mp ⟨hrow, hpath⟩
  obtain ⟨⟨id, d⟩, hzip, heq⟩ := List.mem_map.mp hd
  obtain ⟨symbol, -, rfl⟩ := List.mem_map.mp (List.of_mem_zip hzip).2
  rw [← heq]

/-- A file found by its identity is in the index. -/
theorem mem_files_of_fileOf? {ix : Index} {id : Nat} {f : FileRow} (h : ix.fileOf? id = some f) :
    f ∈ ix.files :=
  List.mem_of_find?_eq_some h

/-- A declaration belongs to a file of the index. -/
theorem mem_files_of_mem_declarationRows {row : DeclarationRow × FileRow}
    (h : row ∈ v.declarationRows) : row.2 ∈ v.index.files := by
  obtain ⟨d, -, hfile⟩ := List.mem_filterMap.mp h
  obtain ⟨f, hf, rfl⟩ := Option.map_eq_some_iff.mp hfile
  exact mem_files_of_fileOf? hf

/-- A member belongs to a file of the index. -/
theorem mem_files_of_mem_memberRows {row : MemberRow × DeclarationRow × FileRow}
    (h : row ∈ v.memberRows) : row.2.2 ∈ v.index.files := by
  obtain ⟨m, -, hjoin⟩ := List.mem_filterMap.mp h
  obtain ⟨d, -, hjoin⟩ := Option.bind_eq_some_iff.mp hjoin
  obtain ⟨f, hf, hjoin⟩ := Option.bind_eq_some_iff.mp hjoin
  cases hjoin
  exact mem_files_of_fileOf? hf

/-- Every type of an index that has come about by indexing is described. -/
theorem KeepsOnly.exists_description (h : v.index.KeepsOnly FileEntry.Extracted) (d : Declaration) :
    ∃ info, v.describe d = .ok info := by
  refine IndexView.Readable.exists_describe ?_ ?_ d
  · refine IndexView.readable_of_undamaged fun row hrow => ?_
    obtain ⟨source, root, hshows, -⟩ := h.shows (mem_files_of_mem_declarationRows hrow)
    exact (hshows.declaration row hrow rfl).2
  · refine IndexView.membersReadable_of_undamaged fun row hrow => ?_
    obtain ⟨source, root, hshows, -⟩ := h.shows (mem_files_of_mem_memberRows hrow)
    exact (hshows.member row hrow rfl).2.1

/-- The type around a nested one is a declaration of the same file. -/
theorem KeepsOnly.exists_outer (h : v.index.KeepsOnly FileEntry.Extracted)
    {row : DeclarationRow × FileRow} (hrow : row ∈ v.declarationRows) {q : String}
    (hq : row.1.symbol.outer = some q) :
    ∃ o ∈ v.declarationRows, o.2.path = row.2.path ∧ o.1.symbol.qualname = q := by
  obtain ⟨source, root, hshows, -⟩ := h.shows (mem_files_of_mem_declarationRows hrow)
  obtain ⟨-, o, ho, hname⟩ :=
    Java.extract_outer source root (hshows.declaration row hrow rfl).1 hq
  obtain ⟨orow, horow, hpath, rfl⟩ := hshows.exists_declaration o ho
  exact ⟨orow, horow, hpath, hname⟩

/-- A nested type and the one around it are of one package, and the one is called after the
other. -/
theorem KeepsOnly.named_after (h : v.index.KeepsOnly FileEntry.Extracted)
    {row o : DeclarationRow × FileRow} (hrow : row ∈ v.declarationRows) (ho : o ∈ v.declarationRows)
    (hpath : o.2.path = row.2.path) (houter : row.1.symbol.outer = some o.1.symbol.qualname) :
    row.1.package = o.1.package ∧
      row.1.symbol.qualname = o.1.symbol.qualname ++ "." ++ row.1.symbol.name := by
  obtain ⟨source, root, hshows, hpackage⟩ := h.shows (mem_files_of_mem_declarationRows hrow)
  refine ⟨by rw [hpackage row hrow rfl, hpackage o ho hpath], ?_⟩
  exact (Java.extract_outer source root (hshows.declaration row hrow rfl).1 houter).1

end Index

/-- A description tells the package of its declaration. -/
theorem IndexView.package_of_describe {v : IndexView} {d : Declaration} {info : TypeInfo}
    (h : v.describe d = .ok info) : info.package = packageOf d := by
  obtain ⟨members, -, h⟩ := bind_eq_ok_iff.mp h
  obtain ⟨nested, -, h⟩ := bind_eq_ok_iff.mp h
  cases h
  rfl

/-! ## Compiled types -/

namespace Classpath

variable {c : Classpath} {disk : Disk} {q : String} {info : ArtifactInfo} {i : Nat}
  {segments : List String}

/-- What is loaded for a name has been found in the class file with a number, that is, with so many
nested classes. -/
def LoadedFrom (c : Classpath) (disk : Disk) (q : String) (i : Nat) (info : ArtifactInfo) : Prop :=
  c.load disk q = .ok (some info) ∧
    ∃ j name e found, c.LooksAt (candidates q) (i, j) name e ∧
      c.PassedTo disk (candidates q) (i, j) ∧ readIn disk (name ++ ".class") e = .ok (some found)

/-- A type has fewer nested segments than segments. -/
theorem LoadedFrom.lt_length (h : c.LoadedFrom disk q i info) : i < (nameSegments q).length := by
  obtain ⟨-, j, name, e, found, hlooks, -, -⟩ := h
  rw [← length_candidates]
  exact (List.getElem?_eq_some_iff.mp hlooks.name).1

/-- The package that is told of a compiled type is all of its name but the last segment. -/
theorem package_of_loaded (hsegments : ∀ s ∈ segments, NameSegment s) (hne : segments ≠ [])
    (h : c.load disk (".".intercalate segments) = .ok (some info)) :
    info.describe.package = ".".intercalate segments.dropLast := by
  have hname : info.qualname = ".".intercalate segments := qualname_of_load h
  have hlast : '.' ∉ (segments.getLast hne).toList :=
    (hsegments _ (List.getLast_mem hne)).2.1
  change (Java.splitQualname info.qualname).1 = _
  rw [hname]
  conv_lhs => rw [← List.dropLast_append_getLast hne]
  by_cases hfront : segments.dropLast = []
  · rw [hfront, List.nil_append, String.intercalate_singleton,
      Java.splitQualname_of_dotless hlast, String.intercalate_nil]
  · rw [intercalate_concat hfront, Java.splitQualname_append hlast]

/-- This is the package of its class file only if the type is not nested. -/
theorem LoadedFrom.package_iff (hsegments : ∀ s ∈ segments, NameSegment s)
    (h : c.LoadedFrom disk (".".intercalate segments) i info) :
    info.describe.package = ".".intercalate (segments.take (segments.length - (i + 1))) ↔ i = 0 := by
  have hi := h.lt_length
  rw [nameSegments_intercalate hsegments] at hi
  have hne : segments ≠ [] := List.ne_nil_of_length_pos (by omega)
  rw [package_of_loaded hsegments hne h.1, List.dropLast_eq_take]
  constructor
  · intro heq
    -- names are told apart by their segments
    have hsame := congrArg (fun q => (nameSegments q).length) heq
    rw [nameSegments_intercalate fun s hs => hsegments s (List.mem_of_mem_take hs),
      nameSegments_intercalate fun s hs => hsegments s (List.mem_of_mem_take hs),
      List.length_take, List.length_take] at hsame
    omega
  · rintro rfl
    rfl

end Classpath

/-- Indexing leaves nothing but what has been extracted. Then for every nested type there is the type
around it in the same file, both are described, and both are told to be in one package exactly if a
package is declared, or if the outer type has no name. A compiled type is told to be in the package of
its class file exactly if it is not nested. -/
theorem nested_package_iff (v : IndexView) (c : Classpath) (disk : Disk) :
    (∀ actions : List Index.Action, (∀ a ∈ actions, a.Grounded) →
      (Index.run {} actions).KeepsOnly FileEntry.Extracted) ∧
    (v.index.KeepsOnly FileEntry.Extracted → ∀ d ∈ v.declarationRows,
      ∀ q, d.1.symbol.outer = some q →
        (∃ o ∈ v.declarationRows, o.2.path = d.2.path ∧ o.1.symbol.qualname = q) ∧
        ∀ o ∈ v.declarationRows, o.2.path = d.2.path → o.1.symbol.qualname = q →
          ∃ dInfo oInfo, v.describe (v.declarationOf d) = .ok dInfo ∧
            v.describe (v.declarationOf o) = .ok oInfo ∧
            (dInfo.package = oInfo.package ↔
              d.1.package ≠ "" ∨ q = "" ∧ '.' ∉ d.1.symbol.name.toList)) ∧
    ∀ segments : List String, (∀ s ∈ segments, Classpath.NameSegment s) → ∀ i info,
      c.LoadedFrom disk (".".intercalate segments) i info →
        (info.describe.package = ".".intercalate (segments.take (segments.length - (i + 1))) ↔
          i = 0) := by
  refine ⟨fun actions => Index.extracted_run, ?_, ?_⟩
  · intro h d hd q hq
    refine ⟨h.exists_outer hd hq, ?_⟩
    rintro o ho hpath rfl
    obtain ⟨dInfo, hdInfo⟩ := h.exists_description (v.declarationOf d)
    obtain ⟨oInfo, hoInfo⟩ := h.exists_description (v.declarationOf o)
    obtain ⟨hpackage, hname⟩ := h.named_after hd ho hpath hq
    -- Both descriptions tell the package stored, or the front of the full name if there is none.
    refine ⟨dInfo, oInfo, hdInfo, hoInfo, ?_⟩
    rw [IndexView.package_of_describe hdInfo, IndexView.package_of_describe hoInfo]
    exact packageOf_nested_iff hpackage hname
  · intro segments hsegments i info hloaded
    exact hloaded.package_iff hsegments

/-- A view of the file with a class and one nested in it. -/
def nestedView : IndexView where
  index :=
    match Index.replaceFile {} nestedFile (Java.extract nestedSource nestedTree) with
    | .ok (ix, _) => ix
    | .error _ => {}
  disk := {}
  root := "/w"

/-- The files of the example are extracted from their texts. -/
theorem nestedView_extracted : nestedView.index.KeepsOnly FileEntry.Extracted := by
  obtain ⟨ix, hstored, hkeeps⟩ :=
    Index.keeps_empty.replaceFile nestedFile (Java.extract_members_owned nestedSource nestedTree)
  have hindex : nestedView.index = ix := by
    unfold nestedView
    dsimp only
    rw [hstored]
  rw [hindex]
  refine .update hkeeps nofun ?_
  rintro e ⟨⟩
  exact ⟨nestedFile, nestedSource, nestedTree, rfl⟩

/-- The example has a nested class beside its outer one. -/
theorem nestedView_rows : ∃ d ∈ nestedView.declarationRows, ∃ o ∈ nestedView.declarationRows,
    d.1.symbol.outer = some "A" ∧ d.1.symbol.qualname = "A.B" ∧ d.1.package = "" ∧
      o.2.path = d.2.path ∧ o.1.symbol.qualname = "A" ∧ o.1.package = "" := by
  decide +kernel

namespace Classpath

/-- A class file of one nested class is found on the shelves. -/
theorem loadedFrom_shelved : ∃ info, shelved.LoadedFrom shelves "p.O.I" 1 info := by
  have hload : ((shelved.load shelves "p.O.I").toOption.bind id).isSome := by decide +kernel
  obtain ⟨info, hinfo⟩ := Option.isSome_iff_exists.mp hload
  obtain ⟨_, hok, rfl⟩ := Option.bind_eq_some_iff.mp hinfo
  have hnames : candidates "p.O.I" = ["p/O/I", "p/O$I", "p$O$I"] := by decide +kernel
  have hread : (readIn shelves "p/O$I.class" (.directory "/b")).toOption =
      some (some ⟨emptyClass.toList, "/b/p/O$I.class"⟩) := by decide +kernel
  refine ⟨info, eq_ok_of_toOption_eq_some hok, 1, "p/O$I", .directory "/b", _, ⟨?_, rfl⟩, ?_,
    eq_ok_of_toOption_eq_some hread⟩
  · rw [hnames]
    rfl
  · rw [hnames]
    -- No entry holds the name read as a class in three packages.
    refine passedTo_of_forall (fun name hname e he => eq_ok_of_toOption_eq_some ?_)
      fun name hname e he => eq_ok_of_toOption_eq_some ?_
    · revert name e
      decide +kernel
    · revert name e
      decide +kernel

end Classpath

/-- Nothing but the declared package keeps a nested type in the package of the one around it. -/
theorem nested_package_iff_undeclared :
    (∃ d ∈ nestedView.declarationRows, d.1.symbol.qualname = "A.B" ∧
      ∃ o ∈ nestedView.declarationRows, o.1.symbol.qualname = "A" ∧
        ∃ dInfo oInfo, nestedView.describe (nestedView.declarationOf d) = .ok dInfo ∧
          nestedView.describe (nestedView.declarationOf o) = .ok oInfo ∧
          dInfo.package ≠ oInfo.package) ∧
    ∃ info, Classpath.shelved.LoadedFrom Classpath.shelves "p.O.I" 1 info ∧
      info.describe.package ≠ "p" := by
  obtain ⟨-, hsource, hcompiled⟩ :=
    nested_package_iff nestedView Classpath.shelved Classpath.shelves
  constructor
  · obtain ⟨d, hd, o, ho, houter, hname, hpackage, hpath, hqualname, -⟩ := nestedView_rows
    obtain ⟨dInfo, oInfo, hdInfo, hoInfo, hiff⟩ :=
      (hsource nestedView_extracted d hd "A" houter).2 o ho hpath hqualname
    refine ⟨d, hd, hname, o, ho, hqualname, dInfo, oInfo, hdInfo, hoInfo, ?_⟩
    rw [ne_eq, hiff]
    simp [hpackage]
  · obtain ⟨info, hinfo⟩ := Classpath.loadedFrom_shelved
    have hiff := hcompiled ["p", "O", "I"] (by decide) 1 info hinfo
    refine ⟨info, hinfo, fun hpackage => ?_⟩
    exact absurd (hiff.mp hpackage) (by decide)

/-- Where no package is declared, the description of a nested type tells the name of the type around
it instead; so does that of a compiled type which is nested. -/
theorem nested_package_names_outer :
    (∃ d ∈ nestedView.declarationRows, ∃ o ∈ nestedView.declarationRows,
      d.1.symbol.outer = some o.1.symbol.qualname ∧ o.2.path = d.2.path ∧
        ∃ dInfo oInfo, nestedView.describe (nestedView.declarationOf d) = .ok dInfo ∧
          nestedView.describe (nestedView.declarationOf o) = .ok oInfo ∧
          dInfo.package = "A" ∧ oInfo.package = "") ∧
    ∃ info, Classpath.shelved.LoadedFrom Classpath.shelves "p.O.I" 1 info ∧
      info.describe.package = "p.O" := by
  constructor
  · obtain ⟨d, hd, o, ho, houter, hname, hpackage, hpath, hqualname, hnone⟩ := nestedView_rows
    obtain ⟨dInfo, hdInfo⟩ := nestedView_extracted.exists_description (nestedView.declarationOf d)
    obtain ⟨oInfo, hoInfo⟩ := nestedView_extracted.exists_description (nestedView.declarationOf o)
    refine ⟨d, hd, o, ho, by rw [houter, hqualname], hpath, dInfo, oInfo, hdInfo, hoInfo, ?_, ?_⟩
    · rw [IndexView.package_of_describe hdInfo]
      change (if d.1.package = "" then (Java.splitQualname d.1.symbol.qualname).1
        else d.1.package) = "A"
      rw [if_pos hpackage, hname]
      decide
    · rw [IndexView.package_of_describe hoInfo]
      change (if o.1.package = "" then (Java.splitQualname o.1.symbol.qualname).1
        else o.1.package) = ""
      rw [if_pos hnone, hqualname]
      decide
  · obtain ⟨info, hinfo⟩ := Classpath.loadedFrom_shelved
    have hsegments : ∀ s ∈ ["p", "O", "I"], Classpath.NameSegment s := by decide
    exact ⟨info, hinfo, Classpath.package_of_loaded hsegments (List.cons_ne_nil _ _) hinfo.1⟩

end JavaAtlas
