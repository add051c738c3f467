import JavaAtlas.Proofs.Index.History
import JavaAtlas.Proofs.Resolve.Qualified

namespace JavaAtlas

/-! # Names that are offered for an ambiguous one

If a name stands for several declarations, their full names are offered to try again. Said by the
rows of an index, `StandsFor` tells for which text there is just one declaration. From this it
follows which of the offered names lead back to what they were offered for: those of packages do,
others only if nothing else is found for them.
-/

/-! ## One declaration among those found -/

section Sorted

variable {given sorted : List Declaration} {m : String}

/-- The sorted declarations have the full names of those given. -/
theorem FirstsInOrder.exists_qualname_iff (h : FirstsInOrder given sorted) :
    (∃ d ∈ sorted, d.qualname = m) ↔ ∃ d ∈ given, d.qualname = m := by
  constructor
  · rintro ⟨d, hd, hname⟩
    exact ⟨d, List.mem_of_find?_eq_some ((h.firsts d).mp hd), hname⟩
  · rintro ⟨d, hd, rfl⟩
    have hsome : (given.find? (·.qualname == d.qualname)).isSome :=
      List.find?_isSome.mpr ⟨d, hd, beq_self_eq_true _⟩
    obtain ⟨first, hfirst⟩ := Option.isSome_iff_exists.mp hsome
    have hname : first.qualname = d.qualname := by simpa using List.find?_some hfirst
    exact ⟨first, (h.firsts first).mpr (hname ▸ hfirst), hname⟩

/-- There is one declaration left exactly if all have one full name. -/
theorem FirstsInOrder.exists_singleton_iff (h : FirstsInOrder given sorted) :
    (∃ d, sorted = [d] ∧ d.qualname = m) ↔
      (∃ d ∈ given, d.qualname = m) ∧ ∀ d ∈ given, d.qualname = m := by
  rw [← h.exists_qualname_iff]
  constructor
  · rintro ⟨d, rfl, hname⟩
    refine ⟨⟨d, List.mem_singleton_self d, hname⟩, ?_⟩
    intro e he
    obtain ⟨f, hf, heq⟩ := h.exists_qualname_iff.mpr ⟨e, he, rfl⟩
    rw [← heq, List.mem_singleton.mp hf, hname]
  · rintro ⟨⟨d, hd, hname⟩, hall⟩
    have hsorted : ∀ e ∈ sorted, e.qualname = m := fun e he =>
      hall e (List.mem_of_find?_eq_some ((h.firsts e).mp he))
    match sorted, hd, hsorted, h.ascending with
    | [e], hd, _, _ =>
      obtain rfl := List.mem_singleton.mp hd
      exact ⟨d, rfl, hname⟩
    | e :: f :: rest, _, hsorted, hascending =>
      -- two declarations that are sorted have different names
      have hlt := List.rel_of_pairwise_cons hascending List.mem_cons_self
      rw [hsorted e List.mem_cons_self,
        hsorted f (List.mem_cons_of_mem e List.mem_cons_self)] at hlt
      exact absurd hlt (String.lt_irrefl m)

/-- Declarations are told as one of a name exactly if there are some and all have this name. -/
theorem ofList_sortByName_single_iff :
    (∃ d, Resolution.ofList (sortByName given) = .single d ∧ d.qualname = m) ↔
      (∃ d ∈ given, d.qualname = m) ∧ ∀ d ∈ given, d.qualname = m := by
  rw [← (firstsInOrder_sortByName given).exists_singleton_iff]
  simp only [(tells_ofList _).single]

/-- Two declarations in order stay so. -/
theorem sortByName_pair {d e : Declaration} (h : d.qualname < e.qualname) :
    sortByName [d, e] = [d, e] := by
  have hgreater : ¬ e.qualname < d.qualname := fun hlt =>
    String.lt_irrefl _ (String.lt_trans h hlt)
  have hne : e.qualname ≠ d.qualname := fun heq => String.lt_irrefl _ (heq ▸ h)
  change insertByName e [d] = [d, e]
  rw [insertByName, if_neg hne, if_neg hgreater]
  rfl

end Sorted

namespace IndexView

variable {v : IndexView} {input q m name : String} {d : Declaration} {ds : List Declaration}
  {names : List String}

/-! ## What a text stands for -/

/-- A text with a dot that is a full name. -/
def FoundInFull (v : IndexView) (q : String) : Prop := '.' ∈ q.toList ∧ v.HasFullName q

/-- A declaration of the project of whose simple name the text is a part, whatever the case. -/
def InProjectAround (v : IndexView) (q : String) (row : DeclarationRow × FileRow) : Prop :=
  row ∈ v.declarationRows ∧ row.2.origin = .project ∧
    (toLowercase q).toList <:+: (toLowercase row.1.symbol.name).toList

/-- A text stands for the declarations of one full name: it is this name, or else all declarations
that have it as their simple name have this full name, or else all in the project of whose simple
name it is a part have. -/
inductive StandsFor (v : IndexView) (q m : String) : Prop where
  | full (found : v.FoundInFull q) (same : q = m)
  | simple (nonempty : q ≠ "") (notFull : ¬ v.FoundInFull q) (some : v.HasSimpleName q)
      (only : ∀ row ∈ v.declarationRows, row.1.symbol.name = q → row.1.symbol.qualname = m)
  | part (nonempty : q ≠ "") (notFull : ¬ v.FoundInFull q) (notSimple : ¬ v.HasSimpleName q)
      (some : ∃ row, v.InProjectAround q row)
      (only : ∀ row, v.InProjectAround q row → row.1.symbol.qualname = m)

/-- Of each row that passes a test there is the declaration among those found. -/
def FoundFrom (v : IndexView) (test : DeclarationRow × FileRow → Prop) (ds : List Declaration) :
    Prop := ∀ d, d ∈ ds ↔ ∃ row, test row ∧ v.declarationOf row = d

/-- What is found is told as one of a name exactly if some row passes and all that pass have this
name. -/
theorem FoundFrom.single_iff {test : DeclarationRow × FileRow → Prop} (h : v.FoundFrom test ds) :
    (∃ d, Resolution.ofList (sortByName ds) = .single d ∧ d.qualname = m) ↔
      (∃ row, test row) ∧ ∀ row, test row → row.1.symbol.qualname = m := by
  rw [ofList_sortByName_single_iff]
  have hall : (∀ d ∈ ds, d.qualname = m) ↔ ∀ row, test row → row.1.symbol.qualname = m := by
    constructor
    · intro hall row hrow
      exact hall _ ((h _).mpr ⟨row, hrow, rfl⟩)
    · rintro hall d hd
      obtain ⟨row, hrow, rfl⟩ := (h d).mp hd
      exact hall row hrow
  rw [hall]
  refine and_congr_left fun hall => ?_
  constructor
  · rintro ⟨d, hd, -⟩
    obtain ⟨row, hrow, -⟩ := (h d).mp hd
    exact ⟨row, hrow⟩
  · rintro ⟨row, hrow⟩
    exact ⟨_, (h _).mpr ⟨row, hrow, rfl⟩, hall row hrow⟩

/-- Where a row passes something is found. -/
theorem FoundFrom.ne_nil {test : DeclarationRow × FileRow → Prop} (h : v.FoundFrom test ds)
    {row : DeclarationRow × FileRow} (hrow : test row) : ds ≠ [] :=
  List.ne_nil_of_mem ((h _).mpr ⟨row, hrow, rfl⟩)

/-! ## What the stages find -/

/-- If all rows can be read, a simple name finds the rows that have it. -/
theorem Readable.simple (h : v.Readable) (name : String) (scope : Scope) :
    ∃ ds, v.simple name scope = .ok ds ∧ v.FoundFrom (fun row => row ∈ v.declarationRows ∧
      scope.covers row.2.origin ∧ row.1.symbol.name = name) ds := by
  obtain ⟨ds, hds⟩ := h.exists_simple name scope
  refine ⟨ds, hds, fun d => ?_⟩
  rw [mem_simple hds]
  constructor
  · rintro ⟨row, hrow, hscope, hname, hread⟩
    exact ⟨row, ⟨hrow, hscope, hname⟩, (eq_declarationOf_of_read hread).symm⟩
  · rintro ⟨row, ⟨hrow, hscope, hname⟩, rfl⟩
    exact ⟨row, hrow, hscope, hname, h.read hrow⟩

/-- Only files of the project are in its scope. -/
@[simp]
theorem covers_project_iff {origin : Origin} : Scope.project.covers origin ↔ origin = .project := by
  cases origin <;> simp [Scope.covers]

/-- If all rows can be read, a part finds the rows of the project whose names have it. -/
theorem Readable.part (h : v.Readable) (q : String) :
    ∃ ds, (partStage v.symbols q).found = .ok ds ∧ v.FoundFrom (v.InProjectAround q) ds := by
  obtain ⟨found, hfound⟩ : ∃ found,
      (namesAround q v.simpleNames).mapM (v.simple · .project) = .ok found :=
    exists_mapM_eq_ok_iff.mpr fun n _ => h.exists_simple n .project
  refine ⟨found.flatten, ?_, fun d => ?_⟩
  · unfold partStage
    change ((namesAround q v.simpleNames).mapM (v.simple · .project)).map List.flatten = _
    rw [hfound]
    rfl
  · simp only [List.mem_flatten, mem_of_mapM_eq_ok hfound, mem_namesAround, mem_simpleNames]
    constructor
    · rintro ⟨ds, ⟨n, ⟨-, hpart⟩, hds⟩, hd⟩
      obtain ⟨row, hrow, hscope, rfl, hread⟩ := (mem_simple hds).mp hd
      exact ⟨row, ⟨hrow, covers_project_iff.mp hscope, hpart⟩,
        (eq_declarationOf_of_read hread).symm⟩
    · rintro ⟨row, ⟨hrow, horigin, hpart⟩, rfl⟩
      obtain ⟨ds, hds⟩ := h.exists_simple row.1.symbol.name .project
      exact ⟨ds, ⟨_, ⟨⟨row, hrow, rfl⟩, hpart⟩, hds⟩, (mem_simple hds).mpr
        ⟨row, hrow, covers_project_iff.mpr horigin, rfl, h.read hrow⟩⟩

/-- What is no full name with a dot is left to the later stages. -/
theorem resolve_of_not_full (hq : (NameQuery.parse input).base = q) (hnonempty : q ≠ "")
    (hfull : ¬ v.FoundInFull q) :
    v.resolve input = ((firstFound [simpleStage v.symbols q, unitStage v.symbols q,
      partStage v.symbols q]).map sortByName).map Resolution.ofList := by
  have hexact : (exactStage v.symbols q).found = .ok [] := by
    by_cases hdot : '.' ∈ q.toList
    · rw [exactStage_of_dotted hdot, qualified_eq_none fun hhas => hfull ⟨hdot, hhas⟩]
      rfl
    · rw [exactStage, if_neg hdot]
  rw [resolve, resolve_eq_map, resolveAll_eq_firstFound, stagesOf_of_ne_empty hq hnonempty,
    stagesFor, firstFound_cons_of_nil hexact]

/-- Where a simple name finds something, the later stages find just that. -/
theorem later_stages_of_simple (h : v.simple q .all = .ok ds) (hne : ds ≠ []) :
    ((firstFound [simpleStage v.symbols q, unitStage v.symbols q,
      partStage v.symbols q]).map sortByName).map Resolution.ofList =
        .ok (.ofList (sortByName ds)) := by
  have hfound : (simpleStage v.symbols q).found = .ok ds := h
  have hdecides : (simpleStage v.symbols q).found ≠ .ok [] := by
    rw [hfound]
    exact fun heq => hne (Except.ok.inj heq)
  rw [firstFound_cons_of_ne hdecides, hfound]
  rfl

/-- The later stages tell one name exactly if the query stands for it. -/
theorem later_stages_single_iff (h : v.Readable) (hnonempty : q ≠ "") (hfull : ¬ v.FoundInFull q) :
    (∃ d, ((firstFound [simpleStage v.symbols q, unitStage v.symbols q,
        partStage v.symbols q]).map sortByName).map Resolution.ofList = .ok (.single d) ∧
      d.qualname = m) ↔ v.StandsFor q m := by
  obtain ⟨ds, hds, hfrom⟩ := h.simple q .all
  -- Either the simple name finds something or only the search for parts can.
  by_cases hsimple : v.HasSimpleName q
  · obtain ⟨row, hrow, hname⟩ := hsimple
    rw [later_stages_of_simple hds (hfrom.ne_nil ⟨hrow, rfl, hname⟩)]
    simp only [Except.ok.injEq]
    rw [hfrom.single_iff]
    constructor
    · rintro ⟨-, honly⟩
      exact .simple hnonempty hfull ⟨row, hrow, hname⟩ fun r hr hrname => honly r ⟨hr, rfl, hrname⟩
    · rintro (⟨found, -⟩ | ⟨-, -, -, honly⟩ | ⟨-, -, hnot, -, -⟩)
      · exact absurd found hfull
      · exact ⟨⟨row, hrow, rfl, hname⟩, fun r hr => honly r hr.1 hr.2.2⟩
      · exact absurd ⟨row, hrow, hname⟩ hnot
  · obtain ⟨parts, hparts, hpartsFrom⟩ := h.part q
    rw [firstFound_cons_of_nil (s := simpleStage v.symbols q) (simple_eq_nil hsimple),
      firstFound_cons_of_nil (unitStage_eq_nil hsimple), firstFound_singleton, hparts]
    change (∃ d, Except.ok (Resolution.ofList (sortByName parts)) = Except.ok _ ∧ _) ↔ _
    simp only [Except.ok.injEq]
    rw [hpartsFrom.single_iff]
    constructor
    · rintro ⟨hsome, honly⟩
      exact .part hnonempty hfull hsimple hsome honly
    · rintro (⟨found, -⟩ | ⟨-, -, hhas, -⟩ | ⟨-, -, -, hsome, honly⟩)
      · exact absurd found hfull
      · exact absurd hhas hsimple
      · exact ⟨hsome, honly⟩

/-- An input stands for one declaration, of the full name `m`, exactly if what is left of it
does. -/
theorem resolve_single_iff (h : v.Readable) :
    (∃ d, v.resolve input = .ok (.single d) ∧ d.qualname = m) ↔
      v.StandsFor (NameQuery.parse input).base m := by
  obtain ⟨q, hq⟩ : ∃ q, (NameQuery.parse input).base = q := ⟨_, rfl⟩
  rw [hq]
  -- A full name is settled by the first stage, and a blank query has no stages.
  by_cases hfull : v.FoundInFull q
  · obtain ⟨row, hrow, hname, hresolve⟩ := exists_resolve_of_full hq hfull.1 hfull.2
    rw [hresolve, h.read hrow]
    constructor
    · rintro ⟨d, ⟨⟩, rfl⟩
      exact .full hfull hname.symm
    · rintro (⟨-, rfl⟩ | ⟨-, hnot, -, -⟩ | ⟨-, hnot, -, -, -⟩)
      · exact ⟨_, rfl, hname⟩
      · exact absurd hfull hnot
      · exact absurd hfull hnot
  · by_cases hnonempty : q = ""
    · have hnone : stagesOf v.symbols input = [] := by rw [stagesOf, hq, if_pos hnonempty]
      rw [resolve, resolve_eq_map, resolveAll_eq_firstFound, hnone]
      constructor
      · rintro ⟨d, ⟨⟩, -⟩
      · rintro (⟨found, -⟩ | ⟨hne, -⟩ | ⟨hne, -⟩)
        · exact absurd found hfull
        · exact absurd hnonempty hne
        · exact absurd hnonempty hne
    · rw [resolve_of_not_full hq hnonempty hfull]
      exact later_stages_single_iff h hnonempty hfull

/-! ## Offered names -/

/-- A name that is offered is the full name of a declaration. -/
theorem hasFullName_of_offered (h : v.resolve input = .ok (.ambiguous names)) (hm : m ∈ names) :
    v.HasFullName m := by
  rw [resolve, resolve_eq_map, resolveAll_eq_firstFound] at h
  obtain ⟨sorted, hsorted, hlist⟩ := map_eq_ok_iff.mp h
  obtain ⟨found, hfound, rfl⟩ := map_eq_ok_iff.mp hsorted
  obtain ⟨-, rfl⟩ := ((tells_ofList _).ambiguous names).mp hlist
  obtain ⟨d, hd, rfl⟩ := List.mem_map.mp hm
  obtain ⟨e, he, hname⟩ := (firstsInOrder_sortByName found).exists_qualname_iff.mp ⟨d, hd, rfl⟩
  -- What is offered was found by some stage, so some row was read for it.
  obtain ⟨s, hs, hstage⟩ := exists_stage_of_firstFound hfound (List.ne_nil_of_mem he)
  have hstages : s ∈ stagesFor v.symbols (NameQuery.parse input).base := by
    rw [stagesOf] at hs
    split at hs
    · cases hs
    · exact hs
  obtain ⟨row, hrow, hread⟩ := read_of_mem_stage hstages hstage he
  refine ⟨row, hrow, ?_⟩
  rw [← hname, eq_declarationOf_of_read hread]
  rfl

end IndexView

/-! ## Indexed sources -/

/-- The rows of a file just indexed are not damaged. -/
theorem FileEntry.undamaged_ofInput (file : FileInput) (symbols : FileSymbols) :
    ∀ d ∈ (ofInput file symbols).declarations, d.damage = [] := by
  intro d hd
  obtain ⟨symbol, -, rfl⟩ := List.mem_map.mp hd
  rfl

/-- No row of an index that has come about by indexing is damaged. -/
theorem Index.KeepsOnly.readable {ix : Index}
    (h : ix.KeepsOnly fun e => ∀ d ∈ e.declarations, d.damage = []) (disk : Disk) (root : String) :
    IndexView.Readable { index := ix, disk, root } := by
  obtain ⟨known, ⟨entries, n, hstored, hentries⟩, hknown⟩ := h
  refine IndexView.readable_of_undamaged fun row hrow => ?_
  obtain ⟨d, hd, hfile⟩ := List.mem_filterMap.mp hrow
  obtain ⟨f, -, rfl⟩ := Option.map_eq_some_iff.mp hfile
  obtain ⟨e, he, hd⟩ := List.mem_flatMap.mp (hstored.declarations.mem_iff.mp hd)
  obtain ⟨⟨id, kept⟩, hkept, rfl⟩ := List.mem_map.mp hd
  have hentry := hentries e.path
  rw [(entryAt_eq_some_iff hstored.paths).mpr ⟨he, rfl⟩] at hentry
  exact hknown e.path e hentry.symm kept (List.of_mem_zip hkept).2

/-- After any grounded actions all rows can be read. -/
theorem Index.readable_run {actions : List Action} (h : ∀ a ∈ actions, a.Grounded) (disk : Disk)
    (root : String) : IndexView.Readable { index := run {} actions, disk, root } := by
  refine KeepsOnly.readable (KeepsOnly.run ⟨_, keeps_empty, nofun⟩ ?_ h ?_) disk root
  · exact fun path text => FileEntry.undamaged_ofInput _ _
  · exact fun path _ _ origin text _ => FileEntry.undamaged_ofInput _ _

/-- A name that is offered for an ambiguous input leads back to its declaration, and to that alone,
exactly if what is left of it stands for its declaration: in any index that can be read, and so in
all that come about by indexing. Names of packages stand for themselves, unless they end like a
source file. A name without a dot does only if all declarations called so have no other full
name. -/
theorem offered_name_leads_back_iff {v : IndexView} {input : String} {names : List String}
    (hambiguous : v.resolve input = .ok (.ambiguous names)) :
    (∀ actions : List Index.Action, (∀ a ∈ actions, a.Grounded) →
      v.index = Index.run {} actions → v.Readable) ∧
    (v.Readable → ∀ m ∈ names,
      ((∃ d, v.resolve m = .ok (.single d) ∧ d.qualname = m) ↔
        v.StandsFor (NameQuery.parse m).base m) ∧
      ('.' ∈ m.toList → (NameQuery.parse m).base = m →
        v.StandsFor (NameQuery.parse m).base m)) := by
  constructor
  · intro actions hgrounded hindex
    obtain ⟨index, disk, root⟩ := v
    obtain rfl : index = Index.run {} actions := hindex
    exact Index.readable_run hgrounded disk root
  · intro readable m hm
    refine ⟨IndexView.resolve_single_iff readable, ?_⟩
    intro hdot hbase
    rw [hbase]
    exact .full ⟨hdot, IndexView.hasFullName_of_offered hambiguous hm⟩ rfl

/-- Two files of a class `Foo` each, with these packages and full names. -/
def namesakes (first second : String × String) : IndexView where
  index :=
    { files :=
        [{ id := 1, path := "a/Foo.java", name := "Foo.java", origin := .project,
           digest := .cleared, size := 0, package := first.1, wildcardImports := [],
           content := "" },
         { id := 2, path := "b/Foo.java", name := "Foo.java", origin := .project,
           digest := .cleared, size := 0, package := second.1, wildcardImports := [],
           content := "" }]
      declarations :=
        [{ id := 1, fileId := 1, package := first.1,
           symbol := { qualname := first.2, name := "Foo" } },
         { id := 2, fileId := 2, package := second.1,
           symbol := { qualname := second.2, name := "Foo" } }] }
  disk := default
  root := ""

/-- The rows of the example can be read. -/
theorem readable_namesakes (first second : String × String) :
    (namesakes first second).Readable := by
  refine IndexView.readable_of_undamaged fun row hrow => ?_
  obtain ⟨d, hd, hfile⟩ := List.mem_filterMap.mp hrow
  obtain ⟨f, -, rfl⟩ := Option.map_eq_some_iff.mp hfile
  simp only [namesakes, List.mem_cons, List.not_mem_nil, or_false] at hd
  rcases hd with rfl | rfl
  · rfl
  · rfl

/-- Both classes are found by their simple name. -/
theorem resolve_namesakes {first second : String × String} (h : first.2 < second.2) :
    (namesakes first second).resolve "Foo" = .ok (.ambiguous [first.2, second.2]) := by
  obtain ⟨rows, hrows⟩ : ∃ rows,
      (namesakes first second).declarationRowsWhere .all (·.symbol.name == "Foo") = rows := ⟨_, rfl⟩
  have hsorted : rows.Pairwise fun a b => IndexView.nameOrder
      (a.1.symbol.qualname, a.2.path) (b.1.symbol.qualname, b.2.path) = true := by
    subst hrows
    refine List.pairwise_pair.mpr ?_
    rw [IndexView.nameOrder, Bool.or_eq_true, decide_eq_true_iff]
    exact Or.inl h
  -- The rows stand in order already, so sorting leaves them.
  have hfound : (namesakes first second).simple "Foo" .all =
      .ok (rows.map (namesakes first second).declarationOf) := by
    rw [IndexView.simple, hrows, sortByKey, List.mergeSort_of_pairwise hsorted]
    subst hrows
    rfl
  have hfull : ¬ (namesakes first second).FoundInFull "Foo" := fun hfull =>
    absurd hfull.1 (by decide)
  subst hrows
  rw [IndexView.resolve_of_not_full (by decide +kernel) (by decide) hfull,
    IndexView.later_stages_of_simple hfound (List.cons_ne_nil _ _)]
  exact congrArg (fun sorted => Except.ok (Resolution.ofList sorted)) (sortByName_pair h)

/-- Of two classes in packages each is found again. -/
theorem offered_name_leads_back_packaged :
    (namesakes ("p", "p.Foo") ("q", "q.Foo")).resolve "Foo" =
        .ok (.ambiguous ["p.Foo", "q.Foo"]) ∧
      ∃ d, (namesakes ("p", "p.Foo") ("q", "q.Foo")).resolve "q.Foo" = .ok (.single d) ∧
        d.qualname = "q.Foo" := by
  have hambiguous : (namesakes ("p", "p.Foo") ("q", "q.Foo")).resolve "Foo" =
      .ok (.ambiguous ["p.Foo", "q.Foo"]) := resolve_namesakes (by decide +kernel)
  obtain ⟨-, hoffered⟩ := offered_name_leads_back_iff hambiguous
  obtain ⟨hback, hstands⟩ := hoffered (readable_namesakes _ _) "q.Foo" (by decide)
  exact ⟨hambiguous, hback.mpr (hstands (by decide) (by decide +kernel))⟩

/-- Of a class in a package and one without, the name of the second is offered in vain: it is as
ambiguous as before. -/
theorem offered_name_ambiguous_again :
    (namesakes ("", "Foo") ("p", "p.Foo")).Readable ∧
      (namesakes ("", "Foo") ("p", "p.Foo")).resolve "Foo" = .ok (.ambiguous ["Foo", "p.Foo"]) ∧
      ¬ ∃ d, (namesakes ("", "Foo") ("p", "p.Foo")).resolve "Foo" = .ok (.single d) ∧
        d.qualname = "Foo" := by
  have hambiguous : (namesakes ("", "Foo") ("p", "p.Foo")).resolve "Foo" =
      .ok (.ambiguous ["Foo", "p.Foo"]) := resolve_namesakes (by decide +kernel)
  refine ⟨readable_namesakes _ _, hambiguous, ?_⟩
  rintro ⟨d, hsingle, -⟩
  rw [hambiguous] at hsingle
  cases hsingle

end JavaAtlas
