import JavaAtlas.Proofs.Check.Requests
import JavaAtlas.Proofs.Index.FieldOwners
import JavaAtlas.Proofs.Resolve.Lookups
import JavaAtlas.Service

namespace JavaAtlas

/-! # Full names

As long as no simple name has a dot, a name with a dot stands for the declaration with this full
name or for none: all later stages find nothing for it. A query for the description of such a name
is answered from the index or, if it has no declaration of the name, from the compiled classes.
-/

namespace IndexView

variable {v : IndexView} {input q : String}

/-- No simple name has a dot. -/
def DotFree (v : IndexView) : Prop := ∀ n ∈ v.simpleNames, '.' ∉ n.toList

/-! ## Resolutions of full names -/

/-- Where simple names have no dots, a dotted text is none of them. -/
theorem not_hasSimpleName_of_dotted (hfree : v.DotFree) (hdot : '.' ∈ q.toList) :
    ¬ v.HasSimpleName q :=
  fun h => hfree q (mem_simpleNames.mpr h) hdot

/-- A dotted text is not blank. -/
theorem ne_empty_of_dotted (hdot : '.' ∈ q.toList) : q ≠ "" := by
  rintro rfl
  cases hdot

/-- A query that is not blank goes through all stages. -/
theorem stagesOf_of_ne_empty (hq : (NameQuery.parse input).base = q) (hne : q ≠ "") :
    stagesOf v.symbols input = stagesFor v.symbols q := by
  rw [stagesOf, hq, if_neg hne]

/-- For a dotted name the first stage looks for the type of this full name. -/
theorem exactStage_of_dotted (hdot : '.' ∈ q.toList) :
    (exactStage v.symbols q).found = (v.qualified q .all).map Option.toList := by
  rw [exactStage, if_pos hdot]
  rfl

/-- Behind the stage of full names nothing is found for a name with a dot. -/
theorem later_stages_of_dotted (hfree : v.DotFree) (hdot : '.' ∈ q.toList) :
    firstFound [simpleStage v.symbols q, unitStage v.symbols q, partStage v.symbols q] =
      .ok [] := by
  have hsimple := not_hasSimpleName_of_dotted hfree hdot
  have hpart : (partStage v.symbols q).found = .ok [] := by
    unfold partStage
    change ((namesAround q v.simpleNames).mapM (inProject v.symbols)).map List.flatten = .ok []
    rw [namesAround_eq_nil hdot hfree]
    rfl
  -- No stage behind the first can find a name that has a dot in it.
  rw [firstFound_cons_of_nil (s := simpleStage v.symbols q) (simple_eq_nil hsimple),
    firstFound_cons_of_nil (unitStage_eq_nil hsimple), firstFound_cons_of_nil hpart]
  rfl

/-- A dotted name that is no full name is not found. -/
theorem resolve_of_missing (hfree : v.DotFree) (hq : (NameQuery.parse input).base = q)
    (hdot : '.' ∈ q.toList) (h : ¬ v.HasFullName q) : v.resolve input = .ok .notFound := by
  have hexact : (exactStage v.symbols q).found = .ok [] := by
    rw [exactStage_of_dotted hdot, qualified_eq_none h]
    rfl
  have hall : JavaAtlas.resolveAll Failure v.symbols input = .ok [] := by
    rw [resolveAll_eq_firstFound, stagesOf_of_ne_empty hq (ne_empty_of_dotted hdot), stagesFor,
      firstFound_cons_of_nil hexact, later_stages_of_dotted hfree hdot]
    rfl
  rw [resolve, resolve_eq_map, hall]
  rfl

/-- The full name of some declarations stands for one of them, if its row can be read. -/
theorem exists_resolve_of_full (hq : (NameQuery.parse input).base = q) (hdot : '.' ∈ q.toList)
    (h : v.HasFullName q) :
    ∃ row ∈ v.declarationRows, row.1.symbol.qualname = q ∧
      v.resolve input = (v.readDeclaration row).map .single := by
  obtain ⟨row, hrow, hname, hqualified⟩ := exists_qualified h
  refine ⟨row, hrow, hname, ?_⟩
  have hfound : (exactStage v.symbols q).found = (v.readDeclaration row).map fun d => [d] := by
    rw [exactStage_of_dotted hdot, hqualified]
    cases v.readDeclaration row with
    | error e => rfl
    | ok d => rfl
  have hne : (exactStage v.symbols q).found ≠ .ok [] := by
    rw [hfound]
    cases v.readDeclaration row with
    | error e => exact nofun
    | ok d => exact nofun
  rw [resolve, resolve_eq_map, resolveAll_eq_firstFound,
    stagesOf_of_ne_empty hq (ne_empty_of_dotted hdot), stagesFor, firstFound_cons_of_ne hne, hfound]
  cases v.readDeclaration row with
  | error e => rfl
  | ok d => rfl

/-! ## Descriptions -/

/-- A description bears the full name of its declaration. -/
theorem name_of_describe {d : Declaration} {info : TypeInfo} (h : v.describe d = .ok info) :
    info.name = d.qualname ∧ info.source = .source := by
  obtain ⟨members, -, h⟩ := bind_eq_ok_iff.mp h
  obtain ⟨nested, -, h⟩ := bind_eq_ok_iff.mp h
  cases h
  exact ⟨rfl, rfl⟩

/-- If rows and members can be read, every declaration can be described. -/
theorem Readable.exists_describe (readable : v.Readable) (members : v.MembersReadable)
    (d : Declaration) : ∃ info, v.describe d = .ok info := by
  obtain ⟨ms, hms⟩ : ∃ ms, v.members d = .ok ms := by
    refine exists_mapM_eq_ok_iff.mpr fun row hrow => members row ?_
    exact List.mem_of_mem_filter (mem_sortByKey.mp hrow)
  obtain ⟨ns, hns⟩ : ∃ ns, v.nested d = .ok ns := by
    refine exists_mapM_eq_ok_iff.mpr fun row hrow => readable row ?_
    exact List.mem_of_mem_filter (mem_sortByKey.mp hrow)
  exact ⟨_, bind_eq_ok_iff.mpr ⟨ms, hms, bind_eq_ok_iff.mpr ⟨ns, hns, rfl⟩⟩⟩

end IndexView

/-! ## Answers of a service -/

/-- The answer of a service to a query for a description. -/
def Service.answer (s : Service) (input : String) : Except QueryError TypeInfo :=
  ((Service.host.describe input).run.run s).1

/-- What is answered with what has been loaded from the compiled classes. -/
def compiledAnswer (input : String) :
    Except Failure (Option ArtifactInfo) → Except QueryError TypeInfo
  | .ok (some artifact) => .ok artifact.describe
  | .ok none => .error (.notFound input)
  | .error e => .error (.internal e)

/-- A class that is loaded bears the name that it was asked for by. -/
theorem Classpath.qualname_of_load {c : Classpath} {disk : Disk} {q : String}
    {artifact : ArtifactInfo} (h : c.load disk q = .ok (some artifact)) :
    artifact.qualname = q := by
  obtain ⟨found, -, h⟩ := bind_eq_ok_iff.mp h
  cases found with
  | none => cases h
  | some found =>
    dsimp only at h
    cases hparsed : ClassFile.parse found.content with
    | error e =>
      rw [hparsed] at h
      cases h
    | ok parsed =>
      rw [hparsed] at h
      cases h
      rfl

/-- Without a classpath nothing is loaded. -/
theorem Classpath.load_of_no_entries (disk : Disk) (q : String) :
    ({} : Classpath).load disk q = .ok none := by
  have hfirst : ∀ names, ({} : Classpath).readFirst disk names = .ok none := by
    intro names
    induction names with
    | nil => rfl
    | cons name names ih => exact ih
  rw [load, hfirst]
  rfl

namespace Service

variable {s : Service} {p : Project} {input q : String}

/-- A service whose index is ready looks a name up in the index and then, if it is a full name, in
the compiled classes. -/
theorem answer_eq (hproject : s.project = some p) (hready : p.engine.indexState = .ready) :
    s.answer input =
      match (p.view s.disk).describeNamed input with
      | .error e => .error e
      | .ok (some info) => .ok info
      | .ok none =>
        if !(NameQuery.parse input).isQualified then .error (.notFound input)
        else compiledAnswer input (p.classpath.load s.disk (NameQuery.parse input).base) := by
  obtain ⟨disk, config, project⟩ := s
  obtain rfl : project = some p := hproject
  have hstate : host.indexState.run ⟨disk, config, some p⟩ =
      (some .ready, ⟨disk, config, some p⟩) := congrArg (fun state => (some state, _)) hready
  have hread : (ExceptT.mk host.read : Query Service _).run.run ⟨disk, config, some p⟩ =
      (.ok (p.view disk), ⟨disk, config, some p⟩) := rfl
  -- The index is ready and can be read, so both questions to the host succeed.
  unfold answer Host.describe
  rw [Host.run_query_bind_ok (host.run_ready hstate), Host.run_query_bind_ok hread]
  cases hdescribed : (p.view disk).describeNamed input with
  | error e => rfl
  | ok described =>
    have hd : (ExceptT.mk (pure (.ok described)) : Query Service _).run.run
        ⟨disk, config, some p⟩ = (.ok described, ⟨disk, config, some p⟩) := rfl
    rw [Host.run_query_bind_ok hd]
    cases described with
    | some info => rfl
    | none =>
      dsimp only
      split
      · rfl
      · have hload : (ExceptT.lift (host.artifact (NameQuery.parse input).base) :
            Query Service _).run.run ⟨disk, config, some p⟩ =
              (.ok (p.classpath.load disk (NameQuery.parse input).base), ⟨disk, config, some p⟩) :=
          rfl
        refine (congrArg Prod.fst (Host.run_query_bind_ok hload)).trans ?_
        generalize p.classpath.load disk (NameQuery.parse input).base = loaded
        rcases loaded with e | _ | artifact
        · rfl
        · rfl
        · rfl

/-- A name that stands for one declaration is answered with its description. -/
theorem answer_of_resolve_eq_map (hproject : s.project = some p)
    (hready : p.engine.indexState = .ready) {row : DeclarationRow × FileRow}
    (h : (p.view s.disk).resolve input = ((p.view s.disk).readDeclaration row).map .single) :
    s.answer input =
      ((p.view s.disk).readDeclaration row >>= (p.view s.disk).describe).mapError .internal := by
  rw [answer_eq hproject hready, IndexView.describeNamed, h]
  cases (p.view s.disk).readDeclaration row with
  | error e => rfl
  | ok d =>
    -- What is left of the query is a match on the description, which the definition hides.
    change (match ((p.view s.disk).describe d).mapError QueryError.internal >>= fun info =>
      (pure (some info) : Except QueryError _) with
      | .error e => _
      | .ok (some info) => _
      | .ok none => _) = ((p.view s.disk).describe d).mapError QueryError.internal
    cases (p.view s.disk).describe d with
    | error e => rfl
    | ok info => rfl

/-- The description is that of the declaration, and there is one if all rows can be read. -/
theorem describes_of_resolve_eq_map (hproject : s.project = some p)
    (hready : p.engine.indexState = .ready) {row : DeclarationRow × FileRow}
    (hrow : row ∈ (p.view s.disk).declarationRows)
    (h : (p.view s.disk).resolve input = ((p.view s.disk).readDeclaration row).map .single) :
    (∀ info, s.answer input = .ok info →
      info.name = row.1.symbol.qualname ∧ info.source = .source) ∧
    ((p.view s.disk).Readable → (p.view s.disk).MembersReadable →
      ∃ info, s.answer input = .ok info) := by
  rw [answer_of_resolve_eq_map hproject hready h]
  constructor
  · intro info hinfo
    obtain ⟨d, hd, hdescribe⟩ := bind_eq_ok_iff.mp (mapError_eq_ok_iff.mp hinfo)
    obtain ⟨hname, hsource⟩ := IndexView.name_of_describe hdescribe
    rw [IndexView.eq_declarationOf_of_read hd] at hname
    exact ⟨hname, hsource⟩
  · intro readable members
    obtain ⟨info, hinfo⟩ := readable.exists_describe members _
    exact ⟨info, mapError_eq_ok_iff.mpr (bind_eq_ok_iff.mpr ⟨_, readable.read hrow, hinfo⟩)⟩

/-- A full name that stands for nothing in the index is answered from the compiled classes. -/
theorem answer_of_not_found (hproject : s.project = some p) (hready : p.engine.indexState = .ready)
    (hq : (NameQuery.parse input).base = q) (hdot : '.' ∈ q.toList)
    (h : (p.view s.disk).resolve input = .ok .notFound) :
    s.answer input = compiledAnswer input (p.classpath.load s.disk q) := by
  have hqualified : (NameQuery.parse input).isQualified = true := by
    rw [NameQuery.isQualified, hq]
    exact List.contains_iff_mem.mpr hdot
  rw [answer_eq hproject hready, IndexView.describeNamed, h]
  change (if !(NameQuery.parse input).isQualified then _ else _) = _
  rw [hqualified, hq]
  rfl

end Service

/-- The answer from the classpath never asks to choose. -/
theorem code_of_compiledAnswer {input : String} {loaded : Except Failure (Option ArtifactInfo)}
    {e : QueryError} (h : compiledAnswer input loaded = .error e) :
    e.code ≠ "MULTIPLE_MATCHES" := by
  rcases loaded with f | _ | artifact
  · cases h
    exact ne_of_beq_false rfl
  · cases h
    exact ne_of_beq_false rfl
  · cases h

/-- A query that is settled by one row is not ambiguous. -/
theorem IndexView.resolve_ne_ambiguous {v : IndexView} {input : String}
    {row : DeclarationRow × FileRow} (h : v.resolve input = (v.readDeclaration row).map .single)
    (names : List String) : v.resolve input ≠ .ok (.ambiguous names) := by
  rw [h]
  cases v.readDeclaration row with
  | error e => exact nofun
  | ok d => exact nofun

/-- If no simple name has a dot, a name with a dot is never told in several ways: it stands for a
declaration with this full name, if there is one in the project or a library, and otherwise for
nothing. A query for its description is answered with that of such a declaration, unless a row
cannot be read, and if there is none with the compiled class or that there is none either. -/
theorem qualified_never_fuzzy {v : IndexView} {input q : String} (hfree : v.DotFree)
    (hq : (NameQuery.parse input).base = q) (hdot : '.' ∈ q.toList) :
    (∀ names, v.resolve input ≠ .ok (.ambiguous names)) ∧
    (v.HasFullName q → ∃ row ∈ v.declarationRows, row.1.symbol.qualname = q ∧
      v.resolve input = (v.readDeclaration row).map .single ∧
      ∀ d, v.readDeclaration row = .ok d → d.qualname = q) ∧
    (¬ v.HasFullName q → v.resolve input = .ok .notFound) ∧
    ∀ (s : Service) (p : Project), s.project = some p → p.engine.indexState = .ready →
      p.view s.disk = v →
        (∀ e, s.answer input = .error e → e.code ≠ "MULTIPLE_MATCHES") ∧
        (v.HasFullName q →
          (∀ info, s.answer input = .ok info → info.name = q ∧ info.source = .source) ∧
          (v.Readable → v.MembersReadable → ∃ info, s.answer input = .ok info)) ∧
        (¬ v.HasFullName q →
          s.answer input = compiledAnswer input (p.classpath.load s.disk q) ∧
          ∀ artifact, p.classpath.load s.disk q = .ok (some artifact) →
            artifact.describe.name = q ∧ artifact.describe.source = .compiled) := by
  have hfull : v.HasFullName q → ∃ row ∈ v.declarationRows, row.1.symbol.qualname = q ∧
      v.resolve input = (v.readDeclaration row).map .single :=
    IndexView.exists_resolve_of_full hq hdot
  have hmissing : ¬ v.HasFullName q → v.resolve input = .ok .notFound :=
    IndexView.resolve_of_missing hfree hq hdot
  refine ⟨?_, ?_, hmissing, ?_⟩
  · intro names
    by_cases h : v.HasFullName q
    · obtain ⟨row, -, -, hresolve⟩ := hfull h
      exact IndexView.resolve_ne_ambiguous hresolve names
    · rw [hmissing h]
      exact nofun
  · intro h
    obtain ⟨row, hrow, hname, hresolve⟩ := hfull h
    refine ⟨row, hrow, hname, hresolve, ?_⟩
    intro d hread
    rw [IndexView.eq_declarationOf_of_read hread]
    exact hname
  rintro s p hproject hready rfl
  have hcompiled : ¬ (p.view s.disk).HasFullName q →
      s.answer input = compiledAnswer input (p.classpath.load s.disk q) :=
    fun h => Service.answer_of_not_found hproject hready hq hdot (hmissing h)
  refine ⟨?_, ?_, ?_⟩
  · -- The index answers in one way, and the classpath has no choice to offer.
    intro e he
    by_cases h : (p.view s.disk).HasFullName q
    · obtain ⟨row, -, -, hresolve⟩ := hfull h
      rw [Service.answer_of_resolve_eq_map hproject hready hresolve] at he
      obtain ⟨f, -, rfl⟩ := mapError_eq_error_iff.mp he
      exact ne_of_beq_false rfl
    · exact code_of_compiledAnswer ((hcompiled h).symm.trans he)
  · intro h
    obtain ⟨row, hrow, rfl, hresolve⟩ := hfull h
    exact Service.describes_of_resolve_eq_map hproject hready hrow hresolve
  · intro h
    refine ⟨hcompiled h, ?_⟩
    intro artifact hartifact
    exact ⟨Classpath.qualname_of_load hartifact, rfl⟩

/-- A file of one class in a package. -/
def packagedClass : IndexView where
  index :=
    { files :=
        [{ id := 1, path := "p/A.java", name := "A.java", origin := .library, digest := .cleared,
           size := 0, package := "p", wildcardImports := [], content := "" }]
      declarations :=
        [{ id := 1, fileId := 1, package := "p", symbol := { qualname := "p.A", name := "A" } }] }
  disk := default
  root := ""

/-- A service of this index, without compiled classes. -/
def packagedService : Service where
  disk := default
  config := {}
  project := some
    { tree := default
      classpath := {}
      engine := { index := packagedClass.index } }

/-- The class is found by its full name even with the ending of a source file, and nothing is found
for a name that it has only in other case. -/
theorem qualified_never_fuzzy_packaged :
    packagedClass.DotFree ∧ (NameQuery.parse "p.A.java").base = "p.A" ∧
      (NameQuery.parse "P.a").base = "P.a" ∧
      (∃ info, packagedService.answer "p.A.java" = .ok info ∧ info.name = "p.A" ∧
        info.source = .source) ∧
      packagedClass.resolve "P.a" = .ok .notFound ∧
      packagedService.answer "P.a" = .error (.notFound "P.a") := by
  have hfree : packagedClass.DotFree := by
    unfold IndexView.DotFree
    decide +kernel
  have hfull : (NameQuery.parse "p.A.java").base = "p.A" := by decide +kernel
  have hother : (NameQuery.parse "P.a").base = "P.a" := by decide +kernel
  have hhas : packagedClass.HasFullName "p.A" := ⟨_, List.mem_singleton_self _, rfl⟩
  have hnot : ¬ packagedClass.HasFullName "P.a" := by
    unfold IndexView.HasFullName
    decide +kernel
  have hreadable : packagedClass.Readable := IndexView.readable_of_undamaged (by decide)
  have hmembers : packagedClass.MembersReadable :=
    IndexView.membersReadable_of_undamaged (by decide)
  have hload : ({} : Classpath).load default "P.a" = .ok none := Classpath.load_of_no_entries ..
  obtain ⟨-, -, -, hanswer⟩ := qualified_never_fuzzy hfree hfull (by decide)
  obtain ⟨-, hdescribed, -⟩ := hanswer packagedService _ rfl rfl rfl
  obtain ⟨-, -, hmissing, hcompiled⟩ := qualified_never_fuzzy hfree hother (by decide)
  obtain ⟨-, -, hclass⟩ := hcompiled packagedService _ rfl rfl rfl
  obtain ⟨info, hinfo⟩ := (hdescribed hhas).2 hreadable hmembers
  refine ⟨hfree, hfull, hother, ⟨info, hinfo, (hdescribed hhas).1 info hinfo⟩, hmissing hnot, ?_⟩
  rw [(hclass hnot).1]
  exact congrArg (compiledAnswer "P.a") hload

end JavaAtlas
