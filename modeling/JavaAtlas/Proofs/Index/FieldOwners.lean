import JavaAtlas.Proofs.Index.Supertypes

namespace JavaAtlas

/-! # Whose field a chain leads to

A chain that goes on through a field of a class asks the class and all that it inherits from for
the type of the field, and takes the first answer: the class itself is asked first, the others in
the order of their names. How far away they are does not count.

* `fst_run_stepType_field`: the step, apart from what earlier searches have left;
* `ownersInOrder_eq`: who is asked, and in which order;
* `exists_of_firstMemberType`: what an answer says of those asked before;
* `stepType_field_nearest_iff`: whose field decides, and when it is the nearest.
-/

namespace IndexView

variable {v : IndexView} {owner field : String}

/-! ## The field of one class -/

/-- A class declares a field with a name. -/
def DeclaresField (v : IndexView) (owner field : String) : Prop :=
  ∃ row ∈ v.memberRows, row.2.1.symbol.qualname = owner ∧ row.1.symbol.kind = .field ∧
    row.1.symbol.name = field

/-- The type that a class gives to its field with a name: that written for the first such field,
if it can be told. -/
def fieldType (v : IndexView) (owner field : String) : Option String :=
  ((v.membersNamed owner .field field).find? (·.1.symbol.type.isSome)).bind fun (m, _, f) =>
    m.symbol.type.bind fun t => v.typeTextIn t f.package f.wildcardImports

/-- All members can be read. -/
def MembersReadable (v : IndexView) : Prop := ∀ row ∈ v.memberRows, ∃ m, readMember row = .ok m

/-- The members of a name are the rows of that owner, kind and name. -/
@[simp]
theorem mem_membersNamed {kind : MemberKind} {row : MemberRow × DeclarationRow × FileRow} :
    row ∈ v.membersNamed owner kind field ↔ row ∈ v.memberRows ∧
      row.2.1.symbol.qualname = owner ∧ row.1.symbol.kind = kind ∧ row.1.symbol.name = field := by
  simp only [membersNamed, mem_sortByKey, List.mem_filter, Bool.and_eq_true, beq_iff_eq, and_assoc]

section FirstType

variable {row : MemberRow × DeclarationRow × FileRow}
  {rows : List (MemberRow × DeclarationRow × FileRow)}

/-- A field with a type answers, one without is passed over. -/
theorem firstType_none_cons : v.firstType none (row :: rows) =
    checkDamage [.params] row.1.damage >>= fun _ =>
      match row.1.symbol.type with
      | some t => .ok (v.typeTextIn t row.2.2.package row.2.2.wildcardImports)
      | none => v.firstType none rows := by
  obtain ⟨m, d, f⟩ := row
  rfl

/-- The type found first is that of the first row that has one, read in its own file. -/
theorem firstType_none_eq {found : Option String} (h : v.firstType none rows = .ok found) :
    found = (rows.find? (·.1.symbol.type.isSome)).bind fun (m, _, f) =>
      m.symbol.type.bind fun t => v.typeTextIn t f.package f.wildcardImports := by
  -- On the rows: one without a type is passed, and the first with one ends the search.
  induction rows with
  | nil => exact (Except.ok.inj h).symm
  | cons row rows ih =>
    rw [firstType_none_cons] at h
    obtain ⟨-, -, hrest⟩ := bind_eq_ok_iff.mp h
    rw [List.find?_cons]
    cases htype : row.1.symbol.type with
    | none =>
      rw [htype] at hrest
      exact ih hrest
    | some t =>
      rw [htype] at hrest
      dsimp only [Option.isSome_some, Option.bind_some]
      rw [htype]
      exact (Except.ok.inj hrest).symm

/-- If every row can be read, the search for a type comes to an end. -/
theorem exists_firstType_none (h : ∀ row ∈ rows, ∃ m, readMember row = .ok m) :
    ∃ found, v.firstType none rows = .ok found := by
  induction rows with
  | nil => exact ⟨none, rfl⟩
  | cons row rows ih =>
    obtain ⟨⟨m, hread⟩, hrest⟩ := List.forall_mem_cons.mp h
    obtain ⟨u, hundamaged, -⟩ := bind_eq_ok_iff.mp hread
    rw [firstType_none_cons]
    cases row.1.symbol.type with
    | none =>
      obtain ⟨found, hfound⟩ := ih hrest
      exact ⟨found, bind_eq_ok_iff.mpr ⟨u, hundamaged, hfound⟩⟩
    | some t => exact ⟨_, bind_eq_ok_iff.mpr ⟨u, hundamaged, rfl⟩⟩

end FirstType

/-- What a class tells of a field is the type of the field in it. -/
theorem memberType_field_eq {found : Option String}
    (h : v.memberType owner (.field field) = .ok found) : found = v.fieldType owner field :=
  firstType_none_eq h

/-- If the members can be read, a class tells the type of its field. -/
theorem memberType_field (h : v.MembersReadable) (owner field : String) :
    v.memberType owner (.field field) = .ok (v.fieldType owner field) := by
  obtain ⟨found, hfound⟩ : ∃ found, v.memberType owner (.field field) = .ok found :=
    exists_firstType_none fun row hrow => h row (mem_membersNamed.mp hrow).1
  rw [hfound, memberType_field_eq hfound]

/-! ## One class after the other -/

/-- An answer is that of the first class that gives the field a type. -/
theorem exists_of_firstMemberType {owners : List String} {type : String}
    (h : v.firstMemberType (.field field) owners = .ok (some type)) :
    ∃ before o after, owners = before ++ o :: after ∧ v.fieldType o field = some type ∧
      ∀ p ∈ before, v.fieldType p field = none := by
  induction owners with
  | nil => cases h
  | cons owner owners ih =>
    obtain ⟨found, hfound, hrest⟩ := bind_eq_ok_iff.mp h
    have howner := memberType_field_eq hfound
    cases found with
    | some found =>
      cases hrest
      exact ⟨[], owner, owners, rfl, howner.symm, by simp⟩
    | none =>
      -- This class tells no type, so it stands before the one that does.
      obtain ⟨before, o, after, rfl, ho, hbefore⟩ := ih hrest
      exact ⟨owner :: before, o, after, rfl, ho, List.forall_mem_cons.mpr ⟨howner.symm, hbefore⟩⟩

/-- If the members can be read, the first class with a type for the field decides. -/
theorem firstMemberType_field (h : v.MembersReadable) (field : String) (owners : List String) :
    v.firstMemberType (.field field) owners = .ok (owners.findSome? (v.fieldType · field)) := by
  induction owners with
  | nil => rfl
  | cons owner owners ih =>
    rw [firstMemberType, memberType_field h, List.findSome?_cons]
    cases v.fieldType owner field with
    | some found => rfl
    | none => exact ih

/-- Names are in the order of texts. -/
theorem keyOrder_string : KeyOrder fun a b : String => decide (a ≤ b) where
  trans := by
    intro a b c hab hbc
    exact decide_eq_true (le_trans (of_decide_eq_true hab) (of_decide_eq_true hbc))
  total := by
    intro a b
    simpa using le_total a b

/-- The class itself is asked first, then all others by their names. -/
theorem ownersInOrder_eq {base : String} {names : List String} (hnodup : names.Nodup)
    (hbase : base ∈ names) :
    ∃ others, ownersInOrder base names = base :: others ∧ others.Pairwise (· ≤ ·) ∧
      ∀ o, o ∈ others ↔ o ∈ names ∧ o ≠ base := by
  -- The class itself is listed once, so it stands in front once.
  have hfront : names.filter (· == base) = [base] := by
    rw [List.filter_beq, List.count_eq_one_of_mem hnodup hbase]
    rfl
  refine ⟨sortByKey (fun a b => decide (a ≤ b)) id (names.filter (· != base)), ?_, ?_, ?_⟩
  · rw [ownersInOrder, hfront]
    rfl
  · refine (keyOrder_string.pairwise_sortByKey id (names.filter (· != base))).imp ?_
    intro a b hab
    exact of_decide_eq_true hab
  · intro o
    rw [mem_sortByKey, List.mem_filter, bne_iff_ne]

/-! ## The step -/

/-- With a sound cache the ancestors are all supertypes, as without one. -/
theorem fst_run_ancestors {cache : SupertypeCache} (h : v.CacheSound cache) (name : String) :
    ((v.ancestors name).run.run cache).1 = v.allSupertypes name := by
  rw [run_ancestors]
  cases hlookup : cache.lookup name with
  | some found => exact (h name found hlookup).symm
  | none =>
    cases v.allSupertypes name with
    | ok found => rfl
    | error e => rfl

/-- The step from an indexed class through a field asks the class and all that it inherits from. -/
theorem fst_run_stepType_field {current : String}
    (indexed : v.hasQualname (Java.erase current) = true) {cache : SupertypeCache}
    (h : v.CacheSound cache) :
    ((v.stepType current (.field field)).run.run cache).1 =
      v.allSupertypes (Java.erase current) >>= fun names =>
        v.firstMemberType (.field field) (ownersInOrder (Java.erase current) names) := by
  unfold stepType
  dsimp only
  rw [indexed, Bool.not_true, if_neg Bool.false_ne_true, run_bind,
    ← fst_run_ancestors h (Java.erase current)]
  rcases (v.ancestors (Java.erase current)).run.run cache with ⟨outcome, cache'⟩
  cases outcome with
  | error e => rfl
  | ok names =>
    show _ = v.firstMemberType (.field field) (ownersInOrder (Java.erase current) names)
    dsimp only
    cases v.firstMemberType (.field field) (ownersInOrder (Java.erase current) names) with
    | error e => rfl
    | ok found => rfl

/-- The class whose field decides: the class itself if it gives its field a type, else that with
the first name among those it inherits from that do. -/
structure DecidesField (v : IndexView) (c field o : String) : Prop where
  inherited : v.Inherits c o
  told : v.fieldType o field ≠ none
  first : o = c ∨ v.fieldType c field = none ∧
    ∀ p, v.Inherits c p → v.fieldType p field ≠ none → o ≤ p

/-- A class lies on the way from one to another that it inherits from. -/
structure Between (v : IndexView) (c p o : String) : Prop where
  above : v.Inherits c p
  below : v.Inherits p o
  other : p ≠ o

/-- A type that is found comes from the class that decides the field. -/
theorem exists_decidesField {c type : String} {found : List String}
    (hfound : v.allSupertypes c = .ok found)
    (h : v.firstMemberType (.field field) (ownersInOrder c found) = .ok (some type)) :
    ∃ o, v.DecidesField c field o ∧ v.fieldType o field = some type := by
  have hsearch := searches_of_allSupertypes hfound
  have hlists : v.ListsAncestors c found := hsearch.mem_iff
  obtain ⟨others, howners, hsorted, hothers⟩ :=
    ownersInOrder_eq (hsearch.nodup List.nodup_nil) ((hlists c).mpr .refl)
  obtain ⟨before, o, after, hsplit, ho, hbefore⟩ := exists_of_firstMemberType h
  have htold : v.fieldType o field ≠ none := by
    rw [ho]
    exact Option.some_ne_none type
  rw [howners] at hsplit
  cases before with
  | nil =>
    obtain ⟨rfl, -⟩ := List.cons_eq_cons.mp hsplit
    exact ⟨c, ⟨.refl, htold, .inl rfl⟩, ho⟩
  | cons first before =>
    obtain ⟨rfl, rfl⟩ := List.cons_eq_cons.mp hsplit
    obtain ⟨hnone, hbefore⟩ := List.forall_mem_cons.mp hbefore
    have hinherited : v.Inherits c o := (hlists o).mp ((hothers o).mp (by simp)).1
    refine ⟨o, ⟨hinherited, htold, .inr ⟨hnone, fun p hp hptold => ?_⟩⟩, ho⟩
    -- who gives the field a type is neither the class itself nor in front of the one that decides
    have hne : p ≠ c := fun heq => hptold (heq ▸ hnone)
    have hmem : p ∈ before ++ o :: after := (hothers p).mpr ⟨(hlists p).mpr hp, hne⟩
    rcases List.mem_append.mp hmem with hmem | hmem
    · exact absurd (hbefore p hmem) hptold
    · rcases List.mem_cons.mp hmem with rfl | hmem
      · exact le_refl p
      · exact (List.pairwise_cons.mp (List.pairwise_append.mp hsorted).2.1).1 p hmem

/-- One class at most decides a field. -/
theorem DecidesField.unique {c o p : String} (ho : v.DecidesField c field o)
    (hp : v.DecidesField c field p) : o = p := by
  rcases ho.first with rfl | ⟨hself, hleast⟩
  · rcases hp.first with rfl | ⟨hself, -⟩
    · rfl
    · exact absurd hself ho.told
  · rcases hp.first with rfl | ⟨-, hleast'⟩
    · exact absurd hself hp.told
    · exact le_antisymm (hleast p hp.inherited hp.told) (hleast' o ho.inherited ho.told)

section StepType

variable {current : String} {cache : SupertypeCache}

/-- The type of a step to a field comes from the class that decides it. -/
theorem exists_decidesField_of_stepType {type : String}
    (indexed : v.hasQualname (Java.erase current) = true) (sound : v.CacheSound cache)
    (h : ((v.stepType current (.field field)).run.run cache).1 = .ok (some type)) :
    ∃ o, v.DecidesField (Java.erase current) field o ∧ v.fieldType o field = some type := by
  rw [fst_run_stepType_field indexed sound] at h
  obtain ⟨found, hfound, hfirst⟩ := bind_eq_ok_iff.mp h
  exact exists_decidesField hfound hfirst

/-- If all rows can be read, the step has an outcome. -/
theorem exists_stepType_field (readable : v.Readable) (members : v.MembersReadable)
    (indexed : v.hasQualname (Java.erase current) = true) (sound : v.CacheSound cache) :
    ∃ result, ((v.stepType current (.field field)).run.run cache).1 = .ok result ∧
      (result = none ↔
        ∀ o, v.Inherits (Java.erase current) o → v.fieldType o field = none) := by
  rw [fst_run_stepType_field indexed sound]
  obtain ⟨found, hfound, -, hnodup, hlists⟩ := exists_allSupertypes readable (Java.erase current)
  obtain ⟨others, howners, -, hothers⟩ := ownersInOrder_eq hnodup ((hlists _).mpr .refl)
  refine ⟨_, bind_eq_ok_iff.mpr ⟨found, hfound, firstMemberType_field members field _⟩, ?_⟩
  -- Sorting changes the order in which classes are asked, but not which ones are.
  have hasked : ∀ o, o ∈ ownersInOrder (Java.erase current) found ↔
      v.Inherits (Java.erase current) o := by
    intro o
    rw [howners, List.mem_cons, hothers, hlists]
    constructor
    · rintro (rfl | ⟨ho, -⟩)
      · exact .refl
      · exact ho
    · intro ho
      by_cases heq : o = Java.erase current
      · exact .inl heq
      · exact .inr ⟨ho, heq⟩
  rw [List.findSome?_eq_none_iff]
  exact forall_congr' fun o => by rw [hasked]

/-- And if some class decides, it is the type that this class gives to its field. -/
theorem DecidesField.stepType {o : String} (h : v.DecidesField (Java.erase current) field o)
    (readable : v.Readable) (members : v.MembersReadable)
    (indexed : v.hasQualname (Java.erase current) = true) (sound : v.CacheSound cache) :
    ((v.stepType current (.field field)).run.run cache).1 = .ok (v.fieldType o field) := by
  obtain ⟨result, hresult, hnone⟩ := exists_stepType_field readable members indexed sound
  cases result with
  | none => exact absurd (hnone.mp rfl o h.inherited) h.told
  | some type =>
    obtain ⟨p, hp, htype⟩ := exists_decidesField_of_stepType indexed sound hresult
    rw [hresult, ← htype, h.unique hp]

end StepType

/-- No class inherits from itself in one or more steps. -/
def Acyclic (v : IndexView) : Prop := ∀ name, ¬ Relation.TransGen v.WritesSupertype name name

/-- Without circles, two classes that inherit from each other are one. -/
theorem Acyclic.eq_of_inherits {a b : String} (h : v.Acyclic) (hab : v.Inherits a b)
    (hba : v.Inherits b a) : a = b := by
  rcases Relation.reflTransGen_iff_eq_or_transGen.mp hab with heq | hsteps
  · exact heq.symm
  · exact absurd (hsteps.trans_left hba) (h a)

/-- A class is passed over although it declares the field: its type cannot be told, or others are
asked before, since its name is behind that of the class that decides. -/
structure PassedOver (v : IndexView) (c field p o : String) : Prop where
  declares : v.DeclaresField p field
  cause : v.fieldType p field = none ∨ p ≠ c ∧ o < p

/-- The class that decides is the nearest exactly if none in between is passed over. -/
theorem DecidesField.nearest_iff {c o : String} (acyclic : v.Acyclic)
    (h : v.DecidesField c field o) :
    (∀ p, v.Between c p o → ¬ v.DeclaresField p field) ↔
      ∀ p, v.Between c p o → ¬ v.PassedOver c field p o := by
  constructor
  · intro hnearest p hp hpassed
    exact hnearest p hp hpassed.declares
  · intro hnone p hp hdeclares
    refine hnone p hp ⟨hdeclares, ?_⟩
    rcases h.first with rfl | ⟨hself, hleast⟩
    · -- between a class and itself there is none
      exact absurd (acyclic.eq_of_inherits hp.below hp.above) hp.other
    · by_cases htold : v.fieldType p field = none
      · exact .inl htold
      · have hne : p ≠ c := fun heq => htold (heq ▸ hself)
        have hle : o ≤ p := hleast p hp.above htold
        exact .inr ⟨hne, lt_of_le_of_ne hle hp.other.symm⟩

/-- If a chain goes on from a class through one of its fields, it does so by the type which the
class that decides gives to its own field, whatever earlier searches have left. No class in between
declares such a field exactly if none in between is passed over. If all rows can be read, the step
has an outcome, and there is no type only if no class gives the field one. -/
theorem stepType_field_nearest_iff (v : IndexView) (acyclic : v.Acyclic) (current field : String)
    (indexed : v.hasQualname (Java.erase current) = true) (cache : SupertypeCache)
    (sound : v.CacheSound cache) :
    (∀ type, ((v.stepType current (.field field)).run.run cache).1 = .ok (some type) →
      ∃ o, v.DecidesField (Java.erase current) field o ∧ v.fieldType o field = some type ∧
        ((∀ p, v.Between (Java.erase current) p o → ¬ v.DeclaresField p field) ↔
          ∀ p, v.Between (Java.erase current) p o →
            ¬ v.PassedOver (Java.erase current) field p o)) ∧
    (v.Readable → v.MembersReadable →
      ∃ result, ((v.stepType current (.field field)).run.run cache).1 = .ok result ∧
        (result = none ↔ ∀ o, v.Inherits (Java.erase current) o → v.fieldType o field = none)) := by
  constructor
  · intro type h
    obtain ⟨o, hdecides, ho⟩ := exists_decidesField_of_stepType indexed sound h
    exact ⟨o, hdecides, ho, hdecides.nearest_iff acyclic⟩
  · intro readable members
    exact exists_stepType_field readable members indexed sound

/-! Three classes in a row, of which two declare a field `f`. -/

/-- A class of the package `p` with what it extends. -/
def extendingRow (id : Nat) (name : String) (superclass : Option String) : DeclarationRow where
  id := id
  fileId := 1
  package := "p"
  symbol :=
    { qualname := "p." ++ name
      name
      superclass := superclass.map fun s => { text := s, resolved := some ("p." ++ s) } }

/-- A field `f` of a class. -/
def fieldRow (id declarationId : Nat) (type : String) : MemberRow where
  id := id
  fileId := 1
  declarationId := declarationId
  symbol :=
    { declIndex := 0
      kind := .field
      name := "f"
      type := some { text := type, resolved := some ("p." ++ type) } }

/-- A class extends the near one and this the far one, and both declare a field `f`, of types `Y`
and `X`. -/
def fieldsView (near far : String) : IndexView where
  index :=
    { files := [packageFile 1 "C.java"]
      declarations :=
        [extendingRow 1 far none, extendingRow 2 near (some far), extendingRow 3 "C" (some near)]
      members := [fieldRow 1 1 "X", fieldRow 2 2 "Y"] }
  disk := default
  root := "/"

instance (v : IndexView) (owner field : String) : Decidable (v.DeclaresField owner field) :=
  inferInstanceAs (Decidable (∃ row ∈ v.memberRows, _))

/-- If names can be numbered so that each supertype has a lower number, there is no circle. -/
theorem acyclic_of_rank (rank : String → Nat)
    (h : ∀ row ∈ v.declarationRows, ∀ super ∈ v.parentsIn row,
      rank super < rank row.1.symbol.qualname) : v.Acyclic := by
  have hstep : ∀ name super, v.WritesSupertype name super → rank super < rank name := by
    rintro name super ⟨row, hrow, rfl, t, ht, hsuper⟩
    exact h row hrow super (List.mem_filterMap.mpr ⟨t, ht, hsuper⟩)
  intro name hcircle
  -- Every step goes down in rank, so a circle would go below its own start.
  have hlt : ∀ other, Relation.TransGen v.WritesSupertype name other → rank other < rank name := by
    intro other hsteps
    induction hsteps with
    | single hwrites => exact hstep _ _ hwrites
    | tail _ hwrites ih => exact Nat.lt_trans (hstep _ _ hwrites) ih
  exact Nat.lt_irrefl _ (hlt name hcircle)

/-- Rows without damage can be read. -/
theorem readable_of_undamaged (h : ∀ row ∈ v.declarationRows, row.1.damage = []) : v.Readable :=
  fun row hrow => ⟨_, readDeclaration_of_undamaged v (h row hrow)⟩

/-- Members without damage can be read. -/
theorem membersReadable_of_undamaged (h : ∀ row ∈ v.memberRows, row.1.damage = []) :
    v.MembersReadable :=
  fun row hrow => ⟨_, readMember_of_undamaged (h row hrow)⟩

/-- Every class that is inherited from is among all supertypes. -/
theorem mem_of_inherits {c p : String} {found : List String}
    (h : (v.allSupertypes c).toOption = some found) (hp : v.Inherits c p) : p ∈ found :=
  ((searches_of_allSupertypes (eq_ok_of_toOption_eq_some h)).mem_iff p).mpr hp

/-- The name of the near class is in front of that of the far one, and its field decides. -/
theorem stepType_field_nearest_front :
    (fieldsView "A" "B").Acyclic ∧ (fieldsView "A" "B").hasQualname (Java.erase "p.C") = true ∧
      (((fieldsView "A" "B").stepType "p.C" (.field "f")).run.run []).1 = .ok (some "p.Y") ∧
      (fieldsView "A" "B").DecidesField "p.C" "f" "p.A" ∧
      (∀ p, (fieldsView "A" "B").Between "p.C" p "p.A" →
        ¬ (fieldsView "A" "B").DeclaresField p "f") ∧
      (fieldsView "A" "B").Readable ∧ (fieldsView "A" "B").MembersReadable ∧
      ∃ o, (fieldsView "A" "B").Inherits "p.C" o ∧ (fieldsView "A" "B").fieldType o "f" ≠ none := by
  have hacyclic : (fieldsView "A" "B").Acyclic :=
    acyclic_of_rank (["p.B", "p.A", "p.C"].idxOf ·) (by decide)
  have hindexed : (fieldsView "A" "B").hasQualname (Java.erase "p.C") = true := by decide
  have herase : Java.erase "p.C" = "p.C" := by decide
  have hancestors : ∀ p, (fieldsView "A" "B").Inherits "p.C" p → p ∈ ["p.B", "p.A", "p.C"] :=
    fun p hp => mem_of_inherits (by decide) hp
  have hreadable : (fieldsView "A" "B").Readable := readable_of_undamaged (by decide)
  have hmembers : (fieldsView "A" "B").MembersReadable :=
    membersReadable_of_undamaged (by decide)
  -- The class itself has no such field, and of the other two the name of this one is least.
  have hdecides : (fieldsView "A" "B").DecidesField "p.C" "f" "p.A" := by
    refine ⟨.single (mem_parents.mp (by decide)), by decide +kernel, .inr ⟨by decide +kernel, ?_⟩⟩
    intro p hp _
    have hmem := hancestors p hp
    simp only [List.mem_cons, List.not_mem_nil, or_false] at hmem
    rcases hmem with rfl | rfl | rfl
    · decide
    · decide
    · decide
  have hrun : (((fieldsView "A" "B").stepType "p.C" (.field "f")).run.run []).1 =
      .ok (some "p.Y") := by
    have htype : (fieldsView "A" "B").fieldType "p.A" "f" = some "p.Y" := by decide +kernel
    rw [← htype]
    rw [← herase] at hdecides
    exact hdecides.stepType hreadable hmembers hindexed cacheSound_nil
  obtain ⟨htyped, houtcome⟩ :=
    stepType_field_nearest_iff _ hacyclic "p.C" "f" hindexed [] cacheSound_nil
  obtain ⟨o, ho, -, hnearest⟩ := htyped _ hrun
  obtain ⟨result, hresult, hnone⟩ := houtcome hreadable hmembers
  rw [herase] at ho hnearest hnone
  have hnear : o = "p.A" := ho.unique hdecides
  subst hnear
  have htold : ∃ o, (fieldsView "A" "B").Inherits "p.C" o ∧
      (fieldsView "A" "B").fieldType o "f" ≠ none := by
    by_contra hno
    have hnothing : result = none := hnone.mpr fun o ho => by_contra fun hne => hno ⟨o, ho, hne⟩
    rw [hrun, hnothing] at hresult
    cases hresult
  refine ⟨hacyclic, hindexed, hrun, hdecides, hnearest.mpr fun p hp hpassed => ?_, hreadable,
    hmembers, htold⟩
  have hmem := hancestors p hp.above
  simp only [List.mem_cons, List.not_mem_nil, or_false] at hmem
  rcases hmem with rfl | rfl | rfl
  · -- the far class is not in between, as the near one inherits from it
    have hwrites : (fieldsView "A" "B").WritesSupertype "p.A" "p.B" :=
      mem_parents.mp (by decide)
    have hfar : (fieldsView "A" "B").Inherits "p.A" "p.B" := .single hwrites
    exact hp.other (hacyclic.eq_of_inherits hp.below hfar)
  · exact hp.other rfl
  · exact absurd hpassed.declares (by decide)

/-- The name of the near class is behind that of the far one, and the field of the far one
decides. -/
theorem far_field_decides :
    (fieldsView "B" "A").Acyclic ∧ (fieldsView "B" "A").Readable ∧
      (fieldsView "B" "A").Between "p.C" "p.B" "p.A" ∧
      (fieldsView "B" "A").DeclaresField "p.B" "f" ∧
      (fieldsView "B" "A").fieldType "p.B" "f" = some "p.Y" ∧
      (fieldsView "B" "A").fieldType "p.A" "f" = some "p.X" ∧
      (((fieldsView "B" "A").stepType "p.C" (.field "f")).run.run []).1 = .ok (some "p.X") := by
  have hbetween : (fieldsView "B" "A").Between "p.C" "p.B" "p.A" :=
    { above := .single (mem_parents.mp (by decide))
      below := .single (mem_parents.mp (by decide))
      other := by decide }
  have hreadable : (fieldsView "B" "A").Readable := readable_of_undamaged (by decide)
  have hmembers : (fieldsView "B" "A").MembersReadable :=
    membersReadable_of_undamaged (by decide)
  have htype : (fieldsView "B" "A").fieldType "p.A" "f" = some "p.X" := by decide +kernel
  -- Now the far class has the lesser name.
  have hdecides : (fieldsView "B" "A").DecidesField (Java.erase "p.C") "f" "p.A" := by
    rw [show Java.erase "p.C" = "p.C" by decide]
    refine ⟨hbetween.above.trans hbetween.below, by decide +kernel, .inr ⟨by decide +kernel, ?_⟩⟩
    intro p hp _
    have hmem : p ∈ ["p.A", "p.B", "p.C"] := mem_of_inherits (by decide) hp
    simp only [List.mem_cons, List.not_mem_nil, or_false] at hmem
    rcases hmem with rfl | rfl | rfl
    · decide
    · decide
    · decide
  refine ⟨acyclic_of_rank (["p.A", "p.B", "p.C"].idxOf ·) (by decide), hreadable, hbetween,
    by decide, by decide +kernel, htype, ?_⟩
  rw [← htype]
  exact hdecides.stepType hreadable hmembers (by decide) cacheSound_nil

end IndexView

end JavaAtlas
