import JavaAtlas.Proofs.Java.WellFormed

namespace JavaAtlas.Java

/-! # The names of a file's own types

The types of a file are read twice: once for the names that can be used for them, and once more for
their declarations. Both readings meet the same types in the same order, so that what a name of the
file stands for is always declared there.

* `namedTypes`: the types of a file with their names, in the order in which both readings meet them;
* `knownTypes_eq`: the names that can be used, as entries made one type after the other;
* `extract_names`: the declarations, as those types;
* `lookup_foldl_enter`: what a name stands for after some types have been entered;
* `lookup_known`: what a name stands for in a file, told by its declarations;
* `RelativeName.qualname`: a full name is the relative one in the package;
* `known_names_declared`: what follows for the declarations and for the names that are resolved.
-/

/-- A type by the name in its declaration and by its name relative to the package. -/
structure NamedType where
  name : String
  relative : String

/-- The relative name of a type declared inside of the type with a relative name. -/
def relativeIn (outer : Option String) (name : String) : String :=
  match outer with
  | some o => o ++ "." ++ name
  | none => name

mutual

/-- A type with a name, and those nested in it. -/
def namedTypesOf (source : String) (outer : Option String) : Tree → List NamedType
  | .node info children =>
    match (Tree.node info children).field? "name" with
    | some name =>
      let relative := relativeIn outer (name.text source)
      ⟨name.text source, relative⟩ :: namedTypesOfBody source relative children
    | none => []

/-- The types in the body among the children of a type. -/
def namedTypesOfBody (source relative : String) : List Tree → List NamedType
  | [] => []
  | .node info children :: rest =>
    if info.field == some "body" then namedTypes source (some relative) children
    else namedTypesOfBody source relative rest

/-- The types that nodes side by side declare, and those nested in them. -/
def namedTypes (source : String) (outer : Option String) : List Tree → List NamedType
  | [] => []
  | .node info children :: rest =>
    let here :=
      if !info.named then []
      else if isTypeDeclaration info.kind then namedTypesOf source outer (.node info children)
      else if info.kind == "enum_body_declarations" then namedTypes source outer children
      else []
    here ++ namedTypes source outer rest

end

/-- The types of nodes side by side are those of the first, then those of the rest. -/
theorem namedTypes_cons (source : String) (outer : Option String) (t : Tree) (rest : List Tree) :
    namedTypes source outer (t :: rest) =
      (if !t.info.named then []
        else if isTypeDeclaration t.kind then namedTypesOf source outer t
        else if t.kind == "enum_body_declarations" then namedTypes source outer t.children
        else []) ++ namedTypes source outer rest := by
  cases t
  rw [namedTypes]
  rfl

/-! ## Full names -/

section Qualify

variable {package : String}

/-- What follows a name follows it in the package, too. -/
theorem qualify_append (package name rest : String) :
    qualify package (name ++ rest) = qualify package name ++ rest := by
  unfold qualify
  split
  · rfl
  · simp only [String.append_assoc]

/-- Two names in one package are the same only if they are. -/
theorem qualify_injective (package : String) : Function.Injective (qualify package) := by
  intro a b h
  unfold qualify at h
  split at h
  · exact h
  · exact (String.append_right_inj _).mp h

/-- A type around others, by its relative name. -/
def Outer.ofRelative (package relative : String) : Outer := ⟨qualify package relative, relative⟩

/-- A type in another one is named after it, in full and relative to the package. -/
theorem namesIn_ofRelative (package : String) (outer : Option String) (name : String) :
    namesIn package (outer.map (.ofRelative package)) name =
      .ofRelative package (relativeIn outer name) := by
  cases outer with
  | none => rfl
  | some o =>
    unfold Outer.ofRelative relativeIn
    dsimp only
    rw [qualify_append, qualify_append]
    rfl

end Qualify

/-! ## The names that can be used -/

/-- Adds a type of a package to those that are known. -/
def KnownTypes.enter (package : String) (known : KnownTypes) (t : NamedType) : KnownTypes :=
  known.add t.name t.relative (qualify package t.relative)

section Known

variable (source package : String)

mutual

/-- The names that can be used are those of the types, entered one after the other. -/
theorem knownTypes_eq (outer : Option String) : ∀ (ts : List Tree) (known : KnownTypes),
    knownTypes source package (outer.map (.ofRelative package)) ts known =
      (namedTypes source outer ts).foldl (KnownTypes.enter package) known
  | [], known => by
    rw [knownTypes, namedTypes, List.foldl_nil]
  | .node info children :: rest, known => by
    rw [knownTypes, namedTypes, List.foldl_append]
    dsimp only
    rw [knownTypes_eq outer rest]
    congr 1
    by_cases hnamed : (!info.named) = true
    · rw [if_pos hnamed, if_pos hnamed, List.foldl_nil]
    rw [if_neg hnamed, if_neg hnamed]
    -- one reading asks for lists first and the other one for types, but no node is both
    by_cases hlist : (info.kind == "enum_body_declarations") = true
    · have htype : ¬ isTypeDeclaration info.kind = true := by
        rw [beq_iff_eq.mp hlist]
        decide
      rw [if_pos hlist, if_neg htype, if_pos hlist]
      exact knownTypes_eq outer children known
    rw [if_neg hlist, if_neg hlist]
    by_cases htype : isTypeDeclaration info.kind = true
    · rw [if_pos htype, if_pos htype, namedTypesOf]
      cases (Tree.node info children).field? "name" with
      | none => rfl
      | some name =>
        dsimp only
        rw [namesIn_ofRelative]
        exact knownTypesOfBody_eq _ children _
    · rw [if_neg htype, if_neg htype, List.foldl_nil]

/-- The names of the types in a body are entered one after the other. -/
theorem knownTypesOfBody_eq (relative : String) : ∀ (ts : List Tree) (known : KnownTypes),
    knownTypesOfBody source package (.ofRelative package relative) ts known =
      (namedTypesOfBody source relative ts).foldl (KnownTypes.enter package) known
  | [], known => by
    rw [knownTypesOfBody, namedTypesOfBody, List.foldl_nil]
  | .node info children :: rest, known => by
    rw [knownTypesOfBody, namedTypesOfBody]
    split
    · exact knownTypes_eq (some relative) children known
    · exact knownTypesOfBody_eq relative rest known

end

end Known

/-- A type goes under its relative name, and under its simple name if that is free. -/
theorem lookup_enter (package : String) (known : KnownTypes) (t : NamedType) (key : String) :
    (known.enter package t).lookup key =
      if key = t.relative then some (qualify package key)
      else (known.lookup key).or
        (if key = t.name then some (qualify package t.relative) else none) := by
  unfold KnownTypes.enter KnownTypes.add
  rw [List.lookup_cons]
  by_cases hrelative : key = t.relative
  · simp [hrelative]
  rw [if_neg hrelative, beq_false_of_ne hrelative]
  dsimp only
  by_cases hname : key = t.name
  · -- the simple name is taken only where it is free
    subst hname
    cases hlookup : known.lookup t.name <;> simp [hlookup]
  · rw [if_neg hname, Option.or_none]
    split
    · rfl
    · rw [List.lookup_cons, beq_false_of_ne hname]

/-- After types have been entered, a name stands for the one with that relative name if there is
one, else for what it stood for before, and else for the first one that is called so. -/
theorem lookup_foldl_enter (package : String) (types : List NamedType) (known : KnownTypes)
    (key : String) :
    (types.foldl (KnownTypes.enter package) known).lookup key =
      if key ∈ types.map (·.relative) then some (qualify package key)
      else (known.lookup key).or
        ((types.find? (·.name == key)).map fun t => qualify package t.relative) := by
  induction types generalizing known with
  | nil => simp
  | cons t rest ih =>
    rw [List.foldl_cons, ih, lookup_enter, List.map_cons, List.find?_cons]
    -- whatever comes later under the relative name replaces what is there
    by_cases hlater : key ∈ rest.map (·.relative)
    · rw [if_pos hlater, if_pos (List.mem_cons_of_mem _ hlater)]
    by_cases hhere : key = t.relative
    · rw [if_neg hlater, if_pos hhere, if_pos (hhere ▸ List.mem_cons_self), Option.some_or]
    have hnone : key ∉ t.relative :: rest.map (·.relative) := by
      rw [List.mem_cons, not_or]
      exact ⟨hhere, hlater⟩
    rw [if_neg hlater, if_neg hhere, if_neg hnone, Option.or_assoc]
    by_cases hname : key = t.name
    · rw [if_pos hname, Option.some_or, beq_iff_eq.mpr hname.symm]
      rfl
    · rw [if_neg hname, Option.none_or, beq_false_of_ne (Ne.symm hname)]

/-! ## They are the ones that are declared -/

/-- The simple and the full name of a declaration. -/
def declaredNames (d : FileDeclaration) : String × String := (d.name, d.qualname)

/-- The simple and the full name of a type in a package. -/
def NamedType.names (package : String) (t : NamedType) : String × String :=
  (t.name, qualify package t.relative)

namespace Env

/-- The full name of a type is its relative name in the package. -/
theorem qualnameOf_eq {env : Env} {outer : Option String}
    (houter : env.typeName? = outer.map (qualify env.file.package)) (name : String) :
    env.qualnameOf name = qualify env.file.package (relativeIn outer name) := by
  unfold qualnameOf owner? relativeIn
  unfold typeName? at houter
  cases outer with
  | none =>
    have htypes : env.types.head? = none := Option.map_eq_none_iff.mp houter
    rw [htypes]
  | some o =>
    obtain ⟨scope, htypes, hname⟩ := Option.map_eq_some_iff.mp houter
    rw [htypes]
    dsimp only
    rw [hname, qualify_append, qualify_append]

mutual

/-- A type and those in it are declared under the names that are read for them. -/
theorem typeSymbols_names (env : Env) (outer : Option String)
    (houter : env.typeName? = outer.map (qualify env.file.package)) (index : Nat) : ∀ t : Tree,
    (env.typeSymbols index t).declarations.map declaredNames =
      (namedTypesOf env.source outer t).map (NamedType.names env.file.package)
  | .node info children => by
    unfold typeSymbols namedTypesOf
    cases hname : (Tree.node info children).field? "name" with
    | none =>
      simp only [hname]
      rfl
    | some name =>
      simp only [hname]
      have hqualname := qualnameOf_eq houter (name.text env.source)
      -- in its body the type is the one around
      have hbody := bodySymbols_names
        (env.openType (.node info children) (name.text env.source)).2
        (relativeIn outer (name.text env.source)) (congrArg some hqualname) index
        ((Tree.node info children).field? "parameters") children
      rw [Found.declarations_append, List.map_append, hbody, List.map_cons]
      exact congrArg (· :: _) (congrArg (Prod.mk _) hqualname)

/-- The types in a body are declared under the names that are read for them. -/
theorem bodySymbols_names (env : Env) (relative : String)
    (houter : env.typeName? = some (qualify env.file.package relative))
    (index : Nat) (components : Option Tree) : ∀ ts : List Tree,
    (env.bodySymbols index components ts).declarations.map declaredNames =
      (namedTypesOfBody env.source relative ts).map (NamedType.names env.file.package)
  | [] => by
    unfold bodySymbols namedTypesOfBody
    rfl
  | .node info children :: rest => by
    unfold bodySymbols namedTypesOfBody
    split
    · exact memberSymbols_names env (some relative) houter index components (index + 1) children
    · exact bodySymbols_names env relative houter index components rest

/-- The types among the nodes of a body are declared under the names that are read for them. -/
theorem memberSymbols_names (env : Env) (outer : Option String)
    (houter : env.typeName? = outer.map (qualify env.file.package)) (index : Nat)
    (components : Option Tree) (next : Nat) : ∀ ts : List Tree,
    (env.memberSymbols index components next ts).declarations.map declaredNames =
      (namedTypes env.source outer ts).map (NamedType.names env.file.package)
  | [] => by
    unfold memberSymbols namedTypes
    rfl
  | .node info children :: rest => by
    unfold memberSymbols namedTypes
    rw [Found.declarations_append, List.map_append, List.map_append,
      memberSymbols_names env outer houter index components _ rest]
    congr 1
    split
    · rfl
    split
    · exact typeSymbols_names env outer houter next (.node info children)
    split
    · exact memberSymbols_names env outer houter index none next children
    -- anything else declares no type
    · rw [(env.memberOf_onlyMembers index components _).noTypes]
      rfl

end

/-- The types of a file are declared under the names that are read for them. -/
theorem topSymbols_names (env : Env) (htypes : env.types = []) (next : Nat) {ts : List Tree}
    (hlists : ∀ t ∈ ts, t.info.named → t.kind ≠ "enum_body_declarations") :
    (env.topSymbols next ts).declarations.map declaredNames =
      (namedTypes env.source none ts).map (NamedType.names env.file.package) := by
  have houter : env.typeName? = (none : Option String).map (qualify env.file.package) := by
    unfold typeName?
    rw [htypes]
    rfl
  induction ts generalizing next with
  | nil =>
    unfold topSymbols namedTypes
    rfl
  | cons t rest ih =>
    have hlist := hlists t List.mem_cons_self
    unfold topSymbols
    rw [namedTypes_cons, Found.declarations_append, List.map_append, List.map_append,
      ih _ fun t ht => hlists t (List.mem_cons_of_mem _ ht)]
    congr 1
    by_cases hnamed : t.info.named = true
    · have hkind : ¬ (t.kind == "enum_body_declarations") = true := by
        rw [beq_iff_eq]
        exact hlist hnamed
      rw [hnamed, if_neg hkind, Bool.true_and]
      by_cases htype : isTypeDeclaration t.kind = true
      · rw [if_pos htype, if_pos htype]
        exact typeSymbols_names env none houter next t
      · rw [if_neg htype, if_neg htype]
        rfl
    · rw [eq_false_of_ne_true hnamed]
      rfl

end Env

/-! ## In a file -/

section File

variable {source : String} {root : Tree}

/-- There is no list of inner declarations beside the types of a file. So it is wherever such lists
stand only in the bodies of types. -/
def NoTopLists (root : Tree) : Prop :=
  ∀ t ∈ root.children, t.info.named → t.kind ≠ "enum_body_declarations"

/-- The declarations of a file are the types that are read, with their names and in their order. -/
theorem extract_names (source : String) (hlists : NoTopLists root) :
    (extract source root).declarations.map declaredNames =
      (namedTypes source none root.children).map (NamedType.names (packageOf source root)) :=
  Env.topSymbols_names { file := FileNames.ofTree source root } rfl 0 hlists

/-- A name of a file stands for the declaration that is called so in its package if there is one,
and else for the first declaration of the file with that simple name. -/
theorem lookup_known (source : String) (hlists : NoTopLists root) (key : String) :
    (FileNames.ofTree source root).known.lookup key =
      if qualify (extract source root).package key ∈
          (extract source root).declarations.map (·.qualname) then
        some (qualify (extract source root).package key)
      else ((extract source root).declarations.find? (·.name == key)).map (·.qualname) := by
  have hnames := extract_names source hlists
  have hknown : (FileNames.ofTree source root).known =
      (namedTypes source none root.children).foldl (KnownTypes.enter (packageOf source root)) [] :=
    knownTypes_eq source (packageOf source root) none root.children []
  have hpackage : (extract source root).package = packageOf source root := rfl
  have hqualnames : (extract source root).declarations.map (·.qualname) =
      ((namedTypes source none root.children).map (·.relative)).map
        (qualify (packageOf source root)) := by
    have h := congrArg (List.map Prod.snd) hnames
    rw [List.map_map, List.map_map] at h
    rw [List.map_map]
    exact h
  have hfirst : ((extract source root).declarations.find? (·.name == key)).map (·.qualname) =
      ((namedTypes source none root.children).find? (·.name == key)).map
        fun t => qualify (packageOf source root) t.relative := by
    have h := congrArg (fun names => (names.find? (·.1 == key)).map Prod.snd) hnames
    rw [List.find?_map, List.find?_map, Option.map_map, Option.map_map] at h
    exact h
  rw [hknown, lookup_foldl_enter, hpackage, hqualnames, hfirst]
  exact if_congr (List.mem_map_of_injective (qualify_injective _)).symm rfl rfl

/-- The name of a declaration relative to the package: its own after those of the types around it,
with dots between them. -/
inductive RelativeName (ds : List FileDeclaration) : FileDeclaration → String → Prop
  | top {d : FileDeclaration} : d.outer = none → RelativeName ds d d.name
  | nested {d o : FileDeclaration} {relative : String} : o ∈ ds → d.outer = some o.qualname →
      RelativeName ds o relative → RelativeName ds d (relative ++ "." ++ d.name)

/-- A declaration is named after the package, or after one of those before it. -/
theorem extract_named {i : Nat} {d : FileDeclaration}
    (hd : (extract source root).declarations[i]? = some d) :
    (d.outer = none ∧ d.qualname = qualify (extract source root).package d.name) ∨
      ∃ j o, j < i ∧ (extract source root).declarations[j]? = some o ∧
        d.outer = some o.qualname ∧ d.qualname = o.qualname ++ "." ++ d.name := by
  have hsymbols := Walker.walked_symbols source root
  obtain ⟨x, hx, rfl⟩ := Walker.declaration_symbols_iff.mp (hsymbols ▸ hd)
  have hnamed := (Walker.walked_sound source root).named i x hx
  rw [(Walker.walked_went source root).file] at hnamed
  unfold NamedAfter at hnamed
  cases houter : x.1.outer with
  | none =>
    rw [houter] at hnamed
    exact .inl ⟨rfl, hnamed⟩
  | some o =>
    rw [houter] at hnamed
    obtain ⟨y, hy, rfl, hqualname, -⟩ := hnamed
    obtain ⟨j, hj⟩ := List.getElem?_of_mem hy
    have hlt : j < i := by
      have hlength := (List.getElem?_eq_some_iff.mp hj).1
      rw [List.length_take] at hlength
      omega
    rw [List.getElem?_take_of_lt hlt] at hj
    refine .inr ⟨j, y.1, hlt, ?_, rfl, hqualname⟩
    rw [← hsymbols]
    simp [Walker.symbols, hj]

/-- Every declaration has a relative name. -/
theorem exists_relativeName {d : FileDeclaration}
    (hd : d ∈ (extract source root).declarations) :
    ∃ relative, RelativeName (extract source root).declarations d relative := by
  obtain ⟨i, hi⟩ := List.getElem?_of_mem hd
  clear hd
  -- the type around is one of those before
  induction i using Nat.strong_induction_on generalizing d with
  | h i ih =>
    rcases extract_named hi with ⟨houter, -⟩ | ⟨j, o, hlt, hj, houter, -⟩
    · exact ⟨_, .top houter⟩
    · obtain ⟨relative, hrelative⟩ := ih j hlt hj
      exact ⟨_, .nested (List.mem_of_getElem? hj) houter hrelative⟩

/-- The full name of a declaration is its relative name in the package. -/
theorem RelativeName.qualname {d : FileDeclaration} {relative : String}
    (h : RelativeName (extract source root).declarations d relative)
    (hd : d ∈ (extract source root).declarations) :
    d.qualname = qualify (extract source root).package relative := by
  induction h with
  | @top d hnone =>
    obtain ⟨i, hi⟩ := List.getElem?_of_mem hd
    rcases extract_named hi with ⟨-, hqualname⟩ | ⟨_, _, -, -, houter, -⟩
    · exact hqualname
    · rw [hnone] at houter
      cases houter
  | @nested d o relative ho hsome _ ih =>
    -- another one with the same full name would do as well for the type around
    obtain ⟨i, hi⟩ := List.getElem?_of_mem hd
    rcases extract_named hi with ⟨houter, -⟩ | ⟨_, o', -, -, houter, hqualname⟩
    · rw [hsome] at houter
      cases houter
    · rw [hsome, Option.some.injEq] at houter
      rw [hqualname, ← houter, ih ho, qualify_append, qualify_append]

/-- A declaration is known under its relative name. -/
theorem lookup_relativeName (hlists : NoTopLists root) {d : FileDeclaration} {relative : String}
    (hd : d ∈ (extract source root).declarations)
    (h : RelativeName (extract source root).declarations d relative) :
    (FileNames.ofTree source root).known.lookup relative = some d.qualname := by
  have hmem : qualify (extract source root).package relative ∈
      (extract source root).declarations.map (·.qualname) :=
    List.mem_map.mpr ⟨d, hd, h.qualname hd⟩
  rw [lookup_known source hlists, if_pos hmem, h.qualname hd]

/-- What a name stands for is a declaration with that relative or that simple name. -/
theorem exists_declaration_of_lookup (hlists : NoTopLists root) {key qualname : String}
    (h : (FileNames.ofTree source root).known.lookup key = some qualname) :
    ∃ d ∈ (extract source root).declarations, d.qualname = qualname ∧
      (RelativeName (extract source root).declarations d key ∨ d.name = key) := by
  rw [lookup_known source hlists] at h
  split at h
  · next hmem =>
    obtain ⟨d, hd, hqualname⟩ := List.mem_map.mp hmem
    obtain ⟨relative, hrelative⟩ := exists_relativeName hd
    -- no two names are the same in the package
    have hkey : relative = key := by
      apply qualify_injective (extract source root).package
      rw [← hrelative.qualname hd, hqualname]
    exact ⟨d, hd, hqualname.trans (Option.some.inj h), .inl (hkey ▸ hrelative)⟩
  · obtain ⟨d, hfind, hqualname⟩ := Option.map_eq_some_iff.mp h
    exact ⟨d, List.mem_of_find?_eq_some hfind, hqualname,
      .inr (beq_iff_eq.mp (List.find?_some hfind :))⟩

end File

/-! ## Names that are resolved -/

/-- In a part without dots every character is something else. -/
theorem ne_dot_of_dotless {part : List Char} (hdotless : '.' ∉ part) :
    ∀ c ∈ part, (c != '.') = true :=
  fun _ hc => bne_iff_ne.mpr fun h => hdotless (h ▸ hc)

/-- A part without dots is passed over in search of one. -/
theorem dropWhile_dotless {part : List Char} (hdotless : '.' ∉ part) (rest : List Char) :
    (part ++ rest).dropWhile (· != '.') = rest.dropWhile (· != '.') :=
  List.dropWhile_append_of_pos (ne_dot_of_dotless hdotless)

namespace Env

variable {env : Env} {name qualname : String}

/-- A known name that is no type parameter stands for what is known. -/
theorem resolveSimple_of_known (hknown : env.file.known.lookup name = some qualname)
    (hparam : env.isTypeParam name = false) : env.resolveSimple name = some qualname := by
  unfold resolveSimple
  rw [hparam, hknown]
  rfl

/-- A name without dots is resolved as a simple one. -/
theorem resolveDotted_of_dotless (hdotless : '.' ∉ name.toList) :
    env.resolveDotted name = env.resolveSimple name := by
  have hrest := dropWhile_dotless hdotless []
  rw [List.append_nil] at hrest
  unfold resolveDotted
  dsimp only
  rw [hrest]
  rfl

/-- A known dotted name stands for what is known. -/
theorem resolveDotted_of_known (hdotted : '.' ∈ name.toList)
    (hknown : env.file.known.lookup name = some qualname) :
    env.resolveDotted name = some qualname := by
  obtain ⟨first, rest, htext, hdotless⟩ := List.eq_append_cons_of_mem hdotted
  unfold resolveDotted
  dsimp only
  rw [htext, dropWhile_dotless hdotless, if_neg (by simp), hknown]

/-- What a dotted name that is not one of the file stands for, if it begins with a type. -/
theorem resolveDotted_append {rest : String} (hdotless : '.' ∉ name.toList)
    (htype : startsUppercase name = true)
    (hunknown : env.file.known.lookup (name ++ "." ++ rest) = none) :
    env.resolveDotted (name ++ "." ++ rest) = (env.resolveSimple name).map (· ++ "." ++ rest) := by
  have htext : (name ++ "." ++ rest).toList = name.toList ++ '.' :: rest.toList := by
    simp
  have hfirst : (name ++ "." ++ rest).toList.takeWhile (· != '.') = name.toList := by
    rw [htext, List.takeWhile_append_of_pos (ne_dot_of_dotless hdotless)]
    simp
  have hrest : (name ++ "." ++ rest).toList.dropWhile (· != '.') = '.' :: rest.toList := by
    rw [htext, dropWhile_dotless hdotless]
    simp
  have hbehind (q : String) : q ++ String.ofList ('.' :: rest.toList) = q ++ "." ++ rest := by
    apply String.toList_injective
    simp
  unfold resolveDotted
  dsimp only
  rw [hrest, hfirst, if_neg (by simp), hunknown, String.ofList_toList]
  dsimp only
  rw [if_pos htype]
  simp only [hbehind]

end Env

/-- The names of a file stand for its own declarations, for every tree in which lists of inner
declarations stand only inside of types.

Every declaration is known under its name relative to the package, which is its full name without
the package. Whatever a name of the file stands for is the full name of a declaration with that
relative name or with that simple name. So a name that is resolved by the names of the file, be it
in whole or in its first part, names a declaration; and when the file is stored, that declaration is
in the index. -/
theorem known_names_declared (source : String) {root : Tree} (hlists : NoTopLists root) :
    let known := (FileNames.ofTree source root).known
    let symbols := extract source root
    (∀ d ∈ symbols.declarations, ∃ relative, RelativeName symbols.declarations d relative ∧
      d.qualname = qualify symbols.package relative ∧
      known.lookup relative = some d.qualname) ∧
    (∀ name qualname, known.lookup name = some qualname →
      ∃ d ∈ symbols.declarations, d.qualname = qualname ∧
        (RelativeName symbols.declarations d name ∨ d.name = name)) ∧
    (∀ env : Env, env.file = FileNames.ofTree source root →
      ∀ name qualname, known.lookup name = some qualname →
        (env.isTypeParam name = false → env.resolveSimple name = some qualname) ∧
        ('.' ∈ name.toList ∨ env.isTypeParam name = false →
          env.resolveDotted name = some qualname) ∧
        ('.' ∉ name.toList → startsUppercase name → env.isTypeParam name = false →
          ∀ rest, known.lookup (name ++ "." ++ rest) = none →
            env.resolveDotted (name ++ "." ++ rest) = some (qualname ++ "." ++ rest))) ∧
    ∀ ix : Index, ix.Sound → ∀ file : FileInput,
      ∃ ix', ix.replaceFile file symbols = .ok (ix', Index.countsOf symbols) ∧
        ∀ v : IndexView, v.index = ix' → ∀ name qualname, known.lookup name = some qualname →
          ∃ row ∈ v.declarationRows, row.2.path = file.path ∧
            row.1.symbol ∈ symbols.declarations ∧ row.1.symbol.qualname = qualname := by
  dsimp only
  refine ⟨?_, fun name qualname => exists_declaration_of_lookup hlists, ?_, ?_⟩
  · intro d hd
    obtain ⟨relative, hrelative⟩ := exists_relativeName hd
    exact ⟨relative, hrelative, hrelative.qualname hd, lookup_relativeName hlists hd hrelative⟩
  · intro env hfile name qualname hknown
    rw [← hfile] at hknown
    refine ⟨Env.resolveSimple_of_known hknown, ?_, ?_⟩
    · intro h
      by_cases hdotted : '.' ∈ name.toList
      · exact Env.resolveDotted_of_known hdotted hknown
      · rw [Env.resolveDotted_of_dotless hdotted]
        exact Env.resolveSimple_of_known hknown (h.resolve_left hdotted)
    · intro hdotless htype hparam rest hunknown
      rw [← hfile] at hunknown
      rw [Env.resolveDotted_append hdotless htype hunknown,
        Env.resolveSimple_of_known hknown hparam]
      rfl
  · intro ix hix file
    -- the file can be stored, and what is stored is shown
    obtain ⟨ix', hstored, hshows⟩ :=
      hix.exists_shows file (extract_members_owned source root)
    refine ⟨ix', hstored, ?_⟩
    intro v hv name qualname hknown
    obtain ⟨d, hd, hqualname, -⟩ := exists_declaration_of_lookup hlists hknown
    obtain ⟨row, hrow, hpath, rfl⟩ := (hshows v hv).exists_declaration d hd
    exact ⟨row, hrow, hpath, hd, hqualname⟩

/-! An enum with a class in it, and a record with the same simple name as the class. -/

/-- The text of the two. -/
def ownTypesSource : String := "package p;enum E{X;class C{}}record C(){}"

/-- Their tree, less the tokens that are not named. -/
def ownTypesTree : Tree :=
  namedNode "program" 0 41 none
    [namedNode "package_declaration" 0 10 none [namedNode "identifier" 8 9],
      namedNode "enum_declaration" 10 29 none
        [namedNode "identifier" 15 16 (some "name"),
          namedNode "enum_body" 16 29 (some "body")
            [namedNode "enum_constant" 17 18 none [namedNode "identifier" 17 18 (some "name")],
              namedNode "enum_body_declarations" 18 28 none
                [namedNode "class_declaration" 19 28 none
                  [namedNode "identifier" 25 26 (some "name"),
                    namedNode "class_body" 26 28 (some "body")]]]],
      namedNode "record_declaration" 29 41 none
        [namedNode "identifier" 36 37 (some "name"),
          namedNode "formal_parameters" 37 39 (some "parameters"),
          namedNode "class_body" 39 41 (some "body")]]

/-- The shared name stands for the record, since that is its relative name; the class in the enum is
known by its own. -/
theorem known_names_declared_shared :
    NoTopLists ownTypesTree ∧
    (extract ownTypesSource ownTypesTree).declarations.map (·.qualname) =
      ["p.E", "p.E.C", "p.C"] ∧
    (FileNames.ofTree ownTypesSource ownTypesTree).known.lookup "E.C" = some "p.E.C" ∧
    (FileNames.ofTree ownTypesSource ownTypesTree).known.lookup "C" = some "p.C" ∧
    Env.resolveDotted { file := FileNames.ofTree ownTypesSource ownTypesTree } "C.D" =
      some "p.C.D" ∧
    ∃ ix', Index.replaceFile {} nestedFile (extract ownTypesSource ownTypesTree) =
        .ok (ix', Index.countsOf (extract ownTypesSource ownTypesTree)) ∧
      ∀ v : IndexView, v.index = ix' →
        ∃ row ∈ v.declarationRows, row.1.symbol.qualname = "p.E.C" := by
  have hlists : NoTopLists ownTypesTree := by
    unfold NoTopLists
    decide +kernel
  have hnested : (FileNames.ofTree ownTypesSource ownTypesTree).known.lookup "E.C" =
      some "p.E.C" := by
    decide +kernel
  have hrecord : (FileNames.ofTree ownTypesSource ownTypesTree).known.lookup "C" =
      some "p.C" := by
    decide +kernel
  obtain ⟨-, -, hresolved, hindexed⟩ := known_names_declared ownTypesSource hlists
  obtain ⟨-, -, hheaded⟩ := hresolved { file := FileNames.ofTree ownTypesSource ownTypesTree } rfl
    "C" "p.C" hrecord
  have hempty : Index.Sound {} := by constructor <;> simp
  obtain ⟨ix', hstored, hrows⟩ := hindexed {} hempty nestedFile
  refine ⟨hlists, by decide +kernel, hnested, hrecord, ?_, ix', hstored, ?_⟩
  · exact hheaded (by decide +kernel) (by decide +kernel) (by decide +kernel) "D"
      (by decide +kernel)
  · intro v hv
    obtain ⟨row, hrow, -, -, hqualname⟩ := hrows v hv "E.C" "p.E.C" hnested
    exact ⟨row, hrow, hqualname⟩

end JavaAtlas.Java
