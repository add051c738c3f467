import JavaAtlas.Proofs.Path

namespace JavaAtlas.Path

/-! # Stored paths

A file is stored under the normal form of its path: the whole path below a library root, what
follows the project root elsewhere. Read from the project root, a stored path is the file's again.

* `components_normalize`, `components_join_normalizeComponents`: what is written is read again;
* `locate_cases`: the three places a path can be in, and what it is stored as in each;
* `stored_path_leads_back`: which paths are stored, where a stored path leads to, and what it tells
  of the file's origin.
-/

/-- `path` is `root` or lies below it, component by component. -/
def LiesUnder (root path : String) : Prop := components root <+: components path

instance (root path : String) : Decidable (LiesUnder root path) :=
  inferInstanceAs (Decidable (_ <+: _))

/-- A path lies under another exactly if something follows it there, be it nothing. -/
theorem liesUnder_iff {root path : String} :
    LiesUnder root path ↔ ∃ names, below? root path = some names := by
  unfold LiesUnder
  constructor
  · rintro ⟨names, hnames⟩
    exact ⟨names, below?_eq_some_iff.mpr hnames.symm⟩
  · rintro ⟨names, hnames⟩
    exact ⟨names, (below?_eq_some_iff.mp hnames).symm⟩

/-- The test of the program is this relation. -/
theorem startsWith_iff {root path : String} : startsWith path root = true ↔ LiesUnder root path := by
  rw [liesUnder_iff]
  exact Option.isSome_iff_exists

/-! ## What is written is read again -/

/-- The normal form of an absolute path is absolute. -/
theorem isAbsolute_normalize {path : String} (h : isAbsolute path = true) :
    isAbsolute (normalize path) = true := by
  obtain ⟨cs, hcs, hinner⟩ := components_inner_of_isAbsolute h
  unfold normalize
  rw [hcs]
  exact isAbsolute_normalizeComponents_root hinner

/-- The normal form of an absolute path has the components of the path. -/
theorem components_normalize {path : String} (h : isAbsolute path = true) :
    components (normalize path) = components path := by
  obtain ⟨cs, hcs, hinner⟩ := components_inner_of_isAbsolute h
  -- behind the root, the names are read again from the joined text
  have hread : (segments (normalize path)).filterMap ofSegment? = cs := by
    unfold normalize
    rw [hcs, normalizeComponents_root hinner, segments_slash_append, List.filterMap_cons_none rfl,
      filterMap_segments_intercalate hinner]
  rw [components_of_isAbsolute (isAbsolute_normalize h), hread, hcs]

/-- The normal form of what follows an absolute path, read from there. -/
theorem components_join_normalizeComponents {base : String} (hbase : isAbsolute base = true)
    {cs : List Component} (hcs : ∀ c ∈ cs, c.Inner) :
    components (join base (normalizeComponents cs)) = components base ++ cs := by
  rw [components_of_isAbsolute (isAbsolute_join hbase), components_of_isAbsolute hbase,
    filterMap_segments_join (isAbsolute_normalizeComponents hcs) (ne_empty_of_isAbsolute hbase),
    filterMap_segments_normalizeComponents hcs, List.cons_append]

/-- What follows one absolute path in another has neither roots nor single dots. -/
theorem inner_of_below? {root path : String} {names : List Component}
    (hroot : isAbsolute root = true) (hpath : isAbsolute path = true)
    (hnames : below? root path = some names) : ∀ c ∈ names, c.Inner := by
  have happend : components path = components root ++ names := below?_eq_some_iff.mp hnames
  obtain ⟨lead, hlead, -⟩ := components_inner_of_isAbsolute hroot
  obtain ⟨cs, hcs, hinner⟩ := components_inner_of_isAbsolute hpath
  rw [hcs, hlead, List.cons_append, List.cons_inj_right] at happend
  intro c hc
  apply hinner
  rw [happend]
  exact List.mem_append_right lead hc

/-! ## Where a path is stored -/

section Stored

variable {root : String} {libraries : List String}

/-- Where a path is stored depends on its components only. -/
theorem locate_congr {path other : String} (h : components path = components other) :
    locate root libraries path = locate root libraries other := by
  have hbelow : ∀ base, below? base path = below? base other := by
    intro base
    rw [below?, below?, h]
  have hstarts : startsWith path = startsWith other := by
    funext base
    rw [startsWith, startsWith, hbelow]
  have hnormalize : normalize path = normalize other := by rw [normalize, normalize, h]
  unfold locate relative
  rw [hstarts, hnormalize, hbelow]
  cases below? root other with
  | none => rfl
  | some names => rfl

/-- Whether a path is that of a source file depends on its components only. -/
theorem isSource_congr {path other : String} (h : components path = components other) :
    isSource path = isSource other := by
  rw [isSource, isSource, extension?, extension?, lastName?, lastName?, h]

/-- What lies below an absolute path is absolute. -/
theorem LiesUnder.isAbsolute {base path : String} (h : LiesUnder base path)
    (hbase : isAbsolute base = true) : isAbsolute path = true := by
  by_contra hrelative
  have hroot : Component.root ∈ components path := by
    apply h.subset
    rw [components_of_isAbsolute hbase]
    exact List.mem_cons_self
  -- only the lead of a path may be a root, and only that of an absolute one is
  rw [components_eq, if_neg hrelative, List.mem_append] at hroot
  rcases hroot with hlead | hinner
  · split at hlead <;> simp at hlead
  · exact inner_of_mem_filterMap hinner

/-- A path is below a library, below the project root only, or below neither. -/
theorem locate_cases (root : String) (libraries : List String) (path : String) :
    ((∃ library ∈ libraries, LiesUnder library path) ∧
      locate root libraries path = some (normalize path, .library)) ∨
    ((¬∃ library ∈ libraries, LiesUnder library path) ∧
      ∃ names, below? root path = some names ∧
        locate root libraries path = some (normalizeComponents names, .project)) ∨
    ((¬∃ library ∈ libraries, LiesUnder library path) ∧ ¬LiesUnder root path ∧
      locate root libraries path = none) := by
  have hany : libraries.any (startsWith path) = true ↔
      ∃ library ∈ libraries, LiesUnder library path := by
    rw [List.any_eq_true]
    simp only [startsWith_iff]
  unfold locate
  -- library roots are asked first, also inside the project
  by_cases hlib : ∃ library ∈ libraries, LiesUnder library path
  · rw [if_pos (hany.mpr hlib)]
    exact .inl ⟨hlib, rfl⟩
  · rw [if_neg (mt hany.mp hlib)]
    unfold relative
    cases hbelow : below? root path with
    | some names => exact .inr (.inl ⟨hlib, names, rfl, rfl⟩)
    | none =>
      have hout : ¬LiesUnder root path := by
        rw [liesUnder_iff, hbelow]
        simp
      exact .inr (.inr ⟨hlib, hout, rfl⟩)

/-- What a path is stored as, and what its origin tells of it. -/
theorem cases_of_locate {path stored : String} {origin : Origin}
    (h : locate root libraries path = some (stored, origin)) :
    ((∃ library ∈ libraries, LiesUnder library path) ∧ origin = .library ∧
      stored = normalize path) ∨
    ((¬∃ library ∈ libraries, LiesUnder library path) ∧ origin = .project ∧
      ∃ names, below? root path = some names ∧ stored = normalizeComponents names) := by
  rcases locate_cases root libraries path with ⟨hlib, hstored⟩ | ⟨hlib, names, hnames, hstored⟩ |
    ⟨-, -, hnone⟩
  · rw [hstored] at h
    cases h
    exact .inl ⟨hlib, rfl, rfl⟩
  · rw [hstored] at h
    cases h
    exact .inr ⟨hlib, rfl, names, hnames, rfl⟩
  · rw [hnone] at h
    cases h

/-- Below absolute roots, only absolute paths are stored. -/
theorem isAbsolute_of_locate (hroot : isAbsolute root = true)
    (hlibraries : ∀ library ∈ libraries, isAbsolute library = true) {path : String}
    {place : String × Origin} (h : locate root libraries path = some place) :
    isAbsolute path = true := by
  rcases cases_of_locate h with ⟨⟨library, hlibrary, hunder⟩, -⟩ | ⟨-, -, names, hnames, -⟩
  · exact hunder.isAbsolute (hlibraries library hlibrary)
  · exact (liesUnder_iff.mpr ⟨names, hnames⟩).isAbsolute hroot

/-- A stored path leads back to the file from the project root. -/
theorem components_join_of_locate (hroot : isAbsolute root = true) {path stored : String}
    {origin : Origin} (hpath : isAbsolute path = true)
    (h : locate root libraries path = some (stored, origin)) :
    components (join root stored) = components path := by
  rcases cases_of_locate h with ⟨-, -, rfl⟩ | ⟨-, -, names, hnames, rfl⟩
  · rw [join_of_isAbsolute (isAbsolute_normalize hpath), components_normalize hpath]
  · rw [components_join_normalizeComponents hroot (inner_of_below? hroot hpath hnames),
      below?_eq_some_iff.mp hnames]

/-- Absolute paths that are stored alike are the same file. -/
theorem components_eq_of_stored_alike (hroot : isAbsolute root = true) {path other stored : String}
    {origin origin' : Origin} (hpath : isAbsolute path = true) (hother : isAbsolute other = true)
    (h : locate root libraries path = some (stored, origin))
    (h' : locate root libraries other = some (stored, origin')) :
    components path = components other := by
  rw [← components_join_of_locate hroot hpath h, components_join_of_locate hroot hother h']

/-- Every absolute path below a root is stored, under a path that leads back to it from the
project root and is absolute just below library roots; no other path is stored, and different
paths are never stored alike. Library roots may hold each other and lie inside the project. -/
theorem stored_path_leads_back (hroot : isAbsolute root = true) {path : String}
    (hpath : isAbsolute path = true) :
    (locate root libraries path = none ↔ ∀ base ∈ root :: libraries, ¬LiesUnder base path) ∧
      ∀ stored origin, locate root libraries path = some (stored, origin) →
        components (join root stored) = components path ∧
        (origin = .library ↔ ∃ library ∈ libraries, LiesUnder library path) ∧
        (isAbsolute stored = true ↔ origin = .library) ∧
        ∀ other origin', isAbsolute other = true →
          locate root libraries other = some (stored, origin') →
          components other = components path := by
  have hunder : (∀ base ∈ root :: libraries, ¬LiesUnder base path) ↔
      ¬LiesUnder root path ∧ ¬∃ library ∈ libraries, LiesUnder library path := by
    simp
  rw [hunder]
  constructor
  · rcases locate_cases root libraries path with ⟨hlib, hstored⟩ | ⟨-, names, hnames, hstored⟩ |
      ⟨hlib, hout, hnone⟩
    · simp [hstored, hlib]
    · have hin : LiesUnder root path := liesUnder_iff.mpr ⟨names, hnames⟩
      simp [hstored, hin]
    · simp only [hnone, hlib, hout, not_false_eq_true, and_self]
  · intro stored origin h
    refine ⟨components_join_of_locate hroot hpath h, ?_, ?_, ?_⟩
    · rcases cases_of_locate h with ⟨hlib, rfl, -⟩ | ⟨hlib, rfl, -⟩
      · exact iff_of_true rfl hlib
      · exact iff_of_false nofun hlib
    · -- below a library the whole path is stored
      rcases cases_of_locate h with ⟨-, rfl, rfl⟩ | ⟨-, rfl, names, hnames, rfl⟩
      · exact iff_of_true (isAbsolute_normalize hpath) rfl
      · -- nothing that follows the project root is absolute on its own
        have hrelative : isAbsolute (normalizeComponents names) = false :=
          isAbsolute_normalizeComponents (inner_of_below? hroot hpath hnames)
        simp [hrelative]
    · intro other origin' hother h'
      exact components_eq_of_stored_alike hroot hother hpath h' h

end Stored

/-- Libraries inside the project, one of them inside the other. -/
theorem stored_path_leads_back_nested :
    (locate "/w/proj" ["/w/proj/lib", "/w/proj/lib/x"] "/w//proj/src/A.java" =
        some ("src/A.java", .project) ∧
      components (join "/w/proj" "src/A.java") = components "/w//proj/src/A.java") ∧
    (locate "/w/proj" ["/w/proj/lib", "/w/proj/lib/x"] "/w/proj/lib/x/./B.java" =
        some ("/w/proj/lib/x/B.java", .library) ∧
      components (join "/w/proj" "/w/proj/lib/x/B.java") = components "/w/proj/lib/x/./B.java") := by
  have hroot : isAbsolute "/w/proj" = true := by decide +kernel
  have hsource : isAbsolute "/w//proj/src/A.java" = true := by decide +kernel
  have hnested : isAbsolute "/w/proj/lib/x/./B.java" = true := by decide +kernel
  have hproject : locate "/w/proj" ["/w/proj/lib", "/w/proj/lib/x"] "/w//proj/src/A.java" =
      some ("src/A.java", .project) := by decide +kernel
  have hlibrary : locate "/w/proj" ["/w/proj/lib", "/w/proj/lib/x"] "/w/proj/lib/x/./B.java" =
      some ("/w/proj/lib/x/B.java", .library) := by decide +kernel
  have hleads := (stored_path_leads_back hroot hsource).2 _ _ hproject
  have hback := (stored_path_leads_back hroot hnested).2 _ _ hlibrary
  exact ⟨⟨hproject, hleads.1⟩, hlibrary, hback.1⟩

end JavaAtlas.Path
