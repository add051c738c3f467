import Mathlib.Data.List.Basic
import JavaAtlas.Path

namespace JavaAtlas.Path

/-! # Components of paths

A path is read into components and written again in its normal form; both ways agree.

* `components_join`: the components of a path below an absolute one;
* `normalizeComponents_root_injective`, `normalizeComponents_injective`: the normal form of an
  absolute or relative path tells its components;
* `isAbsolute_normalizeComponents_root`, `isAbsolute_normalizeComponents`: and which of them it is.
-/

/-! ## Segments -/

/-- What stands between separators has none. -/
theorem not_mem_of_mem_splitOn {sep : Char} {text part : List Char}
    (hpart : part ∈ text.splitOn sep) : sep ∉ part := by
  induction text generalizing part with
  | nil =>
    rw [List.splitOn_nil, List.mem_singleton] at hpart
    simp [hpart]
  | cons c text ih =>
    -- a separator starts a new part, any other character goes to the first one
    rw [List.splitOn_cons_eq_if_modifyHead] at hpart
    split at hpart
    · rcases List.mem_cons.mp hpart with rfl | hpart
      · simp
      · exact ih hpart
    · rename_i hc
      obtain ⟨first, rest, hsplit⟩ := List.exists_cons_of_ne_nil (List.splitOn_ne_nil sep text)
      rw [hsplit, List.modifyHead_cons, List.mem_cons] at hpart
      rcases hpart with rfl | hpart
      · have hfirst : sep ∉ first := ih (by rw [hsplit]; exact List.mem_cons_self)
        have hne : ¬ sep = c := fun h => hc (by simp [h])
        simp [hne, hfirst]
      · exact ih (by rw [hsplit]; exact List.mem_cons_of_mem first hpart)

/-- A segment has no slash. -/
theorem slash_not_mem_of_mem_segments {path s : String} (hs : s ∈ segments path) :
    '/' ∉ s.toList := by
  obtain ⟨part, hpart, rfl⟩ := List.mem_map.mp hs
  rw [String.toList_ofList]
  exact not_mem_of_mem_splitOn hpart

/-- Texts without slashes, joined by slashes, are the segments again. -/
theorem segments_intercalate {parts : List String} (hparts : ∀ s ∈ parts, '/' ∉ s.toList)
    (hne : parts ≠ []) : segments ("/".intercalate parts) = parts := by
  unfold segments
  have hslash : ("/" : String).toList = ['/'] := rfl
  rw [String.toList_intercalate, hslash, List.splitOn_intercalate, List.map_map]
  · conv_rhs => rw [← List.map_id parts]
    apply List.map_congr_left
    intro s _
    exact String.ofList_toList
  · intro l hl
    obtain ⟨s, hs, rfl⟩ := List.mem_map.mp hl
    exact hparts s hs
  · simpa using hne

/-- A slash parts the segments in front of it from those behind it. -/
theorem segments_append_slash (a b : String) :
    segments (a ++ "/" ++ b) = segments a ++ segments b := by
  simp [segments, List.splitOn_append_cons_self]

/-- The empty path has one segment, which is empty. -/
@[simp]
theorem segments_empty : segments "" = [""] := by
  simp [segments]

/-- A path that starts with a slash has an empty segment in front. -/
@[simp]
theorem segments_slash_append (b : String) : segments ("/" ++ b) = "" :: segments b := by
  have h := segments_append_slash "" b
  rwa [String.empty_append, segments_empty, List.singleton_append] at h

/-! ## Components -/

/-- A text that can stand for a file or a directory in a path. -/
def ProperName (name : String) : Prop :=
  name ≠ "" ∧ name ≠ "." ∧ name ≠ ".." ∧ '/' ∉ name.toList

instance (name : String) : Decidable (ProperName name) :=
  inferInstanceAs (Decidable (_ ∧ _))

/-- The component that a segment stands for. -/
def ofSegment? (s : String) : Option Component :=
  if s = "" ∨ s = "." then none
  else if s = ".." then some .parent
  else some (.normal s)

/-- A component that is neither the root nor a single dot. -/
def Component.Inner : Component → Prop
  | .root | .current => False
  | .parent => True
  | .normal name => ProperName name

/-- Components are those of the segments, behind a root or a dot at the start. -/
theorem components_eq (path : String) :
    components path = (if isAbsolute path then [.root]
      else if (segments path).head? = some "." then [.current] else []) ++
        (segments path).filterMap ofSegment? := rfl

/-- An absolute path is the root and the components of its segments. -/
theorem components_of_isAbsolute {path : String} (h : isAbsolute path = true) :
    components path = .root :: (segments path).filterMap ofSegment? := by
  rw [components_eq, if_pos h, List.singleton_append]

/-- A segment is a name or the step to the parent, or nothing. -/
theorem ofSegment?_inner {s : String} (hs : '/' ∉ s.toList) {c : Component}
    (hc : ofSegment? s = some c) : c.Inner := by
  unfold ofSegment? at hc
  split at hc
  · cases hc
  · split at hc
    · cases hc
      trivial
    · cases hc
      rename_i hdots hparent
      exact ⟨fun h => hdots (Or.inl h), fun h => hdots (Or.inr h), hparent, hs⟩

/-- So all components but the lead are inner ones. -/
theorem inner_of_mem_filterMap {path : String} {c : Component}
    (hc : c ∈ (segments path).filterMap ofSegment?) : c.Inner := by
  obtain ⟨s, hs, hc⟩ := List.mem_filterMap.mp hc
  exact ofSegment?_inner (slash_not_mem_of_mem_segments hs) hc

/-- An inner component is read again from its text. -/
theorem Component.Inner.ofSegment?_text {c : Component} (h : c.Inner) :
    ofSegment? c.text = some c := by
  cases c with
  | root => exact h.elim
  | current => exact h.elim
  | parent => rfl
  | normal name =>
    obtain ⟨h1, h2, h3, -⟩ := h
    simp [ofSegment?, Component.text, h1, h2, h3]

/-- The text of an inner component has no slash. -/
theorem Component.Inner.slash_not_mem_text {c : Component} (h : c.Inner) : '/' ∉ c.text.toList := by
  cases c with
  | root => exact h.elim
  | current => exact h.elim
  | parent => decide
  | normal name => exact h.2.2.2

/-- Inner components are read again from their text. -/
theorem filterMap_segments_intercalate {cs : List Component} (hcs : ∀ c ∈ cs, c.Inner) :
    (segments ("/".intercalate (cs.map Component.text))).filterMap ofSegment? = cs := by
  by_cases hne : cs = []
  · subst hne
    rw [List.map_nil, String.intercalate_nil, segments_empty]
    rfl
  · rw [segments_intercalate]
    · rw [List.filterMap_map]
      induction cs with
      | nil => rfl
      | cons c cs ih =>
        have hc := (hcs c List.mem_cons_self).ofSegment?_text
        rw [List.filterMap_cons_some (by simpa using hc)]
        by_cases hcs' : cs = []
        · rw [hcs', List.filterMap_nil]
        · rw [ih (fun c hc => hcs c (List.mem_cons_of_mem _ hc)) hcs']
    · intro s hs
      obtain ⟨c, hc, rfl⟩ := List.mem_map.mp hs
      exact (hcs c hc).slash_not_mem_text
    · simpa using hne

/-- A path is absolute exactly if it begins with a slash. -/
theorem isAbsolute_iff {path : String} : isAbsolute path = true ↔ path.toList.head? = some '/' := by
  unfold isAbsolute
  rw [String.startsWith_string_iff]
  have hslash : ("/" : String).toList = ['/'] := rfl
  rw [hslash]
  cases path.toList with
  | nil => simp
  | cons c rest => simp [eq_comm]

/-- What stands behind a slash is absolute with it. -/
@[simp]
theorem isAbsolute_slash_append (rest : String) : isAbsolute ("/" ++ rest) = true := by
  rw [isAbsolute_iff, String.toList_append]
  rfl

/-- A path that starts with a name or with dots is not absolute. -/
theorem isAbsolute_intercalate {cs : List Component} (hcs : ∀ c ∈ cs, c.Inner) :
    isAbsolute ("/".intercalate (cs.map Component.text)) = false := by
  rw [Bool.eq_false_iff, ne_eq, isAbsolute_iff]
  cases cs with
  | nil => simp
  | cons c cs =>
    have hc := hcs c List.mem_cons_self
    have hslash := hc.slash_not_mem_text
    have hne : c.text.toList ≠ [] := by
      cases c with
      | root => exact hc.elim
      | current => exact hc.elim
      | parent => decide
      | normal name =>
        intro h
        exact hc.1 (by simpa [Component.text] using h)
    obtain ⟨d, ds, hd⟩ := List.exists_cons_of_ne_nil hne
    -- the first character is that of the first component, which is no slash
    have hhead : ("/".intercalate ((c :: cs).map Component.text)).toList.head? = some d := by
      rw [String.toList_intercalate, List.map_cons, List.map_cons, hd]
      cases cs.map Component.text with
      | nil => simp
      | cons t ts => simp [List.intercalate_cons_cons]
    rw [hhead]
    intro h
    rw [Option.some_inj] at h
    rw [hd, h] at hslash
    exact hslash List.mem_cons_self

/-- An absolute path is the root and inner components. -/
theorem components_inner_of_isAbsolute {path : String} (h : isAbsolute path = true) :
    ∃ cs, components path = .root :: cs ∧ ∀ c ∈ cs, c.Inner :=
  ⟨_, components_of_isAbsolute h, fun _ => inner_of_mem_filterMap⟩

/-! ## Paths below others -/

/-- A lead is dropped exactly where it stands in front. -/
theorem dropLead?_eq_some_iff {α : Type} [DecidableEq α] {lead list rest : List α} :
    dropLead? lead list = some rest ↔ list = lead ++ rest := by
  induction lead generalizing list with
  | nil => simp [dropLead?]
  | cons a lead ih =>
    cases list with
    | nil => simp [dropLead?]
    | cons b list =>
      unfold dropLead?
      split
      next h => rw [ih, List.cons_append, h, List.cons_inj_right]
      next h =>
        simp only [List.cons_append, List.cons.injEq, reduceCtorEq, false_iff, not_and]
        intro hba
        exact absurd hba.symm h

/-- A path is below another one exactly if its components go on from there. -/
theorem below?_eq_some_iff {root path : String} {names : List Component} :
    below? root path = some names ↔ components path = components root ++ names :=
  dropLead?_eq_some_iff

/-- A text ends with another one exactly if it is something and that. -/
theorem endsWith_iff {path tail : String} :
    path.endsWith tail = true ↔ ∃ front, path = front ++ tail := by
  have hslice : path.endsWith tail = path.toSlice.endsWith tail := rfl
  rw [hslice, String.Slice.endsWith_string_iff, String.copy_toSlice]
  constructor
  · rintro ⟨front, hfront⟩
    refine ⟨String.ofList front, String.toList_inj.mp ?_⟩
    rw [String.toList_append, String.toList_ofList, hfront]
  · rintro ⟨front, rfl⟩
    exact ⟨front.toList, by rw [String.toList_append]⟩

/-- The empty path is not absolute. -/
theorem ne_empty_of_isAbsolute {path : String} (h : isAbsolute path = true) : path ≠ "" := by
  rintro rfl
  exact absurd h (by decide)

/-- The segments of a path below another, but for empty ones. -/
theorem filterMap_segments_join {base path : String} (hpath : isAbsolute path = false)
    (hbase : base ≠ "") :
    (segments (join base path)).filterMap ofSegment? =
      (segments base).filterMap ofSegment? ++ (segments path).filterMap ofSegment? := by
  unfold join
  rw [if_neg (by simp [hpath])]
  split
  next h =>
    -- no slash is put in where there is one; the empty segment means nothing
    obtain ⟨front, rfl⟩ := endsWith_iff.mp (h.resolve_left hbase)
    have hend : segments (front ++ "/") = segments front ++ [""] := by
      have := segments_append_slash front ""
      rwa [String.append_empty, segments_empty] at this
    rw [segments_append_slash, hend, List.filterMap_append, List.filterMap_append]
    simp [ofSegment?]
  next h => rw [segments_append_slash, List.filterMap_append]

/-- An absolute path is what it is from everywhere. -/
theorem join_of_isAbsolute {base path : String} (h : isAbsolute path = true) :
    join base path = path := by
  unfold join
  rw [if_pos h]

/-- A path seen from an absolute one is absolute. -/
theorem isAbsolute_join {base path : String} (hbase : isAbsolute base = true) :
    isAbsolute (join base path) = true := by
  unfold join
  split
  next h => exact h
  next h =>
    -- the first character stays that of the base
    obtain ⟨c, rest, hrest⟩ := List.exists_cons_of_ne_nil
      (fun h => ne_empty_of_isAbsolute hbase (by simpa using h) : base.toList ≠ [])
    rw [isAbsolute_iff] at hbase ⊢
    rw [hrest] at hbase
    split
    · rw [String.toList_append, hrest]
      simpa using hbase
    · rw [String.toList_append, String.toList_append, hrest]
      simpa using hbase

/-- The components of a path below an absolute one. -/
theorem components_join {base : String} (hbase : isAbsolute base = true) {cs : List Component}
    (hcs : ∀ c ∈ cs, c.Inner) :
    components (join base ("/".intercalate (cs.map Component.text))) = components base ++ cs := by
  rw [components_of_isAbsolute (isAbsolute_join hbase), components_of_isAbsolute hbase,
    filterMap_segments_join (isAbsolute_intercalate hcs) (ne_empty_of_isAbsolute hbase),
    filterMap_segments_intercalate hcs, List.cons_append]

/-! ## Normal forms -/

/-- An inner component is written as its text. -/
theorem Component.Inner.part?_eq {c : Component} (h : c.Inner) : c.part? = some c.text := by
  cases c with
  | root => exact h.elim
  | current => exact h.elim
  | parent => rfl
  | normal name => rfl

/-- Inner components are all written. -/
theorem filterMap_part?_of_inner {cs : List Component} (hcs : ∀ c ∈ cs, c.Inner) :
    cs.filterMap Component.part? = cs.map Component.text := by
  induction cs with
  | nil => rfl
  | cons c cs ih =>
    rw [List.filterMap_cons_some (hcs c List.mem_cons_self).part?_eq,
      ih fun c hc => hcs c (List.mem_cons_of_mem _ hc), List.map_cons]

/-- The root is no inner component. -/
theorem root_not_mem_of_inner {cs : List Component} (hcs : ∀ c ∈ cs, c.Inner) : .root ∉ cs :=
  fun h => hcs .root h

/-- The normal form of an absolute path is a slash and the names, joined. -/
theorem normalizeComponents_root {cs : List Component} (hcs : ∀ c ∈ cs, c.Inner) :
    normalizeComponents (.root :: cs) = "/" ++ "/".intercalate (cs.map Component.text) := by
  unfold normalizeComponents
  rw [List.filterMap_cons_none rfl, filterMap_part?_of_inner hcs]
  simp

/-- The normal form of a relative path is its names, joined, or a dot if there are none. -/
theorem normalizeComponents_of_inner {cs : List Component} (hcs : ∀ c ∈ cs, c.Inner) :
    normalizeComponents cs =
      if cs = [] then "." else "/".intercalate (cs.map Component.text) := by
  unfold normalizeComponents
  rw [filterMap_part?_of_inner hcs]
  have hroot : cs.contains .root = false := by
    simpa using root_not_mem_of_inner hcs
  simp only [hroot, Bool.false_eq_true, if_false]
  by_cases hne : cs = []
  · simp [hne]
  · -- the joined text is empty only if there is nothing to join
    have htext : "/".intercalate (cs.map Component.text) ≠ "" := by
      intro h
      have := filterMap_segments_intercalate hcs
      rw [h, segments_empty] at this
      exact hne this.symm
    rw [if_neg htext, if_neg hne]

/-- The normal form of an absolute path is absolute. -/
theorem isAbsolute_normalizeComponents_root {cs : List Component} (hcs : ∀ c ∈ cs, c.Inner) :
    isAbsolute (normalizeComponents (.root :: cs)) = true := by
  rw [normalizeComponents_root hcs]
  exact isAbsolute_slash_append _

/-- The normal form of a relative path is relative. -/
theorem isAbsolute_normalizeComponents {cs : List Component} (hcs : ∀ c ∈ cs, c.Inner) :
    isAbsolute (normalizeComponents cs) = false := by
  rw [normalizeComponents_of_inner hcs]
  split
  · rw [Bool.eq_false_iff, ne_eq, isAbsolute_iff]
    decide
  · exact isAbsolute_intercalate hcs

/-- The normal form of an absolute path tells its components. -/
theorem normalizeComponents_root_injective {cs ds : List Component} (hcs : ∀ c ∈ cs, c.Inner)
    (hds : ∀ c ∈ ds, c.Inner)
    (h : normalizeComponents (.root :: cs) = normalizeComponents (.root :: ds)) : cs = ds := by
  rw [normalizeComponents_root hcs, normalizeComponents_root hds] at h
  have hparts : "/".intercalate (cs.map Component.text) = "/".intercalate (ds.map Component.text) :=
    String.append_right_inj "/" |>.mp h
  rw [← filterMap_segments_intercalate hcs, hparts, filterMap_segments_intercalate hds]

/-- The normal form of a relative path is read again as what it was made of. -/
theorem filterMap_segments_normalizeComponents {cs : List Component} (hcs : ∀ c ∈ cs, c.Inner) :
    (segments (normalizeComponents cs)).filterMap ofSegment? = cs := by
  -- nothing but the empty list is written as a dot, and a dot reads as nothing
  rw [normalizeComponents_of_inner hcs]
  split
  next hnil => rw [hnil]; decide
  next => exact filterMap_segments_intercalate hcs

/-- The normal form of a relative path tells its components. -/
theorem normalizeComponents_injective {cs ds : List Component} (hcs : ∀ c ∈ cs, c.Inner)
    (hds : ∀ c ∈ ds, c.Inner) (h : normalizeComponents cs = normalizeComponents ds) : cs = ds := by
  rw [← filterMap_segments_normalizeComponents hcs, h, filterMap_segments_normalizeComponents hds]

end JavaAtlas.Path
