import JavaAtlas.Proofs.Disk
import JavaAtlas.Proofs.Text.Joined

namespace JavaAtlas.Path

/-! # Paths that lead down

A relative path without dots leads down from every directory by its names, whether that directory is
given from the root or not, and the normal form tells where it started.

* `Plain.components_join`: the components of a plain path seen from another one;
* `Below.normalize_eq`: how the normal form of a path below another one begins.
-/

/-! ## Paths of names -/

/-- Its segments, joined by slashes, are the path again. -/
theorem intercalate_segments (path : String) : "/".intercalate (segments path) = path := by
  have hslash : ("/" : String).toList = ['/'] := rfl
  have htext : (segments path).map String.toList = path.toList.splitOn '/' := by
    unfold segments
    rw [List.map_map]
    conv_rhs => rw [← List.map_id (path.toList.splitOn '/')]
    exact List.map_congr_left fun part _ => String.toList_ofList
  rw [← String.toList_inj, String.toList_intercalate, hslash, htext, List.intercalate_splitOn]

/-- Every path has a segment, be it an empty one. -/
theorem segments_ne_nil (path : String) : segments path ≠ [] := by
  unfold segments
  simp

/-- A text without slashes is added to the last segment. -/
theorem segments_append {a b : String} (hb : '/' ∉ b.toList) :
    ∃ front last, segments a = front ++ [last] ∧ segments (a ++ b) = front ++ [last ++ b] := by
  have hsegments : segments a =
      (segments a).dropLast ++ [(segments a).getLast (segments_ne_nil a)] :=
    (List.dropLast_append_getLast _).symm
  generalize (segments a).dropLast = front at hsegments
  generalize (segments a).getLast (segments_ne_nil a) = last at hsegments
  refine ⟨front, last, hsegments, ?_⟩
  have hslash : ∀ s ∈ front ++ [last], '/' ∉ s.toList := by
    rw [← hsegments]
    exact fun s => slash_not_mem_of_mem_segments
  have happend : a ++ b = "/".intercalate (front ++ [last ++ b]) := by
    conv_lhs => rw [← intercalate_segments a, hsegments]
    -- there may be no slash in the first text at all
    by_cases hfront : front = []
    · rw [hfront, List.nil_append, List.nil_append, String.intercalate_singleton,
        String.intercalate_singleton]
    · rw [intercalate_concat hfront, intercalate_concat hfront]
      simp only [String.append_assoc]
  rw [happend]
  refine segments_intercalate (fun s hs => ?_) (by simp)
  rcases List.mem_append.mp hs with hs | hs
  · exact hslash s (List.mem_append_left _ hs)
  · rw [List.mem_singleton] at hs
    rw [hs, String.toList_append, List.mem_append]
    exact fun h => h.elim (hslash last (by simp)) hb

/-- The characters of a segment are in the path. -/
theorem mem_of_mem_segment {path s : String} (hs : s ∈ segments path) {ch : Char}
    (hch : ch ∈ s.toList) : ch ∈ path.toList := by
  rw [← intercalate_segments path]
  exact mem_toList_intercalate_of_mem hs hch

/-- A relative path without dots between its slashes. -/
structure Plain (path : String) : Prop where
  relative : isAbsolute path = false
  dotless : ∀ s ∈ segments path, s ≠ "." ∧ s ≠ ".."

/-- The names that a path goes through. -/
def namesOf (path : String) : List String := (segments path).filter (· ≠ "")

/-- Without dots, the segments that are not empty are names. -/
theorem filterMap_ofSegment?_of_dotless {parts : List String}
    (h : ∀ s ∈ parts, s ≠ "." ∧ s ≠ "..") :
    parts.filterMap ofSegment? = (parts.filter (· ≠ "")).map .normal := by
  induction parts with
  | nil => rfl
  | cons s parts ih =>
    obtain ⟨⟨hcurrent, hparent⟩, hrest⟩ := List.forall_mem_cons.mp h
    -- an empty segment means nothing, any other one is a name
    by_cases hs : s = ""
    · rw [List.filterMap_cons_none (by simp [ofSegment?, hs]), ih hrest,
        List.filter_cons_of_neg (by simp [hs])]
    · rw [List.filterMap_cons_some (b := .normal s) (by simp [ofSegment?, hs, hcurrent, hparent]),
        ih hrest, List.filter_cons_of_pos (by simp [hs]), List.map_cons]

/-- A plain path goes through proper names. -/
theorem Plain.properNames {path : String} (h : Plain path) : Disk.ProperNames (namesOf path) := by
  intro s hs
  obtain ⟨hs, hne⟩ := List.mem_filter.mp hs
  exact ⟨by simpa using hne, (h.dotless s hs).1, (h.dotless s hs).2, slash_not_mem_of_mem_segments hs⟩

/-- A relative path does not change where another one starts. -/
theorem isAbsolute_join_of_relative {base path : String} (hpath : isAbsolute path = false)
    (hbase : base ≠ "") : isAbsolute (join base path) = isAbsolute base := by
  have happend : ∀ more, isAbsolute (base ++ more) = isAbsolute base := by
    intro more
    rw [Bool.eq_iff_iff, isAbsolute_iff, isAbsolute_iff, String.toList_append,
      List.head?_append_of_ne_nil _ (by simpa using hbase)]
  unfold join
  rw [if_neg (by simp [hpath])]
  split
  · exact happend path
  · rw [String.append_assoc]
    exact happend _

/-- A relative path does not change the first segment of another one. -/
theorem head?_segments_join {base path : String} (hpath : isAbsolute path = false)
    (hbase : base ≠ "") : (segments (join base path)).head? = (segments base).head? := by
  unfold join
  rw [if_neg (by simp [hpath])]
  split
  next h =>
    obtain ⟨front, rfl⟩ := endsWith_iff.mp (h.resolve_left hbase)
    have hend := segments_append_slash front ""
    rw [String.append_empty] at hend
    rw [segments_append_slash, hend, List.head?_append_of_ne_nil _ (segments_ne_nil front),
      List.head?_append_of_ne_nil _ (segments_ne_nil front)]
  next h => rw [segments_append_slash, List.head?_append_of_ne_nil _ (segments_ne_nil base)]

/-- A plain path leads down from wherever it starts. -/
theorem Plain.components_join {path : String} (h : Plain path) (base : String) :
    components (join base path) = components base ++ (namesOf path).map .normal := by
  have hnames : (segments path).filterMap ofSegment? = (namesOf path).map .normal :=
    filterMap_ofSegment?_of_dotless h.dotless
  -- seen from the empty path a path is what it is
  by_cases hbase : base = ""
  · have hhead : (segments path).head? ≠ some "." := by
      intro hhead
      exact (h.dotless "." (List.mem_of_head? hhead)).1 rfl
    have hjoin : join "" path = path := by simp [join, h.relative]
    have hempty : components "" = [] := by decide
    rw [hbase, hjoin, hempty, List.nil_append, components_eq, h.relative, if_neg (by simp),
      if_neg hhead, List.nil_append, hnames]
  · rw [components_eq, components_eq, isAbsolute_join_of_relative h.relative hbase,
      head?_segments_join h.relative hbase, filterMap_segments_join h.relative hbase, hnames,
      List.append_assoc]

/-- Whether `path` leads down from `dir`, by at least one name. -/
def Below (dir path : String) : Prop :=
  ∃ names, names ≠ [] ∧ Disk.ProperNames names ∧
    components path = components dir ++ names.map .normal

/-- What a component is written as is not empty. -/
theorem part?_ne_empty {path s : String} (hs : s ∈ (components path).filterMap Component.part?) :
    s ≠ "" := by
  obtain ⟨c, hc, hs⟩ := List.mem_filterMap.mp hs
  rw [components_eq, List.mem_append] at hc
  have hinner : c.Inner := by
    rcases hc with hc | hc
    · split at hc
      · rw [List.mem_singleton] at hc
        simp [hc, Component.part?] at hs
      · split at hc
        · rw [List.mem_singleton] at hc
          simp [hc, Component.part?] at hs
        · cases hc
    · exact inner_of_mem_filterMap hc
  cases c with
  | root => cases hs
  | current => cases hs
  | parent =>
    cases hs
    decide
  | normal name =>
    cases hs
    exact hinner.1

/-- The normal form of a path below another one starts with that of the other, but for the dot that
stands for nothing. -/
theorem Below.normalize_eq {dir path : String} (h : Below dir path) :
    (∃ rest, normalize path = normalize dir ++ rest) ∨
      normalize dir = "." ∧ ∃ names, names ≠ [] ∧ Disk.ProperNames names ∧
        normalize path = "/".intercalate names := by
  obtain ⟨names, hne, hnames, hcomponents⟩ := h
  have hparts : (components path).filterMap Component.part? =
      (components dir).filterMap Component.part? ++ names := by
    rw [hcomponents, List.filterMap_append,
      filterMap_part?_of_inner (Disk.inner_of_mem_map_normal hnames), Disk.map_text_normal]
  have hroot : (components path).contains .root = (components dir).contains .root := by
    rw [hcomponents]
    simp
  have htexts : ∀ s ∈ (components dir).filterMap Component.part?, s ≠ "" :=
    fun s => part?_ne_empty
  unfold normalize normalizeComponents
  rw [hparts, hroot]
  generalize (components dir).filterMap Component.part? = parts at htexts
  have hjoined : "/".intercalate (parts ++ names) =
      if parts = [] then "/".intercalate names
      else "/".intercalate parts ++ ("/" ++ "/".intercalate names) := by
    split
    next hnil => rw [hnil, List.nil_append]
    next hnil =>
      rw [String.intercalate_append_of_ne_nil hnil hne, String.append_assoc]
  have hnonempty : "/".intercalate (parts ++ names) ≠ "" := by
    rw [ne_eq, intercalate_eq_empty_iff]
    · simp [hne]
    · intro s hs
      exact (List.mem_append.mp hs).elim (htexts s) fun hs => (hnames s hs).1
  -- the dot is written only for a relative path of which nothing is left
  split
  · left
    rw [hjoined]
    split
    next hnil =>
      exact ⟨"/".intercalate names, by rw [hnil, String.intercalate_nil, String.append_empty]⟩
    next hnil => exact ⟨"/" ++ "/".intercalate names, by rw [String.append_assoc]⟩
  · by_cases hnil : parts = []
    · right
      rw [if_neg hnonempty, hjoined, if_pos hnil, hnil]
      exact ⟨rfl, names, hne, hnames, rfl⟩
    · left
      have hparts : "/".intercalate parts ≠ "" :=
        fun h => hnil ((intercalate_eq_empty_iff htexts).mp h)
      rw [if_neg hnonempty, if_neg hparts, hjoined, if_neg hnil]
      exact ⟨_, rfl⟩

end JavaAtlas.Path
