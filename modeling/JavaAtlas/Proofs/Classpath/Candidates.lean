import Mathlib.Data.List.Nodup
import Mathlib.Data.List.Range
import JavaAtlas.Classpath
import JavaAtlas.Proofs.Path
import JavaAtlas.Proofs.Text.Joined

namespace JavaAtlas.Classpath

open JavaAtlas.ClassFile (javaName)

/-! # The class files of a name

A dotted name can be read in as many ways as it has segments, and every reading is a class file of
its own.

* `getElem?_candidates`: the class file in which the last segments are nested classes;
* `candidates_nodup`: no class file is looked for twice;
* `javaName_of_mem_candidates`: every one of them stands for the name;
* `nested_mem_candidates`: a class stored beside the one that it is nested in is looked for.
-/

/-- A text that can stand between the dots of a name and between the slashes of a path. -/
def NameSegment (s : String) : Prop := s ≠ "" ∧ '.' ∉ s.toList ∧ '/' ∉ s.toList

instance (s : String) : Decidable (NameSegment s) := inferInstanceAs (Decidable (_ ∧ _))

/-- The class file of a name whose segments from a number on are nested classes. -/
def classFile (segments : List String) (outer : Nat) : String :=
  "/".intercalate (segments.take outer ++ ["$".intercalate (segments.drop outer)])

/-! ## Segments of names -/

/-- The empty texts between two dots are not segments. -/
theorem ne_empty_of_mem_nameSegments {q s : String} (hs : s ∈ nameSegments q) : s ≠ "" := by
  simpa using (List.mem_filter.mp hs).2

/-- A segment has no dot in it. -/
theorem dot_not_mem_of_mem_nameSegments {q s : String} (hs : s ∈ nameSegments q) :
    '.' ∉ s.toList := by
  obtain ⟨part, hpart, rfl⟩ := List.mem_map.mp (List.mem_filter.mp hs).1
  rw [String.toList_ofList]
  exact Path.not_mem_of_mem_splitOn hpart

/-- The segments of two names with a dot between them are those of either. -/
@[simp]
theorem nameSegments_append_dot (q s : String) :
    nameSegments (q ++ "." ++ s) = nameSegments q ++ nameSegments s := by
  simp [nameSegments, List.splitOn_append_cons_self]

/-- A text that can stand between dots is its own only segment. -/
theorem nameSegments_of_segment {s : String} (hs : NameSegment s) : nameSegments s = [s] := by
  unfold nameSegments
  rw [List.splitOn_eq_singleton hs.2.1, List.map_singleton, String.ofList_toList]
  simpa using hs.1

/-- A name joined from segments has these segments. -/
theorem nameSegments_intercalate {segments : List String} (h : ∀ s ∈ segments, NameSegment s) :
    nameSegments (".".intercalate segments) = segments := by
  induction segments with
  | nil => decide
  | cons s segments ih =>
    obtain ⟨hs, hrest⟩ := List.forall_mem_cons.mp h
    -- There is a dot behind the first segment only if there is a second.
    by_cases hnil : segments = []
    · rw [hnil, String.intercalate_singleton, nameSegments_of_segment hs]
    · rw [String.intercalate_cons_of_ne_nil hnil, nameSegments_append_dot,
        nameSegments_of_segment hs, ih hrest, List.singleton_append]

/-! ## Names of class files as they are written in source -/

/-- A name is put in the words of source one character at a time. -/
@[simp]
theorem javaName_append (a b : String) : javaName (a ++ b) = javaName a ++ javaName b := by
  unfold javaName
  rw [String.toList_append, List.map_append, String.ofList_append]

/-- Parts joined by a separator that stands for a dot are names joined by dots. -/
theorem javaName_intercalate {sep : String} (hsep : javaName sep = ".") (parts : List String) :
    javaName (sep.intercalate parts) = ".".intercalate (parts.map javaName) := by
  induction parts with
  | nil => rw [List.map_nil, String.intercalate_nil, String.intercalate_nil]; decide
  | cons s parts ih =>
    by_cases hnil : parts = []
    · rw [hnil, String.intercalate_singleton, List.map_singleton, String.intercalate_singleton]
    · have hmap : parts.map javaName ≠ [] := by simpa using hnil
      rw [String.intercalate_cons_of_ne_nil hnil, List.map_cons,
        String.intercalate_cons_of_ne_nil hmap]
      simp [hsep, ih]

/-! ## Class files to look for -/

/-- The name with so many nested segments is the class file with the rest outside. -/
theorem internalName_eq {segments : List String} (hne : ∀ s ∈ segments, s ≠ "") (nested : Nat) :
    internalName segments nested = classFile segments (segments.length - nested) := by
  have htake : ∀ s ∈ segments.take (segments.length - nested), s ≠ "" :=
    fun s hs => hne s (List.mem_of_mem_take hs)
  unfold internalName classFile
  simp only [String.isEmpty_iff, intercalate_eq_empty_iff htake]
  split
  next hnil => rw [hnil, List.nil_append, String.intercalate_singleton]
  next hnil => rw [intercalate_concat hnil]

/-- There is one class file to look for to every segment of the name. -/
@[simp]
theorem length_candidates (q : String) : (candidates q).length = (nameSegments q).length := by
  unfold candidates
  rw [List.length_map, List.length_range]

/-- The class files come with the fewest nested segments first. -/
theorem getElem?_candidates {q : String} {i : Nat} (hi : i < (nameSegments q).length) :
    (candidates q)[i]? =
      some (classFile (nameSegments q) ((nameSegments q).length - (i + 1))) := by
  unfold candidates
  rw [List.getElem?_map, List.getElem?_range hi, Option.map_some,
    internalName_eq fun s => ne_empty_of_mem_nameSegments]

/-- What is looked for is every way to read the last segments as nested classes. -/
@[simp]
theorem mem_candidates_iff {q name : String} :
    name ∈ candidates q ↔
      ∃ outer < (nameSegments q).length, name = classFile (nameSegments q) outer := by
  unfold candidates
  rw [List.mem_map]
  constructor
  · rintro ⟨i, hi, rfl⟩
    rw [List.mem_range] at hi
    exact ⟨(nameSegments q).length - (i + 1), by omega,
      internalName_eq (fun s => ne_empty_of_mem_nameSegments) _⟩
  · rintro ⟨outer, houter, rfl⟩
    refine ⟨(nameSegments q).length - (outer + 1), List.mem_range.mpr (by omega), ?_⟩
    rw [internalName_eq fun s => ne_empty_of_mem_nameSegments]
    congr 1
    omega

section Segments

variable {segments : List String}

/-- Nested segments make one file name. -/
theorem slash_not_mem_intercalate_dollar {parts : List String} (h : ∀ s ∈ parts, NameSegment s) :
    '/' ∉ ("$".intercalate parts).toList := by
  intro hslash
  rcases mem_toList_intercalate hslash with hsep | ⟨s, hs, hmem⟩
  · exact absurd hsep (by decide)
  · exact (h s hs).2.2 hmem

/-- The way to a class file is a folder to every outer segment, and the file itself. -/
theorem segments_classFile (h : ∀ s ∈ segments, NameSegment s) (outer : Nat) :
    Path.segments (classFile segments outer) =
      segments.take outer ++ ["$".intercalate (segments.drop outer)] := by
  unfold classFile
  refine Path.segments_intercalate (fun s hs => ?_) (by simp)
  rcases List.mem_append.mp hs with hs | hs
  · exact (h s (List.mem_of_mem_take hs)).2.2
  · rw [List.mem_singleton] at hs
    subst hs
    exact slash_not_mem_intercalate_dollar fun s hs => h s (List.mem_of_mem_drop hs)

/-- The number of slashes tells how many segments are nested classes. -/
theorem classFile_injective (h : ∀ s ∈ segments, NameSegment s) {m n : Nat}
    (hm : m ≤ segments.length) (hn : n ≤ segments.length)
    (heq : classFile segments m = classFile segments n) : m = n := by
  have hlength : ∀ {k}, k ≤ segments.length →
      (Path.segments (classFile segments k)).length = k + 1 := by
    intro k hk
    rw [segments_classFile h, List.length_append, List.length_take, List.length_singleton,
      Nat.min_eq_left hk]
  have := hlength hm
  rw [heq, hlength hn] at this
  omega

/-- No class file is looked for twice. -/
theorem candidates_nodup {q : String} (h : ∀ s ∈ nameSegments q, NameSegment s) :
    (candidates q).Nodup := by
  unfold candidates
  refine List.Nodup.map_on (fun i hi j hj heq => ?_) List.nodup_range
  rw [List.mem_range] at hi hj
  rw [internalName_eq fun s => ne_empty_of_mem_nameSegments,
    internalName_eq fun s => ne_empty_of_mem_nameSegments] at heq
  have := classFile_injective h (by omega) (by omega) heq
  omega

/-- A class file stands for its segments joined by dots. -/
theorem javaName_classFile {outer : Nat} (houter : outer < segments.length) :
    javaName (classFile segments outer) = ".".intercalate (segments.map javaName) := by
  unfold classFile
  have hdrop : (segments.drop outer).map javaName ≠ [] := by
    simpa using houter
  rw [javaName_intercalate (by decide), List.map_append, List.map_singleton,
    javaName_intercalate (by decide)]
  conv_rhs => rw [← List.take_append_drop outer segments, List.map_append]
  -- Without a folder there is no slash to join, so this case is on its own.
  by_cases htake : (segments.take outer).map javaName = []
  · rw [htake, List.nil_append, List.nil_append, String.intercalate_singleton]
  · rw [intercalate_concat htake, String.intercalate_append_of_ne_nil htake hdrop]

/-- Every class file that is looked for stands for the name. -/
theorem javaName_of_mem_candidates (h : ∀ s ∈ segments, NameSegment s) {name : String}
    (hname : name ∈ candidates (".".intercalate segments)) :
    javaName name = javaName (".".intercalate segments) := by
  obtain ⟨outer, houter, rfl⟩ := mem_candidates_iff.mp hname
  rw [nameSegments_intercalate h] at houter ⊢
  rw [javaName_classFile houter, javaName_intercalate (by decide)]

end Segments

/-- One more segment is a class nested in the one before it. -/
theorem classFile_concat {segments : List String} {outer : Nat} (houter : outer < segments.length)
    (s : String) : classFile (segments ++ [s]) outer = classFile segments outer ++ "$" ++ s := by
  unfold classFile
  have hdrop : segments.drop outer ≠ [] := by
    simpa using houter
  rw [List.take_append_of_le_length houter.le, List.drop_append_of_le_length houter.le,
    intercalate_concat hdrop]
  -- The same two cases as for the name: with folders before the file and without.
  by_cases htake : segments.take outer = []
  · rw [htake, List.nil_append, List.nil_append, String.intercalate_singleton,
      String.intercalate_singleton]
  · rw [intercalate_concat htake, intercalate_concat htake]
    simp only [String.append_assoc]

/-- A class stored beside the one that it is nested in is looked for. -/
theorem nested_mem_candidates {q name s : String} (hs : NameSegment s)
    (hname : name ∈ candidates q) : name ++ "$" ++ s ∈ candidates (q ++ "." ++ s) := by
  obtain ⟨outer, houter, rfl⟩ := mem_candidates_iff.mp hname
  rw [mem_candidates_iff, nameSegments_append_dot, nameSegments_of_segment hs]
  refine ⟨outer, ?_, (classFile_concat houter s).symm⟩
  rw [List.length_append]
  omega

end JavaAtlas.Classpath
