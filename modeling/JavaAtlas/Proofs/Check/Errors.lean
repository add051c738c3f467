import JavaAtlas.Check.Harvest
import JavaAtlas.Proofs.Index.Sorted
import JavaAtlas.Proofs.Text.Excerpt

namespace JavaAtlas

/-! # The errors told of a file

Errors are told once for each line and message, by line, each with the lines around it.

* `Harvest.mem_sources_iff`: the markers told, those kept before those that a search finds;
* `Harvest.mem_errorsIn_iff`, `Harvest.nodup_errorsIn`, `Harvest.pairwise_errorsIn`: what becomes of
  them, when messages may be the same only after they were cleaned;
* `Harvest.errors_once`: all that is told of a file.
-/

/-- No value is left twice. -/
theorem nodup_eraseDups {α : Type} [BEq α] [LawfulBEq α] (values : List α) :
    values.eraseDups.Nodup := by
  -- what is left behind a value is what is left of the others, and these are fewer
  induction hlength : values.length using Nat.strong_induction_on generalizing values with
  | _ length ih =>
    cases values with
    | nil => exact List.nodup_nil
    | cons a rest =>
      rw [List.eraseDups_cons, List.nodup_cons]
      constructor
      · rw [List.mem_eraseDups, List.mem_filter]
        rintro ⟨-, hne⟩
        simp at hne
      · have hfewer : (rest.filter fun b => !b == a).length ≤ rest.length :=
          List.length_filter_le _ _
        rw [List.length_cons] at hlength
        exact ih _ (by omega) _ rfl

namespace Harvest

/-- An error marker that is told: one that was kept or, if none was, one that a search has found. -/
def Told (markers : List Marker) (search : Except Failure (List Marker)) (m : Marker) : Prop :=
  m.severity = .error ∧
    (m ∈ markers ∨
      (∀ kept ∈ markers, kept.severity ≠ .error) ∧ ∃ found, search = .ok found ∧ m ∈ found)

variable {markers : List Marker} {search : Except Failure (List Marker)} {text : String}
  {d : Diagnostic} {m : Marker}

/-- The markers of one severity are picked from all. -/
@[simp]
theorem mem_ofSeverity_iff {severity : Severity} :
    m ∈ ofSeverity severity markers ↔ m ∈ markers ∧ m.severity = severity := by
  rw [ofSeverity, List.mem_filter, beq_iff_eq]

/-- The markers that are told are the errors that were kept, or else those that are found. -/
theorem mem_sources_iff : m ∈ (sources markers search).1 ↔ Told markers search m := by
  unfold sources Told
  dsimp only
  -- a search is asked only if no error was kept
  by_cases hkept : ∃ kept ∈ markers, kept.severity = .error
  · have hsome : (ofSeverity .error markers).isEmpty = false := by
      obtain ⟨kept, hmem, hseverity⟩ := hkept
      rw [List.isEmpty_eq_false_iff_exists_mem]
      exact ⟨kept, mem_ofSeverity_iff.mpr ⟨hmem, hseverity⟩⟩
    have hnot : ¬∀ kept ∈ markers, kept.severity ≠ .error := by
      intro hnone
      obtain ⟨kept, hmem, hseverity⟩ := hkept
      exact hnone kept hmem hseverity
    rw [if_pos (by rw [hsome]; rfl), mem_ofSeverity_iff]
    constructor
    · rintro ⟨hmem, hseverity⟩
      exact ⟨hseverity, .inl hmem⟩
    · rintro ⟨hseverity, hmem | ⟨hnone, -⟩⟩
      · exact ⟨hmem, hseverity⟩
      · exact absurd hnone hnot
  · have hnone : ∀ kept ∈ markers, kept.severity ≠ .error :=
      fun kept hmem hseverity => hkept ⟨kept, hmem, hseverity⟩
    have hempty : ofSeverity .error markers = [] := by
      rw [List.eq_nil_iff_forall_not_mem]
      intro kept hmem
      rw [mem_ofSeverity_iff] at hmem
      exact hnone kept hmem.1 hmem.2
    rw [hempty, if_neg (by simp)]
    cases search with
    | ok found =>
      rw [mem_ofSeverity_iff]
      constructor
      · rintro ⟨hmem, hseverity⟩
        exact ⟨hseverity, .inr ⟨hnone, found, rfl, hmem⟩⟩
      · rintro ⟨hseverity, hmem | ⟨-, found', hfound, hmem⟩⟩
        · exact absurd hseverity (hnone m hmem)
        · cases hfound
          exact ⟨hmem, hseverity⟩
    | error e =>
      constructor
      · intro hmem
        cases hmem
      · rintro ⟨hseverity, hmem | ⟨-, found, hfound, -⟩⟩
        · exact absurd hseverity (hnone m hmem)
        · cases hfound

/-! ## Each line and message once -/

/-- Each diagnostic comes from a marker, with its cleaned message. -/
@[simp]
theorem mem_errorsIn_iff : d ∈ errorsIn text markers ↔
    ∃ m ∈ markers, d = diagnostic text m.line (cleanMessage m.message) := by
  unfold errorsIn
  rw [List.mem_mergeSort, List.mem_map]
  constructor
  · rintro ⟨p, hp, rfl⟩
    obtain ⟨m, hm, rfl⟩ := List.mem_map.mp (List.mem_eraseDups.mp hp)
    exact ⟨m, hm, rfl⟩
  · rintro ⟨m, hm, rfl⟩
    exact ⟨key m, List.mem_eraseDups.mpr (List.mem_map_of_mem hm), rfl⟩

/-- Diagnostics stand by line. -/
theorem pairwise_errorsIn (text : String) (markers : List Marker) :
    (errorsIn text markers).Pairwise fun a b => a.line ≤ b.line := by
  have hsorted := keyOrder_int.pairwise_sortByKey Diagnostic.line
    ((markers.map key).eraseDups.map fun p => diagnostic text p.1 p.2)
  refine List.Pairwise.imp ?_ hsorted
  intro a b hab
  exact of_decide_eq_true hab

/-- The line and the message of a diagnostic. -/
def place (d : Diagnostic) : Int × String := (d.line, d.message)

/-- No line and message is told twice, even if messages are the same only after cleaning. -/
theorem nodup_errorsIn (text : String) (markers : List Marker) :
    ((errorsIn text markers).map place).Nodup := by
  have hperm : ((errorsIn text markers).map place).Perm
      (((markers.map key).eraseDups.map fun p => diagnostic text p.1 p.2).map place) :=
    (List.mergeSort_perm _ _).map place
  -- sorting moves them around, so it is asked before
  rw [hperm.nodup_iff, List.map_map]
  have hplaces : (place ∘ fun p : Int × String => diagnostic text p.1 p.2) = id := rfl
  rw [hplaces, List.map_id]
  exact nodup_eraseDups _

/-! ## All that is told -/

/-- The text whose lines are shown: none if it could not be had. -/
def shownText (text : Except Failure String) : String :=
  match text with
  | .ok text => text
  | .error _ => ""

/-- What is told does not depend on whether the text could be had, but for the lines around. -/
theorem errors_harvest (text : Except Failure String) :
    (harvest markers search text).errors =
      errorsIn (shownText text) (sources markers search).1 := by
  cases text with
  | ok text => rfl
  | error e => rfl

/-- Every error is told once for its line and its cleaned message, by line, and nothing else is;
warnings and hints are counted. Around a line of the text stand the lines around it, and nothing
stands around what is before its start. -/
theorem errors_once (markers : List Marker) (search : Except Failure (List Marker))
    (text : Except Failure String) :
    (harvest markers search text).errors.Pairwise (fun a b => a.line ≤ b.line) ∧
    ((harvest markers search text).errors.map place).Nodup ∧
    (∀ line message, (line, message) ∈ (harvest markers search text).errors.map place ↔
      ∃ m, Told markers search m ∧ m.line = line ∧ cleanMessage m.message = message) ∧
    (harvest markers search text).warnings = markers.countP (·.severity = .warning) ∧
    (harvest markers search text).infos = markers.countP (·.severity = .info) ∧
    ∀ d ∈ (harvest markers search text).errors, d.severity = .error ∧
      (1 ≤ d.line → AroundLine (linesOf (shownText text)) d.line 3 d.context ∧
        ((∃ c ∈ d.context, c.marked = true) ↔ d.line ≤ (linesOf (shownText text)).length)) ∧
      (d.line < 1 → d.context = []) := by
  rw [errors_harvest]
  refine ⟨pairwise_errorsIn _ _, nodup_errorsIn _ _, ?_, ?_, ?_, ?_⟩
  · intro line message
    rw [List.mem_map]
    constructor
    · rintro ⟨d, hd, hplace⟩
      obtain ⟨m, hm, rfl⟩ := mem_errorsIn_iff.mp hd
      cases hplace
      exact ⟨m, mem_sources_iff.mp hm, rfl, rfl⟩
    · rintro ⟨m, hm, rfl, rfl⟩
      exact ⟨_, mem_errorsIn_iff.mpr ⟨m, mem_sources_iff.mpr hm, rfl⟩, rfl⟩
  · show (ofSeverity .warning markers).length = _
    rw [ofSeverity, ← List.countP_eq_length_filter]
    rfl
  · show (ofSeverity .info markers).length = _
    rw [ofSeverity, ← List.countP_eq_length_filter]
    rfl
  · intro d hd
    obtain ⟨m, -, rfl⟩ := mem_errorsIn_iff.mp hd
    refine ⟨rfl, ?_, ?_⟩
    · intro hline
      have haround := aroundLine_contextWindow hline (shownText text) contextRadius
      exact ⟨haround, haround.exists_marked_iff hline (by decide)⟩
    · intro hline
      exact contextWindow_of_lt hline

/-- Errors before the start and in the text, two of them with the same cleaned message. -/
def mixedMarkers : List Marker :=
  [{ severity := .error, line := 2, message := "Error: lost" },
    { severity := .warning, message := "unused" },
    { severity := .error, line := 2, message := " lost " },
    { severity := .error, line := 0, message := "no package" }]

/-- These errors in a text of two lines. -/
theorem errors_once_mixed :
    ((harvest mixedMarkers (.ok []) (.ok "class A\nend")).errors.map place).Nodup ∧
    (2, "lost") ∈ (harvest mixedMarkers (.ok []) (.ok "class A\nend")).errors.map place ∧
    (harvest mixedMarkers (.ok []) (.ok "class A\nend")).warnings = 1 ∧
    AroundLine ["class A", "end"] 2 3 (diagnostic "class A\nend" 2 "lost").context ∧
    (diagnostic "class A\nend" 0 "no package").context = [] := by
  obtain ⟨-, hnodup, hplaces, hwarnings, -, herrors⟩ :=
    errors_once mixedMarkers (.ok []) (.ok "class A\nend")
  have hlost : cleanMessage "Error: lost" = "lost" := by decide +kernel
  have hpackage : cleanMessage "no package" = "no package" := by decide +kernel
  have hlines : linesOf "class A\nend" = ["class A", "end"] := by decide +kernel
  have htold : ∀ m ∈ mixedMarkers, m.severity = .error →
      diagnostic "class A\nend" m.line (cleanMessage m.message) ∈
        (harvest mixedMarkers (.ok []) (.ok "class A\nend")).errors := by
    intro m hm hseverity
    rw [errors_harvest]
    exact mem_errorsIn_iff.mpr ⟨m, mem_sources_iff.mpr ⟨hseverity, .inl hm⟩, rfl⟩
  have hfirst := htold { severity := .error, line := 2, message := "Error: lost" }
    (by decide) rfl
  have hlast := htold { severity := .error, line := 0, message := "no package" } (by decide) rfl
  rw [hlost] at hfirst
  rw [hpackage] at hlast
  have haround := ((herrors _ hfirst).2.1 (by decide)).1
  rw [shownText, hlines] at haround
  refine ⟨hnodup, ?_, ?_, haround, (herrors _ hlast).2.2 (by decide)⟩
  · exact (hplaces 2 "lost").mpr ⟨_, ⟨rfl, .inl List.mem_cons_self⟩, rfl, hlost⟩
  · rw [hwarnings]
    decide

end Harvest

end JavaAtlas
