import Mathlib.Data.Int.Range
import JavaAtlas.Text.Excerpt

namespace JavaAtlas

/-! # The lines around a line

* `AroundLine`: what the lines around one line are, as far as a text has them;
* `aroundLine_contextWindow`, `contextWindow_of_lt`: these are the ones shown around a line of a
  text, and none are shown around what stands before its start.
-/

/-- The lines no further than `radius` from `line`, as far as there are such lines: numbered
one after the other, each with its text, and with `line` marked if it is one of them. -/
structure AroundLine (lines : List String) (line radius : Int) (context : List ContextLine) :
    Prop where
  run : context.map (·.line) =
    Int.range (max 1 (line - radius)) (min (lines.length : Int) (line + radius) + 1)
  texts : ∀ c ∈ context, lines[(c.line - 1).toNat]? = some c.text
  marked : ∀ c ∈ context, c.marked = true ↔ c.line = line

/-- The line itself is marked if the text has it. -/
theorem AroundLine.exists_marked_iff {lines : List String} {line radius : Int}
    {context : List ContextLine} (h : AroundLine lines line radius context) (hline : 1 ≤ line)
    (hradius : 0 ≤ radius) : (∃ c ∈ context, c.marked = true) ↔ line ≤ lines.length := by
  have hrun : line ∈ context.map (·.line) ↔ line ≤ lines.length := by
    rw [h.run, Int.mem_range_iff]
    omega
  rw [← hrun, List.mem_map]
  constructor
  · rintro ⟨c, hc, hmarked⟩
    exact ⟨c, hc, (h.marked c hc).mp hmarked⟩
  · rintro ⟨c, hc, hnumber⟩
    exact ⟨c, hc, (h.marked c hc).mpr hnumber⟩

/-- Some lines, numbered from `first` on. -/
def numberedFrom (first line : Int) (texts : List String) : List ContextLine :=
  texts.zipIdx.map fun (text, i) => { line := first + i, text, marked := first + i = line }

variable {first line radius : Int} {text : String} {texts lines : List String}

/-- A numbered line is a line with its place added to the first number. -/
@[simp]
theorem mem_numberedFrom_iff {c : ContextLine} : c ∈ numberedFrom first line texts ↔
    ∃ i : Nat, texts[i]? = some c.text ∧ c.line = first + i ∧ c.marked = decide (first + i = line) := by
  unfold numberedFrom
  rw [List.mem_map]
  constructor
  · rintro ⟨⟨t, i⟩, hmem, rfl⟩
    exact ⟨i, List.mem_zipIdx_iff_getElem?.mp hmem, rfl, rfl⟩
  · rintro ⟨i, htext, hline, hmarked⟩
    refine ⟨(c.text, i), List.mem_zipIdx_iff_getElem?.mpr htext, ?_⟩
    rw [ContextLine.mk.injEq]
    exact ⟨hline.symm, rfl, hmarked.symm⟩

/-- The numbers are consecutive. -/
theorem map_line_numberedFrom (first line : Int) (texts : List String) :
    (numberedFrom first line texts).map (·.line) = Int.range first (first + texts.length) := by
  have hindices : texts.zipIdx.map Prod.snd = List.range texts.length := by
    rw [List.zipIdx_map_snd, List.range_eq_range']
  have hlength : (first + texts.length - first).toNat = texts.length := by omega
  unfold numberedFrom Int.range
  rw [hlength, ← hindices, List.map_map, List.map_map]
  rfl

/-- A stretch of lines, from the first that is near enough on and as long as such lines last. -/
theorem aroundLine_numberedFrom (line radius : Int) (lines : List String) :
    AroundLine lines line radius
      (numberedFrom (max (line - radius) 1) line
        ((lines.drop (max (line - radius) 1 - 1).toNat).take
          (min (line + radius) lines.length - max (line - radius) 1 + 1).toNat)) := by
  generalize hfirst : max (line - radius) 1 = first
  generalize hlast : min (line + radius) (lines.length : Int) = last
  have hpos : 1 ≤ first := by omega
  have hend : last ≤ lines.length := by omega
  constructor
  case run =>
    rw [map_line_numberedFrom, max_comm, hfirst, min_comm, hlast, List.length_take,
      List.length_drop]
    -- the stretch may end before it begins, and then there is no line
    unfold Int.range
    congr 2
    omega
  case texts =>
    intro c hc
    obtain ⟨i, htext, hnumber, -⟩ := mem_numberedFrom_iff.mp hc
    rw [List.getElem?_take] at htext
    split at htext
    · have hplace : (c.line - 1).toNat = (first - 1).toNat + i := by omega
      rw [hplace, ← List.getElem?_drop]
      exact htext
    · cases htext
  case marked =>
    intro c hc
    obtain ⟨i, -, hnumber, hmarked⟩ := mem_numberedFrom_iff.mp hc
    rw [hmarked, decide_eq_true_eq, hnumber]

/-- Around what stands before the first line nothing is shown. -/
theorem contextWindow_of_lt (hline : line < 1) : contextWindow text line radius = [] := by
  unfold contextWindow
  dsimp only
  rw [if_pos (.inr hline)]

/-- What is shown around a line are the lines around it. -/
theorem aroundLine_contextWindow (hline : 1 ≤ line) (text : String) (radius : Int) :
    AroundLine (linesOf text) line radius (contextWindow text line radius) := by
  unfold contextWindow
  dsimp only
  -- an empty text has no lines, and none are shown
  by_cases hempty : (linesOf text).isEmpty = true
  · rw [if_pos (.inl hempty), List.isEmpty_iff.mp hempty]
    refine ⟨?_, nofun, nofun⟩
    have hnone : (min (([] : List String).length : Int) (line + radius) + 1 -
        max 1 (line - radius)).toNat = 0 := by
      rw [List.length_nil]
      omega
    unfold Int.range
    rw [hnone]
    rfl
  · rw [if_neg]
    · exact aroundLine_numberedFrom line radius (linesOf text)
    · rintro (h | h)
      · exact hempty h
      · omega

end JavaAtlas
