import JavaAtlas.Index.View
import JavaAtlas.Proofs.Java.TypeText
import Mathlib.Algebra.GroupWithZero.Nat
import Mathlib.Algebra.Order.BigOperators.Group.List
import Mathlib.Algebra.Order.Group.Nat
import Mathlib.Data.List.Chain
import Mathlib.Data.List.Induction

namespace JavaAtlas.Java

/-! # Types without the packages of their names

The text of a type as it is recorded: names, each perhaps with qualifiers in front of it, between
them brackets, commas, question marks and spaces, and at the end perhaps the dots of a parameter
that takes any number of arguments. Dropping the qualifiers from it reads the text once from left
to right, without knowing where a name ends.

* `dropQualifiers_pieces`: what is left where every qualifier is read as one;
* `countP_kept_le`, `length_presentable_le`: what is not read as a qualifier makes the text longer,
  and a name that is taken for one makes it shorter;
* `presentableType_eq_simple_iff`: so a type, and with it a signature, is shown with simple names
  exactly if neither happens.
-/

/-! ## The text of a type -/

/-- The characters between the names of a type, dots apart. -/
def typeMarks : List Char := [' ', '<', '>', '[', ']', ',', '?', '@']

/-- A name without dots. -/
def IsSegment (name : String) : Prop := name ≠ "" ∧ ∀ c ∈ name.toList, c ≠ '.' ∧ c ∉ typeMarks

/-- The white space at one side of a dot. -/
def gap (spaced : Bool) : List Char := if spaced then [' '] else []

/-- A name and the dot behind it. -/
structure Qualifier where
  name : String
  /-- Whether a space stands in front of the dot. -/
  before : Bool := false
  /-- Whether a space stands behind the dot. -/
  behind : Bool := false

/-- A name with the names that qualify it. -/
structure DottedName where
  qualifiers : List Qualifier := []
  last : String

/-- A part of the text of a type. -/
inductive TypePiece where
  | name (n : DottedName)
  | mark (c : Char)
  /-- The end of type arguments and the dot in front of a type inside. -/
  | inner (before behind : Bool)

/-- The text of a type in its parts. -/
structure TypeText where
  pieces : List TypePiece
  /-- Whether dots for any number of arguments stand at the end. -/
  varargs : Bool := false

/-- The characters of a qualifier. -/
def Qualifier.chars (q : Qualifier) : List Char :=
  q.name.toList ++ gap q.before ++ '.' :: gap q.behind

/-- The characters of a name with its qualifiers. -/
def DottedName.chars (n : DottedName) : List Char :=
  n.qualifiers.flatMap (·.chars) ++ n.last.toList

/-- A name without its qualifiers. -/
def DottedName.simple (n : DottedName) : DottedName := { last := n.last }

namespace TypePiece

/-- The characters of a part. -/
def chars : TypePiece → List Char
  | .name n => n.chars
  | .mark c => [c]
  | .inner before behind => '>' :: gap before ++ '.' :: gap behind

/-- A part with its name simple. -/
def simple : TypePiece → TypePiece
  | .name n => .name n.simple
  | .mark c => .mark c
  | .inner before behind => .inner before behind

/-- Whether a part is a name. -/
def isName : TypePiece → Bool
  | .name _ => true
  | _ => false

end TypePiece

namespace TypeText

/-- The dots at the end, if there are any. -/
def ending (t : TypeText) : List Char := if t.varargs then ['.', '.', '.'] else []

/-- The characters of a type. -/
def chars (t : TypeText) : List Char := t.pieces.flatMap (·.chars) ++ t.ending

/-- The text of a type. -/
def text (t : TypeText) : String := String.ofList t.chars

/-- A type with every name simple and all else as it was. -/
def simple (t : TypeText) : TypeText := { t with pieces := t.pieces.map (·.simple) }

end TypeText

/-- Names are names and marks are marks. -/
def TypePiece.Legal : TypePiece → Prop
  | .name n => IsSegment n.last ∧ ∀ q ∈ n.qualifiers, IsSegment q.name
  | .mark c => c ∈ typeMarks
  | .inner _ _ => True

/-- All parts are as they should be, and no two names touch. -/
structure LegalPieces (ps : List TypePiece) : Prop where
  legal : ∀ p ∈ ps, p.Legal
  apart : ps.IsChain fun a b => ¬ (a.isName = true ∧ b.isName = true)

/-- The parts of a type are as they should be, and no white space stands around it. -/
structure TypeText.Legal (t : TypeText) : Prop where
  pieces : LegalPieces t.pieces
  tight : Tight t.chars

/-- A qualifier is not read as one: a space stands at its dot, or a character in it is none of
those by which names are told. -/
def Qualifier.Stays (q : Qualifier) : Prop :=
  q.before = true ∨ q.behind = true ∨ ∃ c ∈ q.name.toList, isNameChar c = false

/-- Some qualifier of a name is not read as one. -/
def TypePiece.Stays : TypePiece → Prop
  | .name n => ∃ q ∈ n.qualifiers, q.Stays
  | _ => False

/-- A name is taken for a qualifier if a dot stands behind it. -/
def TypePiece.Goes : TypePiece → Prop
  | .name n => ∃ c ∈ n.last.toList.getLast?, isNameChar c = true
  | _ => False

/-- A qualifier stays, or the name at the end goes because dots stand behind it. -/
def TypeText.Misread (t : TypeText) : Prop :=
  (∃ p ∈ t.pieces, p.Stays) ∨ t.varargs = true ∧ ∃ p ∈ t.pieces.getLast?, p.Goes

section Decidable

-- Of all characters, only those at hand are looked at.

instance (priority := high) decidableForallMemChars {p : Char → Prop} [DecidablePred p]
    (l : List Char) : Decidable (∀ c ∈ l, p c) := List.decidableBAll p l

instance (priority := high) decidableExistsMemChars {p : Char → Prop} [DecidablePred p]
    (l : List Char) : Decidable (∃ c ∈ l, p c) := List.decidableBEx p l

instance (priority := high) decidableExistsMemChar? {p : Char → Prop} [DecidablePred p]
    (o : Option Char) : Decidable (∃ c ∈ o, p c) := Option.decidableExistsMem o

instance : DecidablePred IsSegment := fun _ => inferInstanceAs (Decidable (_ ∧ _))

instance : DecidablePred Qualifier.Stays := fun _ => inferInstanceAs (Decidable (_ ∨ _ ∨ _))

instance : DecidablePred TypePiece.Legal
  | .name _ => inferInstanceAs (Decidable (_ ∧ _))
  | .mark c => inferInstanceAs (Decidable (c ∈ typeMarks))
  | .inner _ _ => inferInstanceAs (Decidable True)

instance : DecidablePred TypePiece.Stays
  | .name n => inferInstanceAs (Decidable (∃ q ∈ n.qualifiers, q.Stays))
  | .mark _ => inferInstanceAs (Decidable False)
  | .inner _ _ => inferInstanceAs (Decidable False)

instance : DecidablePred TypePiece.Goes
  | .name n => inferInstanceAs (Decidable (∃ c ∈ n.last.toList.getLast?, isNameChar c = true))
  | .mark _ => inferInstanceAs (Decidable False)
  | .inner _ _ => inferInstanceAs (Decidable False)

instance : DecidablePred TypeText.Misread := fun t =>
  inferInstanceAs (Decidable ((∃ p ∈ t.pieces, p.Stays) ∨
    t.varargs = true ∧ ∃ p ∈ t.pieces.getLast?, p.Goes))

end Decidable

/-! ## Reading one part -/

section Reading

variable {l rest segment : List Char} {c : Char}

/-- Marks are no name characters. -/
theorem isNameChar_of_mem_typeMarks (h : c ∈ typeMarks) : isNameChar c = false := by
  have hall : ∀ c ∈ typeMarks, isNameChar c = false := by decide
  exact hall c h

/-- A dot is no name character. -/
theorem isNameChar_dot : isNameChar '.' = false := by decide

/-- Marks are no dots. -/
theorem ne_dot_of_mem_typeMarks (h : c ∈ typeMarks) : c ≠ '.' := by
  have hall : ∀ c ∈ typeMarks, c ≠ '.' := by decide
  exact hall c h

/-- A name character waits for what follows. -/
theorem dropQualifiers_nameChar (h : isNameChar c = true) :
    dropQualifiers segment (c :: rest) = dropQualifiers (c :: segment) rest := by
  rw [dropQualifiers, if_pos h]

/-- Any other character lets what waits be put out, and is put out itself. -/
theorem dropQualifiers_other (h : isNameChar c = false) (hdot : c ≠ '.') :
    dropQualifiers segment (c :: rest) = segment.reverse ++ c :: dropQualifiers [] rest := by
  rw [dropQualifiers, if_neg (by simp [h]), if_neg fun hand => hdot hand.1]

/-- A dot drops what waits, with itself. -/
theorem dropQualifiers_dot (h : segment ≠ []) :
    dropQualifiers segment ('.' :: rest) = dropQualifiers [] rest := by
  rw [dropQualifiers, if_neg (by simp [isNameChar_dot]), if_pos ⟨rfl, h⟩]

/-- A dot behind nothing is put out. -/
theorem dropQualifiers_dot_alone :
    dropQualifiers [] ('.' :: rest) = '.' :: dropQualifiers [] rest := by
  rw [dropQualifiers, if_neg (by simp [isNameChar_dot]), if_neg fun hand => hand.2 rfl]
  rfl

/-- Name characters wait for what follows. -/
theorem dropQualifiers_nameChars (h : ∀ c ∈ l, isNameChar c = true) :
    dropQualifiers segment (l ++ rest) = dropQualifiers (l.reverse ++ segment) rest := by
  induction l generalizing segment with
  | nil => rfl
  | cons c l ih =>
    have hc : isNameChar c = true := h c List.mem_cons_self
    have hl : ∀ d ∈ l, isNameChar d = true := fun d hd => h d (List.mem_cons_of_mem c hd)
    rw [List.cons_append, dropQualifiers_nameChar hc, ih hl]
    simp

/-- Of a text without dots all is kept but the name characters at its end, which are kept too
unless a dot follows. -/
theorem dropQualifiers_segment (h : ∀ c ∈ l, c ≠ '.') :
    ∃ front run, l = front ++ run ∧ (∀ c ∈ run, isNameChar c = true) ∧
      (run = [] → ∀ c ∈ l.getLast?, isNameChar c = false) ∧
      ∀ rest, dropQualifiers [] (l ++ rest) = front ++ dropQualifiers run.reverse rest := by
  induction l using List.reverseRecOn with
  | nil => exact ⟨[], [], rfl, by simp, by simp, fun _ => rfl⟩
  | append_singleton l c ih =>
    obtain ⟨front, run, hl, hrun, -, hread⟩ := ih fun d hd => h d (List.mem_append_left _ hd)
    by_cases hc : isNameChar c = true
    · -- the run goes on
      refine ⟨front, run ++ [c], by rw [hl, List.append_assoc], ?_, by simp, ?_⟩
      · intro d hd
        rcases List.mem_append.1 hd with hd | hd
        · exact hrun d hd
        · rw [List.mem_singleton.1 hd]
          exact hc
      · intro rest
        rw [List.append_assoc, List.singleton_append, hread, dropQualifiers_nameChar hc,
          List.reverse_append, List.reverse_singleton, List.singleton_append]
    · -- the run is over and has been put out
      have hother : isNameChar c = false := Bool.eq_false_iff.mpr hc
      refine ⟨l ++ [c], [], by simp, by simp, fun _ => by simpa using hother, ?_⟩
      intro rest
      have hdot : c ≠ '.' := h c (by simp)
      rw [List.append_assoc, List.singleton_append, hread, dropQualifiers_other hother hdot,
        List.reverse_reverse, hl]
      simp

/-- Behind a text its name characters are not taken for a qualifier. -/
def Closes (rest : List Char) : Prop := rest = [] ∨ ∃ c ∈ typeMarks, ∃ more, rest = c :: more

/-- A text without dots is kept where no dot follows. -/
theorem dropQualifiers_closed (h : ∀ c ∈ l, c ≠ '.') (hrest : Closes rest) :
    dropQualifiers [] (l ++ rest) = l ++ dropQualifiers [] rest := by
  obtain ⟨front, run, rfl, -, -, hread⟩ := dropQualifiers_segment h
  rw [hread, List.append_assoc]
  congr 1
  rcases hrest with rfl | ⟨c, hc, more, rfl⟩
  · simp [dropQualifiers]
  · have hother : isNameChar c = false := isNameChar_of_mem_typeMarks hc
    have hdot : c ≠ '.' := ne_dot_of_mem_typeMarks hc
    rw [dropQualifiers_other hother hdot, dropQualifiers_other hother hdot, List.reverse_reverse]
    rfl

/-- A space is put out. -/
theorem dropQualifiers_gap (spaced : Bool) :
    dropQualifiers [] (gap spaced ++ rest) = gap spaced ++ dropQualifiers [] rest := by
  cases spaced with
  | false => rfl
  | true => exact dropQualifiers_other (by decide) (by decide)

end Reading

section Names

variable {n : DottedName} {q : Qualifier} {rest : List Char}

/-- A qualifier is read as one if it is made of name characters with its dot close behind. -/
theorem Qualifier.not_stays_iff : ¬ q.Stays ↔
    q.before = false ∧ q.behind = false ∧ ∀ c ∈ q.name.toList, isNameChar c = true := by
  unfold Stays
  simp only [not_or, Bool.not_eq_true, not_exists, not_and, Bool.not_eq_false]

/-- A qualifier of name characters with its dot close behind it is dropped. -/
theorem dropQualifiers_qualifier (h : IsSegment q.name) (hgoes : ¬ q.Stays) :
    dropQualifiers [] (q.chars ++ rest) = dropQualifiers [] rest := by
  obtain ⟨hbefore, hbehind, hchars⟩ := Qualifier.not_stays_iff.1 hgoes
  have hne : q.name.toList ≠ [] := fun hnil => h.1 (String.toList_eq_nil_iff.mp hnil)
  have htext : q.chars = q.name.toList ++ ['.'] := by
    rw [Qualifier.chars, hbefore, hbehind]
    simp [gap]
  rw [htext, List.append_assoc, dropQualifiers_nameChars hchars]
  exact dropQualifiers_dot (by simpa using hne)

/-- Qualifiers that are read as such are dropped, one after the other. -/
theorem dropQualifiers_qualifiers {qs : List Qualifier} (h : ∀ q ∈ qs, IsSegment q.name)
    (hgo : ∀ q ∈ qs, ¬ q.Stays) :
    dropQualifiers [] (qs.flatMap (·.chars) ++ rest) = dropQualifiers [] rest := by
  induction qs with
  | nil => rfl
  | cons q qs ih =>
    obtain ⟨hq, hqs⟩ := List.forall_mem_cons.mp h
    obtain ⟨hgoes, hgo⟩ := List.forall_mem_cons.mp hgo
    rw [List.flatMap_cons, List.append_assoc, dropQualifiers_qualifier hq hgoes, ih hqs hgo]

/-- Of a name whose qualifiers are read as such the last part is left, unless it is itself taken
for one. -/
theorem dropQualifiers_name (h : (TypePiece.name n).Legal) (hgo : ¬ (TypePiece.name n).Stays)
    (hrest : Closes rest ∨ ¬ (TypePiece.name n).Goes) :
    dropQualifiers [] (n.chars ++ rest) = n.last.toList ++ dropQualifiers [] rest := by
  obtain ⟨hlast, hqualifiers⟩ := h
  have hdots : ∀ c ∈ n.last.toList, c ≠ '.' := fun c hc => (hlast.2 c hc).1
  have hgo' : ∀ q ∈ n.qualifiers, ¬ q.Stays := fun q hq hstays => hgo ⟨q, hq, hstays⟩
  rw [DottedName.chars, List.append_assoc, dropQualifiers_qualifiers hqualifiers hgo']
  rcases hrest with hcloses | hkept
  · exact dropQualifiers_closed hdots hcloses
  · -- the name does not end in a name character, so nothing is waiting when it is over
    obtain ⟨front, run, hchars, hrun, -, hread⟩ := dropQualifiers_segment hdots
    have hnil : run = [] := by
      by_contra hne
      have hlastChar : n.last.toList.getLast? = some (run.getLast hne) := by
        rw [hchars, List.getLast?_append, List.getLast?_eq_some_getLast hne]
        rfl
      exact hkept ⟨_, hlastChar, hrun _ (List.getLast_mem hne)⟩
    rw [hread, hchars, hnil, List.append_nil]
    rfl

/-- A name that is taken for a qualifier is shorter afterwards. -/
theorem length_dropQualifiers_goes (h : (TypePiece.name n).Legal)
    (hgo : ¬ (TypePiece.name n).Stays) (hgoes : (TypePiece.name n).Goes) :
    (dropQualifiers [] (n.chars ++ ['.', '.', '.'])).length < n.last.toList.length + 3 := by
  obtain ⟨hlast, hqualifiers⟩ := h
  have hdots : ∀ c ∈ n.last.toList, c ≠ '.' := fun c hc => (hlast.2 c hc).1
  have hgo' : ∀ q ∈ n.qualifiers, ¬ q.Stays := fun q hq hstays => hgo ⟨q, hq, hstays⟩
  obtain ⟨front, run, hchars, -, hempty, hread⟩ := dropQualifiers_segment hdots
  have hne : run ≠ [] := by
    intro hnil
    obtain ⟨c, hc, hname⟩ := hgoes
    rw [hempty hnil c hc] at hname
    exact Bool.noConfusion hname
  have hend : dropQualifiers run.reverse ['.', '.', '.'] = ['.', '.'] := by
    rw [dropQualifiers_dot (by simpa using hne), dropQualifiers_dot_alone, dropQualifiers_dot_alone]
    rfl
  rw [DottedName.chars, List.append_assoc, dropQualifiers_qualifiers hqualifiers hgo', hread, hend,
    hchars]
  simp only [List.length_append, List.length_cons, List.length_nil]
  omega

end Names

/-! ## Reading all parts -/

section Pieces

variable {ps : List TypePiece} {rest : List Char}

/-- A part that is not a name begins with a mark. -/
theorem TypePiece.Legal.closes {p : TypePiece} (h : p.Legal) (hname : p.isName = false)
    (more : List Char) : Closes (p.chars ++ more) := by
  cases p with
  | name n => cases hname
  | mark c => exact .inr ⟨c, h, more, rfl⟩
  | inner before behind => exact .inr ⟨'>', by decide, _, rfl⟩

/-- Parts less the last are as they should be. -/
theorem LegalPieces.front {p : TypePiece} (h : LegalPieces (ps ++ [p])) : LegalPieces ps where
  legal := fun q hq => h.legal q (List.mem_append_left _ hq)
  apart := h.apart.left_of_append

/-- Parts less the first are as they should be. -/
theorem LegalPieces.tail {p : TypePiece} (h : LegalPieces (p :: ps)) : LegalPieces ps where
  legal := fun q hq => h.legal q (List.mem_cons_of_mem p hq)
  apart := h.apart.tail

/-- If every qualifier is read as one and the last part as it should, the names are left simple. -/
theorem dropQualifiers_pieces (h : LegalPieces ps) (hgo : ∀ p ∈ ps, ¬ p.Stays)
    (hrest : ∀ p ∈ ps.getLast?, p.isName = true → Closes rest ∨ ¬ p.Goes) :
    dropQualifiers [] (ps.flatMap (·.chars) ++ rest) =
      ps.flatMap (·.simple.chars) ++ dropQualifiers [] rest := by
  induction ps with
  | nil => rfl
  | cons p ps ih =>
    have htail : dropQualifiers [] (ps.flatMap (·.chars) ++ rest) =
        ps.flatMap (·.simple.chars) ++ dropQualifiers [] rest := by
      refine ih h.tail (fun q hq => hgo q (List.mem_cons_of_mem p hq)) ?_
      intro q hq
      refine hrest q ?_
      rw [List.getLast?_cons, hq]
      rfl
    rw [List.flatMap_cons, List.flatMap_cons, List.append_assoc, List.append_assoc, ← htail]
    have hlegal : p.Legal := h.legal p List.mem_cons_self
    cases p with
    | name n =>
      refine dropQualifiers_name hlegal (hgo _ List.mem_cons_self) ?_
      -- what follows the name is the rest, or a part that is not a name
      cases ps with
      | nil => exact hrest _ rfl rfl
      | cons q ps =>
        have hq : q.isName = false := by
          have hapart := (List.isChain_cons_cons.1 h.apart).1
          exact Bool.eq_false_iff.mpr fun hname => hapart ⟨rfl, hname⟩
        refine .inl ?_
        rw [List.flatMap_cons, List.append_assoc]
        exact (h.legal q (by simp)).closes hq _
    | mark c =>
      exact dropQualifiers_other (isNameChar_of_mem_typeMarks hlegal)
        (ne_dot_of_mem_typeMarks hlegal)
    | inner before behind =>
      simp only [TypePiece.simple, TypePiece.chars, List.cons_append, List.append_assoc]
      rw [dropQualifiers_other (by decide) (by decide), dropQualifiers_gap,
        dropQualifiers_dot_alone, dropQualifiers_gap]
      rfl

end Pieces

/-! ## What is left of a type -/

/-- A character that is neither part of a name nor a dot is always kept. -/
def isKept (c : Char) : Bool := !isNameChar c && c != '.'

/-- Dropping qualifiers keeps every character that is always kept. -/
theorem countP_dropQualifiers {segment : List Char} (h : ∀ c ∈ segment, isNameChar c = true)
    (l : List Char) : (dropQualifiers segment l).countP isKept = l.countP isKept := by
  -- name characters that wait hold nothing that is kept, whether they are dropped or not
  have hnone : ∀ {run : List Char}, (∀ c ∈ run, isNameChar c = true) →
      run.countP isKept = 0 := by
    intro run hrun
    rw [List.countP_eq_zero]
    intro c hc
    simp [isKept, hrun c hc]
  induction l generalizing segment with
  | nil =>
    rw [dropQualifiers, List.countP_reverse, hnone h, List.countP_nil]
  | cons c l ih =>
    by_cases hname : isNameChar c = true
    · have hsegment : ∀ d ∈ c :: segment, isNameChar d = true :=
        List.forall_mem_cons.mpr ⟨hname, h⟩
      have hgone : ¬ isKept c = true := by simp [isKept, hname]
      rw [dropQualifiers_nameChar hname, ih hsegment, List.countP_cons_of_neg hgone]
    · have hother : isNameChar c = false := Bool.eq_false_iff.mpr hname
      have hrest : (dropQualifiers [] l).countP isKept = l.countP isKept := ih (by simp)
      by_cases hdot : c = '.'
      · subst hdot
        rw [List.countP_cons_of_neg (by decide)]
        by_cases hsegment : segment = []
        · rw [hsegment, dropQualifiers_dot_alone, List.countP_cons_of_neg (by decide),
            hrest]
        · rw [dropQualifiers_dot hsegment, hrest]
      · have hkept : isKept c = true := by simp [isKept, hother, hdot]
        rw [dropQualifiers_other hother hdot, List.countP_append, List.countP_reverse, hnone h,
          List.countP_cons_of_pos hkept, List.countP_cons_of_pos hkept, hrest, Nat.zero_add]

/-- A qualifier that is not read as one holds a character that is kept. -/
theorem Qualifier.Stays.countP_pos {q : Qualifier} (h : q.Stays) (hq : IsSegment q.name) :
    0 < q.chars.countP isKept := by
  rw [List.countP_pos_iff]
  unfold chars
  rcases h with hbefore | hbehind | ⟨c, hc, hother⟩
  · exact ⟨' ', by simp [gap, hbefore], by decide⟩
  · exact ⟨' ', by simp [gap, hbehind], by decide⟩
  · exact ⟨c, by simp [hc], by simp [isKept, hother, (hq.2 c hc).1]⟩

section Left

variable {t : TypeText}

/-- What is left of the characters of a type. -/
def TypeText.left (t : TypeText) : List Char := dropQualifiers [] t.chars

/-- A type is shown as what is left of its characters. -/
theorem presentableType_text (t : TypeText) : presentableType t.text = String.ofList t.left := by
  rw [presentableType, TypeText.text, String.toList_ofList, TypeText.left]

/-- The characters of a type with simple names. -/
theorem TypeText.chars_simple (t : TypeText) :
    t.simple.chars = t.pieces.flatMap (·.simple.chars) ++ t.ending := by
  show (t.pieces.map (·.simple)).flatMap (·.chars) ++ t.ending = _
  rw [List.flatMap_map]

/-- With its name simple, a part holds no more characters of any kind. -/
theorem countP_simple_piece_le (p : TypePiece) (f : Char → Bool) :
    p.simple.chars.countP f ≤ p.chars.countP f := by
  cases p with
  | name n =>
    show (DottedName.chars { last := n.last }).countP f ≤ n.chars.countP f
    simp only [DottedName.chars, List.flatMap_nil, List.nil_append, List.countP_append]
    omega
  | mark c => exact Nat.le_refl _
  | inner before behind => exact Nat.le_refl _

/-- A name with a qualifier that stays holds more of what is kept than its last part. -/
theorem TypePiece.Legal.countP_simple_lt {p : TypePiece} (h : p.Legal) (hstays : p.Stays) :
    p.simple.chars.countP isKept < p.chars.countP isKept := by
  cases p with
  | name n =>
    obtain ⟨q, hq, hstays⟩ := hstays
    have hpos : 0 < q.chars.countP isKept := hstays.countP_pos (h.2 q hq)
    have hle : q.chars.countP isKept ≤ (n.qualifiers.flatMap (·.chars)).countP isKept := by
      rw [List.countP_flatMap]
      exact List.single_le_sum (by simp) _ (List.mem_map_of_mem hq)
    show (DottedName.chars { last := n.last }).countP isKept < n.chars.countP isKept
    simp only [DottedName.chars, List.flatMap_nil, List.nil_append, List.countP_append]
    omega
  | mark c => exact hstays.elim
  | inner before behind => exact hstays.elim

/-- A type is not shorter of what is kept than it should be, and longer if a qualifier stays. -/
theorem countP_kept_le (h : t.Legal) :
    t.simple.chars.countP isKept ≤ t.left.countP isKept ∧
      ((∃ p ∈ t.pieces, p.Stays) →
        t.simple.chars.countP isKept < t.left.countP isKept) := by
  have hleft : t.left.countP isKept = t.chars.countP isKept := countP_dropQualifiers (by simp) _
  rw [hleft, TypeText.chars_simple, TypeText.chars]
  simp only [List.countP_append, List.countP_flatMap]
  constructor
  · refine Nat.add_le_add_right (List.sum_le_sum ?_) _
    intro p _
    exact countP_simple_piece_le p isKept
  · rintro ⟨p, hp, hstays⟩
    refine Nat.add_lt_add_right (List.sum_lt_sum _ _ ?_ ⟨p, hp, ?_⟩) _
    · intro p _
      exact countP_simple_piece_le p isKept
    · exact (h.pieces.legal p hp).countP_simple_lt hstays

/-- If all qualifiers are read as such, a type is as it should be, or shorter if the name at its end
is taken for one. -/
theorem left_of_no_stays (h : t.Legal) (hgo : ∀ p ∈ t.pieces, ¬ p.Stays) :
    (¬ t.Misread → t.left = t.simple.chars) ∧
      (t.Misread → t.left.length < t.simple.chars.length) := by
  have hnil : dropQualifiers [] t.ending = t.ending := by
    unfold TypeText.ending
    cases t.varargs with
    | false => rfl
    | true => decide
  rw [TypeText.chars_simple, TypeText.left, TypeText.chars]
  constructor
  · intro hread
    rw [dropQualifiers_pieces h.pieces hgo, hnil]
    intro p hp _
    by_cases hvarargs : t.varargs = true
    · exact .inr fun hgoes => hread (.inr ⟨hvarargs, p, hp, hgoes⟩)
    · exact .inl (.inl (if_neg hvarargs))
  · rintro (⟨p, hp, hstays⟩ | ⟨hvarargs, p, hp, hgoes⟩)
    · exact absurd hstays (hgo p hp)
    · obtain ⟨n, rfl⟩ : ∃ n, p = .name n := by
        cases p with
        | name n => exact ⟨n, rfl⟩
        | mark c => exact hgoes.elim
        | inner before behind => exact hgoes.elim
      -- what is in front of the name at the end is read as it should
      obtain ⟨ps, hps⟩ : ∃ ps, t.pieces = ps ++ [.name n] := List.getLast?_eq_some_iff.1 hp
      have hlegal : LegalPieces (ps ++ [.name n]) := hps ▸ h.pieces
      have hmem : TypePiece.name n ∈ t.pieces := List.mem_of_getLast? hp
      have hend : t.ending = ['.', '.', '.'] := if_pos hvarargs
      have hfront : dropQualifiers [] (ps.flatMap (·.chars) ++ (n.chars ++ ['.', '.', '.'])) =
          ps.flatMap (·.simple.chars) ++ dropQualifiers [] (n.chars ++ ['.', '.', '.']) := by
        refine dropQualifiers_pieces hlegal.front (fun q hq => hgo q (by simp [hps, hq])) ?_
        -- the part in front of the name is no name itself
        intro q hq hname
        obtain ⟨front, rfl⟩ := List.getLast?_eq_some_iff.1 hq
        have hapart : ¬ (q.isName = true ∧ (TypePiece.name n).isName = true) := by
          have hchain := hlegal.apart
          rw [List.append_assoc] at hchain
          exact (List.isChain_cons_cons.1 hchain.right_of_append).1
        exact absurd ⟨hname, rfl⟩ hapart
      have hshort := length_dropQualifiers_goes (h.pieces.legal _ hmem) (hgo _ hmem) hgoes
      have hname : (TypePiece.name n).simple.chars = n.last.toList := rfl
      rw [hps, hend, List.flatMap_append, List.flatMap_append, List.append_assoc,
        List.flatMap_singleton, List.flatMap_singleton, TypePiece.chars, hfront, hname]
      simp only [List.length_append, List.length_cons, List.length_nil] at hshort ⊢
      omega

/-- What is left is the type with simple names exactly if nothing is misread. -/
theorem left_eq_simple_iff (h : t.Legal) : t.left = t.simple.chars ↔ ¬ t.Misread := by
  constructor
  · intro heq hmisread
    by_cases hstays : ∃ p ∈ t.pieces, p.Stays
    · have hlt := (countP_kept_le h).2 hstays
      rw [heq] at hlt
      exact Nat.lt_irrefl _ hlt
    · have hlt := (left_of_no_stays h fun p hp hs => hstays ⟨p, hp, hs⟩).2 hmisread
      rw [heq] at hlt
      exact Nat.lt_irrefl _ hlt
  · intro hread
    exact (left_of_no_stays h fun p hp hs => hread (.inl ⟨p, hp, hs⟩)).1 hread

end Left

/-! ## Signatures -/

/-- A signature in which the parameters have types of these texts. -/
def signatureWith (m : Member) (types : List String) : String :=
  (m.type.map IndexView.typeNames.short).getD "void" ++ " " ++ m.name ++ "(" ++
    ", ".intercalate (List.zipWith (fun type p => type ++ " " ++ p.name) types m.params) ++ ")"

section Signature

variable {m : Member} {ts : List TypeText}

/-- No white space stands around a type, and it is not empty. -/
theorem trim_text {t : TypeText} (h : t.Legal) : trim t.text = t.text ∧ t.text ≠ "" := by
  have htight : Tight t.text.toList := by
    rw [TypeText.text, String.toList_ofList]
    exact h.tight
  exact ⟨trim_eq_self htight, htight.ne_empty⟩

/-- A type reference is shown as what is left of its characters. -/
theorem short_of_text {type : TypeRef} {t : TypeText} (h : type.text = t.text) (ht : t.Legal) :
    IndexView.typeNames.short type = String.ofList t.left := by
  obtain ⟨htrim, hne⟩ := trim_text ht
  have hpresentable : IndexView.typeNames.presentable type = .ok (presentableType t.text) := by
    simp only [IndexView.typeNames, h, htrim, String.isEmpty_iff, hne, if_false]
  rw [TypeNames.short, hpresentable, presentableType_text]

/-- A signature shows each parameter with what is left of its type. -/
theorem signature_eq (h : List.Forall₂ (fun p t => p.type.text = t.text ∧ t.Legal) m.params ts) :
    signature IndexView.typeNames m = signatureWith m (ts.map fun t => String.ofList t.left) := by
  -- parameter by parameter, each with the type at its place
  have hparams : ∀ {ps : List Param} {ts : List TypeText},
      List.Forall₂ (fun p t => p.type.text = t.text ∧ t.Legal) ps ts →
        (ps.map fun p => IndexView.typeNames.short p.type ++ " " ++ p.name) =
          List.zipWith (fun type p => type ++ " " ++ p.name)
            (ts.map fun t => String.ofList t.left) ps := by
    intro ps ts hps
    induction hps with
    | nil => rfl
    | cons hp _ ih =>
      rw [List.map_cons, List.map_cons, List.zipWith_cons_cons, ih, short_of_text hp.1 hp.2]
  rw [signatureWith, ← hparams h]
  simp only [signature, toString, String.append_assoc]

/-- Apart from its types a signature always holds as many characters of a kind. -/
theorem exists_countP_signatureWith (m : Member) (f : Char → Bool) :
    ∃ others, ∀ types : List String, types.length = m.params.length →
      (signatureWith m types).toList.countP f =
        others + (types.map (·.toList.countP f)).sum := by
  have hparams : ∀ ps : List Param, ∃ others, ∀ types : List String, types.length = ps.length →
      (", ".intercalate (List.zipWith (fun type p => type ++ " " ++ p.name) types ps)).toList.countP
        f = others + (types.map (·.toList.countP f)).sum := by
    intro ps
    induction ps with
    | nil =>
      refine ⟨0, fun types hlength => ?_⟩
      rw [List.length_eq_zero_iff.1 hlength]
      rfl
    | cons p ps ih =>
      obtain ⟨others, hothers⟩ := ih
      cases ps with
      | nil =>
        refine ⟨(" " ++ p.name).toList.countP f, fun types hlength => ?_⟩
        obtain ⟨type, rfl⟩ := List.length_eq_one_iff.1 hlength
        simp only [List.zipWith_cons_cons, List.zipWith_nil_left, String.intercalate_singleton,
          String.toList_append, List.countP_append, List.map_cons, List.map_nil, List.sum_cons,
          List.sum_nil]
        omega
      | cons p' ps =>
        -- the name of the parameter and the comma behind it come on top
        refine ⟨(" " ++ p.name ++ ", ").toList.countP f + others, fun types hlength => ?_⟩
        obtain ⟨type, types, rfl⟩ := List.exists_cons_of_length_eq_add_one hlength
        have hrest := hothers types (by simpa using hlength)
        obtain ⟨type', types, rfl⟩ := List.exists_cons_of_length_eq_add_one
          (show types.length = ps.length + 1 by simpa using hlength)
        rw [List.zipWith_cons_cons] at hrest
        rw [List.zipWith_cons_cons, List.zipWith_cons_cons, String.intercalate_cons_cons]
        simp only [String.toList_append, List.countP_append, List.map_cons, List.sum_cons]
          at hrest ⊢
        omega
  obtain ⟨others, hothers⟩ := hparams m.params
  refine ⟨((m.type.map IndexView.typeNames.short).getD "void" ++ " " ++ m.name ++ "(" ++
    ")").toList.countP f + others, fun types hlength => ?_⟩
  have hinside := hothers types hlength
  simp only [signatureWith, String.toList_append, List.countP_append] at hinside ⊢
  omega

/-- Of two signatures with the types of one list, one as they are left and one as they should be,
neither holds more characters of a kind. -/
theorem sum_countP_eq (hlength : ts.length = m.params.length)
    (heq : signatureWith m (ts.map fun t => String.ofList t.left) =
      signatureWith m (ts.map (·.simple.text))) (f : Char → Bool) :
    (ts.map (·.left.countP f)).sum = (ts.map (·.simple.chars.countP f)).sum := by
  obtain ⟨others, hothers⟩ := exists_countP_signatureWith m f
  have hleft := hothers (ts.map fun t => String.ofList t.left) (by simpa using hlength)
  have hsimple := hothers (ts.map (·.simple.text)) (by simpa using hlength)
  rw [heq, hsimple] at hleft
  simp only [List.map_map, Function.comp_def, String.toList_ofList, TypeText.text] at hleft
  omega

/-- A signature shows all types as they should be exactly if none is misread. -/
theorem signatureWith_eq_iff (hlength : ts.length = m.params.length) (h : ∀ t ∈ ts, t.Legal) :
    signatureWith m (ts.map fun t => String.ofList t.left) =
      signatureWith m (ts.map (·.simple.text)) ↔ ∀ t ∈ ts, ¬ t.Misread := by
  constructor
  · intro heq
    -- no qualifier stays, since then more would be kept
    have hgo : ∀ t ∈ ts, ¬ ∃ p ∈ t.pieces, p.Stays := by
      intro t ht hstays
      have hlt := List.sum_lt_sum (fun t => t.simple.chars.countP isKept)
        (fun t => t.left.countP isKept) (fun t ht => (countP_kept_le (h t ht)).1)
        ⟨t, ht, (countP_kept_le (h t ht)).2 hstays⟩
      have hsum := sum_countP_eq hlength heq isKept
      omega
    -- no name goes, since then some type would be shorter, and none is longer
    intro t ht hmisread
    have hread : ∀ t ∈ ts, t.left.length ≤ t.simple.chars.length := by
      intro t ht
      have hcases := left_of_no_stays (h t ht) fun p hp hs => hgo t ht ⟨p, hp, hs⟩
      by_cases hmisread : t.Misread
      · exact Nat.le_of_lt (hcases.2 hmisread)
      · exact Nat.le_of_eq (congrArg List.length (hcases.1 hmisread))
    have hshorter : t.left.length < t.simple.chars.length :=
      (left_of_no_stays (h t ht) fun p hp hs => hgo t ht ⟨p, hp, hs⟩).2 hmisread
    have hlt := List.sum_lt_sum (fun t => t.left.length) (fun t => t.simple.chars.length) hread
      ⟨t, ht, hshorter⟩
    have hsum := sum_countP_eq hlength heq fun _ => true
    simp only [List.countP_true] at hsum
    omega
  · intro hread
    have hmap : ts.map (fun t => String.ofList t.left) = ts.map (·.simple.text) := by
      refine List.map_congr_left fun t ht => ?_
      rw [(left_eq_simple_iff (h t ht)).2 (hread t ht), TypeText.text]
    rw [hmap]

end Signature

/-- A type is shown with its names simple and all else as it was, brackets and dots for any number
of arguments included, exactly if all its qualifiers are made of name characters with their dots
close behind them and no name stands right in front of dots at the end. A signature shows the types
of all its parameters so exactly if this is so of each of them. -/
theorem presentableType_eq_simple_iff (t : TypeText) (ht : t.Legal) (m : Member)
    (ts : List TypeText)
    (hparams : List.Forall₂ (fun p t => p.type.text = t.text ∧ t.Legal) m.params ts) :
    (presentableType t.text = t.simple.text ↔ ¬ t.Misread) ∧
      (signature IndexView.typeNames m = signatureWith m (ts.map (·.simple.text)) ↔
        ∀ t ∈ ts, ¬ t.Misread) := by
  constructor
  · rw [presentableType_text, TypeText.text, String.ofList_inj]
    exact left_eq_simple_iff ht
  · have hlegal : ∀ t ∈ ts, t.Legal := by
      intro t ht
      obtain ⟨i, hi, rfl⟩ := List.getElem_of_mem ht
      exact (hparams.get (by rw [hparams.length_eq]; exact hi) hi).2
    rw [signature_eq hparams]
    exact signatureWith_eq_iff hparams.length_eq.symm hlegal

/-! Two methods, with a generic array and a plain name in front of their dots. -/

/-- A method `put` with one parameter. -/
def putMethod (type : String) : Member :=
  { kind := .method
    name := "put"
    owner := "p.A"
    type := some { text := "void" }
    params := [{ name := "all", type := { text := type }, varargs := true }] }

/-- The type `java.util.Map<String, ? extends p.T>[]...`. -/
def mapsText : TypeText :=
  { pieces :=
      [.name { qualifiers := [{ name := "java" }, { name := "util" }], last := "Map" }, .mark '<',
        .name { last := "String" }, .mark ',', .mark ' ', .mark '?', .mark ' ',
        .name { last := "extends" }, .mark ' ',
        .name { qualifiers := [{ name := "p" }], last := "T" }, .mark '>', .mark '[', .mark ']']
    varargs := true }

/-- The type `String...`. -/
def stringsText : TypeText :=
  { pieces := [.name { last := "String" }]
    varargs := true }

/-- The type with packages in it is as it should be. -/
theorem legal_mapsText : mapsText.Legal where
  pieces := ⟨by decide, by decide⟩
  tight :=
    ⟨⟨'j', _, rfl, by decide⟩, ⟨mapsText.chars.dropLast, '.', rfl, by decide⟩⟩

/-- Packages are dropped, in a type and in a signature; brackets and dots stay. -/
theorem presentableType_eq_simple_maps :
    mapsText.Legal ∧ ¬ mapsText.Misread ∧
      presentableType "java.util.Map<String, ? extends p.T>[]..." =
        "Map<String, ? extends T>[]..." ∧
      signature IndexView.typeNames (putMethod "java.util.Map<String, ? extends p.T>[]...") =
        "void put(Map<String, ? extends T>[]... all)" := by
  have hread : ¬ mapsText.Misread := by decide
  obtain ⟨htype, hsignature⟩ := presentableType_eq_simple_iff mapsText legal_mapsText
    (putMethod _) [mapsText] (.cons ⟨rfl, legal_mapsText⟩ .nil)
  exact ⟨legal_mapsText, hread, htype.2 hread, hsignature.2 (by simpa using hread)⟩

/-- A name is lost in front of the dots for any number of arguments. -/
theorem name_lost_before_dots :
    stringsText.Legal ∧ stringsText.text = "String..." ∧ stringsText.simple.text = "String..." ∧
      presentableType "String..." = ".." ∧
      signature IndexView.typeNames (putMethod "String...") = "void put(.. all)" := by
  have htight : Tight stringsText.chars := tight_of_forall (by decide) (by decide)
  refine ⟨⟨⟨by decide, by decide⟩, htight⟩, rfl, rfl, ?_, ?_⟩
  · decide
  · decide

end JavaAtlas.Java
