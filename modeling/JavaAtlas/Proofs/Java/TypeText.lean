import JavaAtlas.Java.TypeText
import Mathlib.Data.List.TakeWhile

namespace JavaAtlas.Java

/-! # Types and their text

`TypeForm` is a type as it can be told from its canonical text: names, type arguments in angle
brackets, array brackets and wildcards, nested to any depth. What the index reads off such a text,
without a parser, is what the form says.

* `erase_render`: the name at the head;
* `typeArgs_render`: the type arguments, in their order;
* `boundOf?_render`: the type for which an argument stands;
* `read_back_render`: all three.
-/

/-! ## Forms of types -/

mutual

/-- A type. -/
inductive TypeForm where
  | named (name : String)
  | generic (name : String) (args : List TypeArg)
  | array (element : TypeForm)

/-- A type argument. -/
inductive TypeArg where
  | type (t : TypeForm)
  /-- A wildcard without bound. -/
  | unbounded
  /-- A wildcard with an upper bound. -/
  | upper (bound : TypeForm)
  /-- A wildcard with a lower bound. -/
  | lower (bound : TypeForm)

end

mutual

/-- The canonical text of a type. -/
def TypeForm.render : TypeForm → String
  | .named name => name
  | .generic name args => name ++ "<" ++ ",".intercalate (renderArgs args) ++ ">"
  | .array element => element.render ++ "[]"

/-- The canonical text of a type argument. -/
def TypeArg.render : TypeArg → String
  | .type t => t.render
  | .unbounded => "?"
  | .upper bound => "? extends " ++ bound.render
  | .lower bound => "? super " ++ bound.render

/-- The canonical texts of type arguments. -/
def renderArgs : List TypeArg → List String
  | [] => []
  | a :: args => a.render :: renderArgs args

end

/-- The texts of arguments are those of each argument. -/
theorem renderArgs_eq_map (args : List TypeArg) : renderArgs args = args.map (·.render) := by
  induction args with
  | nil => rfl
  | cons a args ih => rw [renderArgs, ih, List.map_cons]

/-- Pairs of array brackets. -/
def brackets : Nat → String
  | 0 => ""
  | n + 1 => brackets n ++ "[]"

namespace TypeForm

/-- The name at the head of a type, or of what it is an array of. -/
def head : TypeForm → String
  | .named name => name
  | .generic name _ => name
  | .array element => element.head

/-- How many pairs of array brackets a type has at its end. -/
def rank : TypeForm → Nat
  | .named _ => 0
  | .generic _ _ => 0
  | .array element => element.rank + 1

/-- The type arguments at the head of a type, or of what it is an array of. -/
def args : TypeForm → List TypeArg
  | .named _ => []
  | .generic _ args => args
  | .array element => element.args

end TypeForm

/-- The type for which an argument stands: itself or its bound. -/
def TypeArg.bound? : TypeArg → Option TypeForm
  | .type t => some t
  | .unbounded => none
  | .upper bound => some bound
  | .lower bound => some bound

/-! ## Legal names -/

/-- A character of a type's name, dots included. -/
def isTypeNameChar (c : Char) : Bool := !isBlank c && !(['<', '>', '[', ']', ',', '?'].contains c)

/-- The name of a type, simple or dotted. -/
def IsTypeName (name : String) : Prop := name ≠ "" ∧ name.toList.all isTypeNameChar = true

instance : DecidablePred IsTypeName := fun _ => inferInstanceAs (Decidable (_ ∧ _))

mutual

/-- All names of a type are names. -/
def TypeForm.Legal : TypeForm → Prop
  | .named name => IsTypeName name
  | .generic name args => IsTypeName name ∧ AllLegal args
  | .array element => element.Legal

/-- All names of a type argument are names. -/
def TypeArg.Legal : TypeArg → Prop
  | .type t => t.Legal
  | .unbounded => True
  | .upper bound => bound.Legal
  | .lower bound => bound.Legal

/-- All names of type arguments are names. -/
def AllLegal : List TypeArg → Prop
  | [] => True
  | a :: args => a.Legal ∧ AllLegal args

end

/-- Arguments are legal if each of them is. -/
theorem allLegal_iff {args : List TypeArg} : AllLegal args ↔ ∀ a ∈ args, a.Legal := by
  induction args with
  | nil => simp [AllLegal]
  | cons a args ih => rw [AllLegal, ih, List.forall_mem_cons]

section Names

variable {name : String} (h : IsTypeName name)
include h

/-- There is no white space in a name. -/
theorem IsTypeName.not_blank {c : Char} (hc : c ∈ name.toList) : isBlank c = false := by
  have hchar := List.all_eq_true.mp h.2 c hc
  rw [isTypeNameChar, Bool.and_eq_true, Bool.not_eq_true'] at hchar
  exact hchar.1

/-- There are no brackets, commas or question marks in a name. -/
theorem IsTypeName.ne {c d : Char} (hc : c ∈ name.toList)
    (hd : d ∈ ['<', '>', '[', ']', ',', '?']) : c ≠ d := by
  rintro rfl
  have hchar := List.all_eq_true.mp h.2 c hc
  rw [isTypeNameChar, List.contains_iff_mem.mpr hd] at hchar
  simp at hchar

/-- A name is not empty. -/
theorem IsTypeName.toList_ne_nil : name.toList ≠ [] := by
  intro hnil
  exact h.1 (String.toList_eq_nil_iff.mp hnil)

end Names

/-! ## White space around a text -/

/-- A text begins with a character that is not white space. -/
def Begins (l : List Char) : Prop := ∃ c rest, l = c :: rest ∧ isBlank c = false

/-- A text ends with a character that is not white space. -/
def Ends (l : List Char) : Prop := ∃ front c, l = front ++ [c] ∧ isBlank c = false

/-- A text has no white space around it, and is not empty. -/
structure Tight (l : List Char) : Prop where
  begins : Begins l
  ends : Ends l

section Tight

variable {l m : List Char}

/-- What follows does not change how a text begins. -/
theorem Begins.append (h : Begins l) (m : List Char) : Begins (l ++ m) := by
  obtain ⟨c, rest, rfl, hc⟩ := h
  exact ⟨c, rest ++ m, rfl, hc⟩

/-- What comes before does not change how a text ends. -/
theorem Ends.append (h : Ends m) (l : List Char) : Ends (l ++ m) := by
  obtain ⟨front, c, rfl, hc⟩ := h
  exact ⟨l ++ front, c, (List.append_assoc l front [c]).symm, hc⟩

/-- A text without any white space has none around it. -/
theorem tight_of_forall (hne : l ≠ []) (h : ∀ c ∈ l, isBlank c = false) : Tight l where
  begins := by
    obtain ⟨c, rest, rfl⟩ := List.exists_cons_of_ne_nil hne
    exact ⟨c, rest, rfl, h c List.mem_cons_self⟩
  ends := ⟨l.dropLast, l.getLast hne, (List.dropLast_concat_getLast hne).symm,
    h _ (List.getLast_mem hne)⟩

/-- Trimming changes nothing where there is no white space around a text. -/
theorem trim_eq_self {text : String} (h : Tight text.toList) : trim text = text := by
  obtain ⟨hbegins, hends⟩ := h
  have hstart : trimStart text = text := by
    obtain ⟨c, rest, hl, hc⟩ := hbegins
    have hdrop : text.toList.dropWhile isBlank = text.toList := by
      rw [hl, List.dropWhile_cons_of_neg (by simp [hc])]
    rw [trimStart, hdrop, String.ofList_toList]
  obtain ⟨front, c, hl, hc⟩ := hends
  have hdrop : text.toList.reverse.dropWhile isBlank = text.toList.reverse := by
    rw [hl, List.reverse_concat, List.dropWhile_cons_of_neg (by simp [hc])]
  rw [trim, hstart, trimEnd, hdrop, List.reverse_reverse, String.ofList_toList]

/-- A text that begins and ends with something is not empty. -/
theorem Tight.ne_empty {text : String} (h : Tight text.toList) : text ≠ "" := by
  rintro rfl
  obtain ⟨c, rest, hcons, -⟩ := h.begins
  cases hcons

end Tight

/-! ## Splitting at commas -/

/-- A text is passed over as part of one argument wherever at least `least` brackets are open. -/
def Passed (least : Nat) (l : List Char) : Prop :=
  ∀ arg depth rest, least ≤ depth →
    splitArgs arg depth (l ++ rest) = splitArgs (l.reverse ++ arg) depth rest

section Passed

variable {least : Nat} {l m : List Char}

/-- Nothing is passed over at once. -/
theorem passed_nil : Passed least [] := fun _ _ _ _ => rfl

/-- Texts that are passed over one after the other are passed over together. -/
theorem Passed.append (hl : Passed least l) (hm : Passed least m) : Passed least (l ++ m) := by
  intro arg depth rest hdepth
  rw [List.append_assoc, hl arg depth _ hdepth, hm _ depth rest hdepth, List.reverse_append,
    List.append_assoc]

/-- What is passed over outside of brackets is passed over inside of them. -/
theorem Passed.mono (h : Passed 0 l) : Passed least l :=
  fun arg depth rest _ => h arg depth rest (Nat.zero_le depth)

/-- A character that is no comma and no bracket is passed over. -/
theorem passed_char {c : Char} (hcomma : c ≠ ',') (hopen : c ≠ '<') (hclose : c ≠ '>') :
    Passed 0 [c] := by
  intro arg depth rest _
  show splitArgs arg depth (c :: rest) = splitArgs (c :: arg) depth rest
  rw [splitArgs, if_neg (fun h => hcomma h.1), if_neg hopen, if_neg hclose]

/-- A text without commas and brackets is passed over. -/
theorem passed_chars (h : ∀ c ∈ l, c ≠ ',' ∧ c ≠ '<' ∧ c ≠ '>') : Passed 0 l := by
  induction l with
  | nil => exact passed_nil
  | cons c l ih =>
    obtain ⟨hcomma, hopen, hclose⟩ := h c List.mem_cons_self
    exact (passed_char hcomma hopen hclose).append
      (ih fun d hd => h d (List.mem_cons_of_mem c hd))

/-- Inside of brackets a comma is passed over. -/
theorem passed_comma : Passed 1 [','] := by
  intro arg depth rest hdepth
  show splitArgs arg depth (',' :: rest) = splitArgs (',' :: arg) depth rest
  rw [splitArgs, if_neg (fun h => by omega), if_neg (by decide), if_neg (by decide)]

/-- Commas inside brackets do not count. -/
theorem passed_brackets (h : Passed 1 l) : Passed 0 ('<' :: l ++ ['>']) := by
  intro arg depth rest _
  have hopen : splitArgs arg depth ('<' :: (l ++ ('>' :: rest))) =
      splitArgs ('<' :: arg) (depth + 1) (l ++ ('>' :: rest)) := by
    rw [splitArgs, if_neg (fun h => by simp at h), if_pos rfl]
  have hclose : splitArgs (l.reverse ++ '<' :: arg) (depth + 1) ('>' :: rest) =
      splitArgs ('>' :: (l.reverse ++ '<' :: arg)) depth rest := by
    rw [splitArgs, if_neg (fun h => by simp at h), if_neg (by decide), if_pos rfl]
    rfl
  calc splitArgs arg depth ('<' :: l ++ ['>'] ++ rest)
      = splitArgs arg depth ('<' :: (l ++ ('>' :: rest))) := by simp
    _ = splitArgs ('<' :: arg) (depth + 1) (l ++ ('>' :: rest)) := hopen
    _ = splitArgs (l.reverse ++ '<' :: arg) (depth + 1) ('>' :: rest) :=
        h _ _ _ (Nat.le_add_left 1 depth)
    _ = splitArgs ('>' :: (l.reverse ++ '<' :: arg)) depth rest := hclose
    _ = splitArgs (('<' :: l ++ ['>']).reverse ++ arg) depth rest := by simp

/-- Inside of brackets arguments are passed over with the commas between them. -/
theorem passed_intercalate {ls : List (List Char)} (h : ∀ l ∈ ls, Passed 0 l) :
    Passed 1 ([','].intercalate ls) := by
  induction ls with
  | nil => exact passed_nil
  | cons l ls ih =>
    have hl : Passed 1 l := (h l List.mem_cons_self).mono
    have hls := ih fun m hm => h m (List.mem_cons_of_mem l hm)
    cases ls with
    | nil => simpa using hl
    | cons m ls =>
      rw [List.intercalate_cons_cons]
      exact (hl.append passed_comma).append hls

/-- Arguments are told apart at the commas between them. -/
theorem splitArgs_intercalate {ls : List (List Char)} (hne : ls ≠ []) (h : ∀ l ∈ ls, Passed 0 l) :
    splitArgs [] 0 ([','].intercalate ls) = ls := by
  induction ls with
  | nil => exact absurd rfl hne
  | cons l ls ih =>
    have hl := h l List.mem_cons_self
    cases ls with
    | nil =>
      have hlast := hl [] 0 [] (Nat.le_refl 0)
      rw [List.append_nil, List.append_nil] at hlast
      rw [List.intercalate_singleton, hlast, splitArgs, List.reverse_reverse]
    | cons m ls =>
      -- no bracket is open behind the first argument, so the comma ends it
      have hcomma : splitArgs l.reverse 0 (',' :: [','].intercalate (m :: ls)) =
          l :: splitArgs [] 0 ([','].intercalate (m :: ls)) := by
        rw [splitArgs, if_pos ⟨rfl, rfl⟩, List.reverse_reverse]
      have hfirst := hl [] 0 (',' :: [','].intercalate (m :: ls)) (Nat.le_refl 0)
      rw [List.append_nil] at hfirst
      rw [List.intercalate_cons_cons, List.append_assoc, List.singleton_append, hfirst, hcomma,
        ih (by simp) fun k hk => h k (List.mem_cons_of_mem l hk)]

end Passed

/-! ## Texts of types -/

/-- The text of a type with arguments: its name, and the arguments in brackets. -/
theorem toList_render_generic (name : String) (args : List TypeArg) :
    (TypeForm.generic name args).render.toList =
      name.toList ++ ('<' :: [','].intercalate (args.map (·.render.toList)) ++ ['>']) := by
  rw [TypeForm.render, renderArgs_eq_map]
  simp only [String.toList_append, String.toList_intercalate, List.map_map, List.append_assoc]
  rfl

/-- The text of an array type: that of its elements, and brackets. -/
theorem toList_render_array (element : TypeForm) :
    (TypeForm.array element).render.toList = element.render.toList ++ ['[', ']'] := by
  rw [TypeForm.render, String.toList_append]
  rfl

/-- There is no white space around a name. -/
theorem tight_name {name : String} (h : IsTypeName name) : Tight name.toList :=
  tight_of_forall h.toList_ne_nil fun _ hc => h.not_blank hc

/-- A name is passed over. -/
theorem passed_name {name : String} (h : IsTypeName name) : Passed 0 name.toList :=
  passed_chars fun _ hc =>
    ⟨h.ne hc (by decide), h.ne hc (by decide), h.ne hc (by decide)⟩

mutual

/-- A type is passed over as part of one argument. -/
theorem passed_render : ∀ {t : TypeForm}, t.Legal → Passed 0 t.render.toList
  | .named _, h => passed_name h
  | .generic name args, h => by
    rw [toList_render_generic]
    refine (passed_name h.1).append (passed_brackets (passed_intercalate ?_))
    rw [List.forall_mem_map]
    exact passed_renderArgs h.2
  | .array element, h => by
    rw [toList_render_array]
    exact (passed_render (t := element) h).append (passed_chars (by simp))

/-- An argument is passed over as one argument. -/
theorem passed_renderArg : ∀ {a : TypeArg}, a.Legal → Passed 0 a.render.toList
  | .type t, h => passed_render (t := t) h
  | .unbounded, _ => passed_chars (l := ['?']) (by simp)
  | .upper bound, h => by
    rw [TypeArg.render, String.toList_append]
    exact (passed_chars (by simp)).append (passed_render (t := bound) h)
  | .lower bound, h => by
    rw [TypeArg.render, String.toList_append]
    exact (passed_chars (by simp)).append (passed_render (t := bound) h)

/-- Each of some arguments is passed over as one argument. -/
theorem passed_renderArgs : ∀ {args : List TypeArg}, AllLegal args →
    ∀ a ∈ args, Passed 0 a.render.toList
  | [], _ => by simp
  | a :: args, h =>
    List.forall_mem_cons.mpr ⟨passed_renderArg h.1, passed_renderArgs h.2⟩

end

section Form

/-- A type is a name, with type arguments or without, and brackets behind it. -/
theorem render_cases : ∀ t : TypeForm,
    (t.args = [] ∧ t.render = t.head ++ brackets t.rank) ∨
      t.render = (TypeForm.generic t.head t.args).render ++ brackets t.rank
  | .named name => .inl ⟨rfl, String.append_empty.symm⟩
  | .generic name args => .inr String.append_empty.symm
  | .array element => by
    rcases render_cases element with ⟨hargs, hrender⟩ | hrender
    · refine .inl ⟨hargs, ?_⟩
      show element.render ++ "[]" = element.head ++ (brackets element.rank ++ "[]")
      rw [hrender, String.append_assoc]
    · refine .inr ?_
      show element.render ++ "[]" = (TypeForm.generic element.head element.args).render ++
        (brackets element.rank ++ "[]")
      rw [hrender, String.append_assoc]

/-- There is nothing but brackets in array brackets. -/
theorem eq_of_mem_brackets {n : Nat} {c : Char} (h : c ∈ (brackets n).toList) :
    c = '[' ∨ c = ']' := by
  induction n with
  | zero => cases h
  | succ n ih =>
    rw [brackets, String.toList_append] at h
    rcases List.mem_append.mp h with hfront | hlast
    · exact ih hfront
    · have hpair : c ∈ ['[', ']'] := hlast
      simpa using hpair

/-- Array brackets are empty or begin with an opening one. -/
theorem brackets_cases (n : Nat) :
    (brackets n).toList = [] ∨ ∃ rest, (brackets n).toList = '[' :: rest := by
  induction n with
  | zero => exact .inl rfl
  | succ n ih =>
    refine .inr ?_
    rw [brackets, String.toList_append]
    rcases ih with hnil | ⟨rest, hrest⟩
    · exact ⟨[']'], by rw [hnil]; rfl⟩
    · exact ⟨rest ++ ['[', ']'], by rw [hrest]; rfl⟩

variable {t : TypeForm}

/-- The name at the head of a legal type is a name. -/
theorem isTypeName_head : ∀ {t : TypeForm}, t.Legal → IsTypeName t.head
  | .named _, h => h
  | .generic _ _, h => h.1
  | .array element, h => isTypeName_head (t := element) h

/-- The arguments of a legal type are legal. -/
theorem allLegal_args : ∀ {t : TypeForm}, t.Legal → AllLegal t.args
  | .named _, _ => trivial
  | .generic _ _, h => h.2
  | .array element, h => allLegal_args (t := element) h

/-- Behind the head of a type nothing follows, or a bracket. -/
theorem exists_behind_head (t : TypeForm) : ∃ behind, t.render.toList = t.head.toList ++ behind ∧
    (behind = [] ∨ ∃ c rest, behind = c :: rest ∧ (c = '<' ∨ c = '[')) := by
  rcases render_cases t with ⟨-, hrender⟩ | hrender
  · refine ⟨(brackets t.rank).toList, by rw [hrender, String.toList_append], ?_⟩
    rcases brackets_cases t.rank with hnil | ⟨rest, hrest⟩
    · exact .inl hnil
    · exact .inr ⟨'[', rest, hrest, .inr rfl⟩
  · refine ⟨'<' :: ([','].intercalate (t.args.map (·.render.toList)) ++ ['>'] ++
      (brackets t.rank).toList), ?_, .inr ⟨_, _, rfl, .inl rfl⟩⟩
    rw [hrender, String.toList_append, toList_render_generic, List.append_assoc]
    rfl

/-- A type ends with a name or with a bracket. -/
theorem ends_render : ∀ {t : TypeForm}, t.Legal → Ends t.render.toList
  | .named _, h => (tight_name h).ends
  | .generic name args, _ => by
    rw [toList_render_generic, ← List.append_assoc]
    exact ⟨_, '>', rfl, by decide⟩
  | .array element, _ => by
    rw [toList_render_array]
    exact ⟨element.render.toList ++ ['['], ']', by simp, by decide⟩

/-- There is no white space around a type. -/
theorem tight_render (h : t.Legal) : Tight t.render.toList where
  begins := by
    obtain ⟨behind, hrender, -⟩ := exists_behind_head t
    rw [hrender]
    exact (tight_name (isTypeName_head h)).begins.append behind
  ends := ends_render h

/-- A keyword stands in front of a bound. -/
theorem tight_append_render (h : t.Legal) {front : String} (hfront : Begins front.toList) :
    Tight (front ++ t.render).toList := by
  rw [String.toList_append]
  exact ⟨hfront.append _, (ends_render h).append _⟩

/-- There is no white space around a type argument. -/
theorem tight_renderArg : ∀ {a : TypeArg}, a.Legal → Tight a.render.toList
  | .type t, h => tight_render (t := t) h
  | .unbounded, _ => tight_of_forall (l := ['?']) (by simp) (List.forall_mem_singleton.mpr (by decide))
  | .upper bound, h => tight_append_render (t := bound) h ⟨'?', _, rfl, by decide⟩
  | .lower bound, h => tight_append_render (t := bound) h ⟨'?', _, rfl, by decide⟩

end Form

/-! ## What is read off them -/

section Read

variable {t : TypeForm}

/-- The head of a type is read back. -/
theorem erase_render (h : t.Legal) : erase t.render = t.head := by
  have hname := isTypeName_head h
  obtain ⟨behind, hrender, hbehind⟩ := exists_behind_head t
  -- the head is all in front of the first bracket
  have htake : t.render.toList.takeWhile (fun c => c != '<' && c != '[') = t.head.toList := by
    rw [hrender, List.takeWhile_append_of_pos]
    · rcases hbehind with rfl | ⟨c, rest, rfl, hc⟩
      · simp
      · rw [List.takeWhile_cons_of_neg (by rcases hc with rfl | rfl <;> decide), List.append_nil]
    · intro c hc
      simp [hname.ne hc (show '<' ∈ _ by decide), hname.ne hc (show '[' ∈ _ by decide)]
  unfold erase
  rw [htake, String.ofList_toList]
  exact trim_eq_self (tight_name hname)

/-- Only what stands between the first opening and the last closing bracket matters. -/
theorem typeArgs_between {text : String} {front inner behind : List Char}
    (htext : text.toList = front ++ ('<' :: inner ++ ['>']) ++ behind) (hfront : '<' ∉ front)
    (hbehind : '>' ∉ behind) :
    typeArgs text = ((splitArgs [] 0 inner).map fun a => trim (String.ofList a)).filter (· ≠ "") := by
  have hopen : text.toList.dropWhile (· != '<') = '<' :: (inner ++ ['>'] ++ behind) := by
    rw [htext, List.append_assoc, List.dropWhile_append_of_pos]
    · exact List.dropWhile_cons_of_neg (by decide)
    · intro c hc
      simpa using fun h : c = '<' => hfront (h ▸ hc)
  have hclose : (inner ++ ['>'] ++ behind).reverse.dropWhile (· != '>') = '>' :: inner.reverse := by
    rw [List.reverse_append, List.reverse_concat, List.dropWhile_append_of_pos]
    · exact List.dropWhile_cons_of_neg (by decide)
    · intro c hc
      simpa using fun h : c = '>' => hbehind (h ▸ List.mem_reverse.mp hc)
  unfold typeArgs
  simp only [hopen, hclose, List.reverse_reverse]

/-- Without an opening bracket there are no type arguments. -/
theorem typeArgs_of_not_mem {text : String} (h : '<' ∉ text.toList) : typeArgs text = [] := by
  have hnone : text.toList.dropWhile (· != '<') = [] := by
    rw [List.dropWhile_eq_nil_iff]
    intro c hc
    simpa using fun heq : c = '<' => h (heq ▸ hc)
  unfold typeArgs
  simp only [hnone]

/-- The type arguments of a type are read back. -/
theorem typeArgs_render (h : t.Legal) : typeArgs t.render = t.args.map (·.render) := by
  have hname := isTypeName_head h
  have hhead : '<' ∉ t.head.toList := fun hc => hname.ne hc (by decide) rfl
  rcases render_cases t with ⟨hargs, hrender⟩ | hrender
  · rw [hargs, List.map_nil]
    refine typeArgs_of_not_mem ?_
    rw [hrender, String.toList_append, List.mem_append]
    rintro (hc | hc)
    · exact hhead hc
    · exact absurd (eq_of_mem_brackets hc) (by decide)
  · have hbrackets : '>' ∉ (brackets t.rank).toList :=
      fun hc => absurd (eq_of_mem_brackets hc) (by decide)
    rw [typeArgs_between (by rw [hrender, String.toList_append, toList_render_generic]) hhead
      hbrackets]
    -- no argument is empty and none has white space around it, so that all are kept as they are
    have hlegal := allLegal_iff.mp (allLegal_args h)
    cases hargs : t.args with
    | nil => rfl
    | cons a args =>
      rw [← hargs, splitArgs_intercalate (by simp [hargs])
        (List.forall_mem_map.mpr (passed_renderArgs (allLegal_args h))), List.map_map]
      have htrim : t.args.map ((fun l => trim (String.ofList l)) ∘ fun a => a.render.toList) =
          t.args.map (·.render) := by
        refine List.map_congr_left fun a ha => ?_
        show trim (String.ofList a.render.toList) = a.render
        rw [String.ofList_toList]
        exact trim_eq_self (tight_renderArg (hlegal a ha))
      rw [htrim, List.filter_eq_self]
      intro text htext
      obtain ⟨a, ha, rfl⟩ := List.mem_map.mp htext
      exact decide_eq_true (tight_renderArg (hlegal a ha)).ne_empty

/-- A front that is there is dropped. -/
@[simp]
theorem dropFront_append (front text : String) : dropFront front (front ++ text) = text := by
  unfold dropFront
  rw [if_pos (by simp [String.toList_append, List.isPrefixOf_iff_prefix]), String.toList_append,
    List.drop_left' String.length_toList, String.ofList_toList]

/-- A front that is not there is not dropped. -/
theorem dropFront_of_not_prefix {front text : String} (h : ¬ front.toList <+: text.toList) :
    dropFront front text = text := by
  unfold dropFront
  rw [if_neg (by rwa [List.isPrefixOf_iff_prefix])]

/-- No type begins with a question mark. -/
theorem not_prefix_render (h : t.Legal) (front : List Char) :
    ¬ '?' :: front <+: t.render.toList := by
  obtain ⟨behind, hrender, -⟩ := exists_behind_head t
  have hname := isTypeName_head h
  obtain ⟨c, rest, hcons⟩ := List.exists_cons_of_ne_nil hname.toList_ne_nil
  rw [hrender, hcons, List.cons_append, List.cons_prefix_cons]
  rintro ⟨rfl, -⟩
  exact hname.ne (hcons ▸ List.mem_cons_self) (by decide) rfl

/-- What is left of an argument once its keyword is gone. -/
theorem boundOf?_of_rest {arg : String} {rest : TypeForm} (hrest : rest.Legal)
    (harg : Tight arg.toList)
    (hleft : (if arg.startsWith "? extends " then dropFront "? extends " arg
      else dropFront "? super " arg) = rest.render) : boundOf? arg = some rest.render := by
  have htight := tight_render hrest
  have hquestion : rest.render ≠ "?" := by
    intro hquestion
    exact not_prefix_render hrest [] (by rw [hquestion]; exact List.prefix_refl _)
  unfold boundOf?
  simp only [trim_eq_self harg, hleft, trim_eq_self htight]
  rw [if_neg (by simp [htight.ne_empty, hquestion])]

/-- The bound of an argument is read back. -/
theorem boundOf?_render : ∀ {a : TypeArg}, a.Legal →
    boundOf? a.render = a.bound?.map (·.render)
  | .type t, h => by
    -- a type that is no wildcard begins with neither keyword
    have hfree {front : String} {rest : List Char} (hfront : front.toList = '?' :: rest) :
        ¬ front.toList <+: t.render.toList := by
      rw [hfront]
      exact not_prefix_render (t := t) h rest
    have hupper : t.render.startsWith "? extends " = false :=
      String.startsWith_string_eq_false_iff.mpr (hfree rfl)
    refine boundOf?_of_rest h (tight_renderArg (a := .type t) h) ?_
    show (if t.render.startsWith "? extends " then _ else _) = _
    rw [hupper, if_neg Bool.false_ne_true]
    exact dropFront_of_not_prefix (hfree rfl)
  | .unbounded, _ => by decide
  | .upper bound, h => by
    have hupper : (TypeArg.upper bound).render.startsWith "? extends " = true := by
      rw [String.startsWith_string_iff, TypeArg.render, String.toList_append]
      exact List.prefix_append _ _
    refine boundOf?_of_rest h (tight_renderArg (a := .upper bound) h) ?_
    rw [if_pos hupper]
    exact dropFront_append _ _
  | .lower bound, h => by
    have hupper : (TypeArg.lower bound).render.startsWith "? extends " = false := by
      rw [String.startsWith_string_eq_false_iff, TypeArg.render, String.toList_append]
      rintro ⟨rest, hrest⟩
      cases hrest
    refine boundOf?_of_rest h (tight_renderArg (a := .lower bound) h) ?_
    rw [hupper, if_neg Bool.false_ne_true]
    exact dropFront_append _ _

/-- What the canonical text of a type says is read back from it: the name at its head, its type
arguments in their order, and of every argument the type or the bound. -/
theorem read_back_render {t : TypeForm} {a : TypeArg} (ht : t.Legal) (ha : a.Legal) :
    erase t.render = t.head ∧
      typeArgs t.render = t.args.map (·.render) ∧
        boundOf? a.render = a.bound?.map (·.render) :=
  ⟨erase_render ht, typeArgs_render ht, boundOf?_render ha⟩

end Read

/-- `Outer.Inner<A,? extends B>`. -/
def exampleBound : TypeForm :=
  .generic "Outer.Inner" [.type (.named "A"), .upper (.named "B")]

/-- `java.util.Map<java.util.List<?>[],? super Outer.Inner<A,? extends B>>[]`. -/
def exampleForm : TypeForm :=
  .array (.generic "java.util.Map"
    [.type (.array (.generic "java.util.List" [.unbounded])), .lower exampleBound])

/-- Type arguments two levels deep, with both kinds of bounds and array brackets. -/
theorem read_back_render_example :
    exampleForm.Legal ∧ (TypeArg.lower exampleBound).Legal ∧
      erase exampleForm.render = "java.util.Map" ∧
      typeArgs exampleForm.render =
        ["java.util.List<?>[]", "? super Outer.Inner<A,? extends B>"] ∧
      boundOf? (TypeArg.lower exampleBound).render = some "Outer.Inner<A,? extends B>" := by
  have hform : exampleForm.Legal := by
    simp only [exampleForm, exampleBound, TypeForm.Legal, TypeArg.Legal, AllLegal]
    decide +kernel
  have hbound : (TypeArg.lower exampleBound).Legal := by
    simp only [exampleBound, TypeForm.Legal, TypeArg.Legal, AllLegal]
    decide +kernel
  obtain ⟨herase, hargs, hrest⟩ := read_back_render hform hbound
  exact ⟨hform, hbound, herase, hargs.trans (by decide), hrest.trans (by decide)⟩

end JavaAtlas.Java
