import JavaAtlas.Java.Names
import JavaAtlas.Proofs.Java.CallSites
import JavaAtlas.Proofs.Java.TypeText

namespace JavaAtlas.Java

/-! # Written types and their canonical text

A type as it is written, with the names that it uses, and the form that it has once every name is
resolved. The canonical text of a type is the text of that form, unless a wildcard is misread:
whether its bound is a lower one is told by looking for the word `super` anywhere in its text.

A qualified name is written without type arguments: `p.Outer.Inner<A>` is among the forms, but
`Outer<A>.Inner`, in which the qualifier has arguments of its own, is not.

* `WrittenType.SpelledBy`: the tree that a written type has;
* `WrittenType.resolve`: its form with all names resolved, and nothing else changed;
* `WrittenType.Misread`: a wildcard with an upper bound has the word `super` in its text;
* `canonical_eq_resolve_iff`: the canonical text is that of the form exactly if none is misread.
-/

/-! ## Written types -/

/-- A name in a type as it is written. The parts of a dotted name are plain names: none of them has
type arguments. -/
inductive WrittenName where
  /-- A primitive type. -/
  | keyword (text : String)
  | simple (text : String)
  | dotted (text : String)

mutual

/-- A type as it is written. Type arguments stand behind a whole name only, so that a name such as
`Outer<A>.Inner`, whose qualifier has arguments, is not among these types. -/
inductive WrittenType where
  | name (n : WrittenName)
  | generic (head : WrittenName) (args : List WrittenArg)
  | array (element : WrittenType) (dimensions : Nat)

/-- A type argument as it is written. The texts are those of the type and of the whole wildcard. -/
inductive WrittenArg where
  | type (t : WrittenType) (text : String)
  | unbounded
  | upper (bound : WrittenType) (text wildcard : String)
  | lower (bound : WrittenType) (text : String)

end

/-- The kinds of nodes that are primitive types. -/
def keywordKinds : List String :=
  ["integral_type", "floating_point_type", "boolean_type", "void_type"]

/-- A node spells a name. A dotted name has no type arguments in it. -/
def WrittenName.SpelledBy (source : String) : WrittenName → Tree → Prop
  | .keyword text, t => t.kind ∈ keywordKinds ∧ t.text source = text
  | .simple text, t => t.kind = "type_identifier" ∧ t.text source = text
  | .dotted text, t => t.kind = "scoped_type_identifier" ∧
      Env.dropSpaces (t.squeezed source) = text ∧ '<' ∉ text.toList

mutual

/-- A node spells a type. -/
def WrittenType.SpelledBy (source : String) : WrittenType → Tree → Prop
  | .name n, t => n.SpelledBy source t
  | .generic head args, t => t.kind = "generic_type" ∧
      (∃ first, t.firstNamed? = some first ∧ head.SpelledBy source first) ∧
      ∃ list, t.namedOf? "type_arguments" = some list ∧ AllSpelledBy source args list.parts
  | .array element dimensions, t => t.kind = "array_type" ∧
      (∃ inner, t.field? "element" = some inner ∧ element.SpelledBy source inner) ∧
      ∃ pairs, t.field? "dimensions" = some pairs ∧
        Env.dropSpaces (pairs.squeezed source) = brackets dimensions

/-- A node spells a type argument. The keyword of a wildcard is a node of its own. -/
def WrittenArg.SpelledBy (source : String) : WrittenArg → Tree → Prop
  | .type w text, t => w.SpelledBy source t ∧ t.squeezed source = text
  | .unbounded, t => t.kind = "wildcard" ∧ ∀ c ∈ t.namedChildren, isTypeNode c.kind = false
  | .upper bound text wildcard, t => t.kind = "wildcard" ∧
      (∃ c ∈ t.children, c.kind = "extends") ∧ t.text source = wildcard ∧
      ∃ last, t.lastNamed? = some last ∧ bound.SpelledBy source last ∧ last.squeezed source = text
  | .lower bound text, t => t.kind = "wildcard" ∧
      (∃ c ∈ t.children, c.kind = "super") ∧ "super".toList <:+: (t.text source).toList ∧
      ∃ last, t.lastNamed? = some last ∧ bound.SpelledBy source last ∧ last.squeezed source = text

/-- Nodes spell type arguments. -/
def AllSpelledBy (source : String) : List WrittenArg → List Tree → Prop
  | [], ts => ts = []
  | a :: args, ts => ∃ t rest, ts = t :: rest ∧ a.SpelledBy source t ∧ AllSpelledBy source args rest

end

/-! ## Resolved forms -/

/-- An array of arrays. -/
def arrays : Nat → TypeForm → TypeForm
  | 0, f => f
  | n + 1, f => .array (arrays n f)

/-- An array of arrays is rendered as its element with one pair of brackets for each. -/
theorem render_arrays (n : Nat) (f : TypeForm) : (arrays n f).render = f.render ++ brackets n := by
  induction n with
  | zero => exact String.append_empty.symm
  | succ n ih => rw [arrays, TypeForm.render, ih, String.append_assoc, brackets]

/-- The full name of a name. -/
def WrittenName.resolve (env : Env) : WrittenName → Option String
  | .keyword text => some text
  | .simple text => env.resolveSimple text
  | .dotted text => env.resolveDotted text

mutual

/-- The form of a type with its names resolved; none if the name at its head cannot be. -/
def WrittenType.resolve (env : Env) : WrittenType → Option TypeForm
  | .name n => (n.resolve env).map .named
  | .generic head args => (head.resolve env).map (.generic · (resolveArgs env args))
  | .array element dimensions => (element.resolve env).map (arrays dimensions)

/-- The form of a type argument. What cannot be resolved stands as it is written. -/
def WrittenArg.resolve (env : Env) : WrittenArg → TypeArg
  | .type t text => .type ((t.resolve env).getD (.named text))
  | .unbounded => .unbounded
  | .upper bound text _ => .upper ((bound.resolve env).getD (.named text))
  | .lower bound text => .lower ((bound.resolve env).getD (.named text))

/-- The forms of type arguments. -/
def resolveArgs (env : Env) : List WrittenArg → List TypeArg
  | [] => []
  | a :: args => a.resolve env :: resolveArgs env args

end

mutual

/-- A wildcard with an upper bound is taken for one with a lower bound. -/
def WrittenType.Misread (env : Env) : WrittenType → Prop
  | .name _ => False
  | .generic head args => (head.resolve env).isSome ∧ AnyMisread env args
  | .array element _ => element.Misread env

/-- The same of a type argument. The word `super` may be in it for any reason. -/
def WrittenArg.Misread (env : Env) : WrittenArg → Prop
  | .type t _ => t.Misread env
  | .unbounded => False
  | .upper bound _ wildcard => "super".toList <:+: wildcard.toList ∨ bound.Misread env
  | .lower bound _ => bound.Misread env

/-- The same of some type argument. -/
def AnyMisread (env : Env) : List WrittenArg → Prop
  | [] => False
  | a :: args => a.Misread env ∨ AnyMisread env args

end

/-! ## Texts that part -/

/-- Two texts differ, whatever follows them. -/
def Parted (s s' : String) : Prop := ∀ r r' : String, s ++ r ≠ s' ++ r'

/-- Two texts are the same unless something is misread, and then they part. -/
structure Follows (misread : Prop) (s s' : String) : Prop where
  same : ¬ misread → s = s'
  parted : misread → Parted s s'

section Parted

variable {s s' x x' : String} {p q : Prop}

/-- Texts that part do so whatever is put behind either. -/
theorem Parted.append_right (h : Parted s s') (x x' : String) : Parted (s ++ x) (s' ++ x') := by
  intro r r' heq
  rw [String.append_assoc, String.append_assoc] at heq
  exact h _ _ heq

/-- Texts that part still do behind a common front. -/
theorem Parted.append_left (h : Parted s s') (front : String) :
    Parted (front ++ s) (front ++ s') := by
  intro r r' heq
  rw [String.append_assoc, String.append_assoc, String.append_right_inj] at heq
  exact h r r' heq

/-- Texts that part are different texts. -/
theorem Parted.ne (h : Parted s s') : s ≠ s' := by
  rintro rfl
  exact h "" "" rfl

/-- A wildcard rendered with the wrong keyword parts from the right one. -/
theorem parted_wildcards (s s' : String) : Parted ("? super " ++ s) ("? extends " ++ s') := by
  intro r r' heq
  have hlist := congrArg String.toList heq
  simp only [String.toList_append, List.append_assoc] at hlist
  -- The two differ after the blank, at `s` and `e`.
  cases hlist

/-- Where nothing is misread, a text follows itself. -/
theorem Follows.refl (s : String) : Follows False s s where
  same := fun _ => rfl
  parted := False.elim

/-- What is misread may be said in another way. -/
theorem Follows.congr (h : Follows p s s') (hpq : p ↔ q) : Follows q s s' where
  same := fun hq => h.same (mt hpq.mp hq)
  parted := fun hq => h.parted (hpq.mpr hq)

/-- Texts one after the other part where the first of them part. -/
theorem Follows.append (h : Follows p s s') (h' : Follows q x x') :
    Follows (p ∨ q) (s ++ x) (s' ++ x') where
  same := by
    intro hnone
    rw [h.same fun hp => hnone (.inl hp), h'.same fun hq => hnone (.inr hq)]
  parted := by
    intro hsome
    by_cases hp : p
    · -- The first of them part already.
      exact (h.parted hp).append_right x x'
    · -- The first of them are the same, so they are a common front of the second.
      rw [h.same hp]
      exact (h'.parted (hsome.resolve_left hp)).append_left s'

/-- A common end changes nothing. -/
theorem Follows.append_text (h : Follows p s s') (x : String) : Follows p (s ++ x) (s' ++ x) :=
  (h.append (.refl x)).congr (iff_of_eq (or_false p))

/-- A common front changes nothing. -/
theorem Follows.text_append (h : Follows p s s') (x : String) : Follows p (x ++ s) (x ++ s') :=
  ((Follows.refl x).append h).congr (iff_of_eq (false_or p))

end Parted

/-- What is read of a type, and its form. -/
inductive ReadsLike (misread : Prop) : Option String → Option TypeForm → Prop where
  | unresolved (h : ¬ misread) : ReadsLike misread none none
  | resolved {s : String} {f : TypeForm} (h : Follows misread s f.render) :
    ReadsLike misread (some s) (some f)

section ReadsLike

variable {misread : Prop} {x : Option String} {y : Option TypeForm}

/-- With the written text standing for what cannot be resolved, the rendering follows. -/
theorem ReadsLike.getD (h : ReadsLike misread x y) (text : String) :
    Follows misread (x.getD text) ((y.getD (.named text)).render) := by
  cases h with
  | unresolved h => exact (Follows.refl text).congr (iff_of_false id h)
  | resolved h => exact h

/-- What is built around a type that reads like its form reads like the form built the same. -/
theorem ReadsLike.map (h : ReadsLike misread x y) {g : String → String} {f : TypeForm → TypeForm}
    (hfollows : ∀ s t, Follows misread s t.render → Follows misread (g s) (f t).render) :
    ReadsLike misread (x.map g) (y.map f) := by
  cases h with
  | unresolved h => exact .unresolved h
  | resolved h => exact .resolved (hfollows _ _ h)

/-- Reading and form agree exactly if nothing is misread. -/
theorem ReadsLike.eq_iff (h : ReadsLike misread x y) : x = y.map (·.render) ↔ ¬ misread := by
  cases h with
  | unresolved h => exact iff_of_true rfl h
  | @resolved s f h =>
    constructor
    · intro heq hmisread
      exact (h.parted hmisread).ne (Option.some.inj heq)
    · intro hnot
      rw [h.same hnot]
      rfl

end ReadsLike

/-! ## The canonical text of one node -/

section Canonical

variable {env : Env} {t : Tree}

/-- A primitive type is read as it is written. -/
theorem canonical_keyword (h : t.kind ∈ keywordKinds) :
    env.canonical t = some (t.text env.source) := by
  rw [Env.canonical]
  simp only [keywordKinds, List.mem_cons, List.not_mem_nil, or_false] at h
  rcases h with h | h | h | h <;> rw [h] <;> rfl

/-- A simple name is resolved as one. -/
theorem canonical_simple (h : t.kind = "type_identifier") :
    env.canonical t = env.resolveSimple (t.text env.source) := by
  rw [Env.canonical, h]
  rfl

/-- A qualified name is resolved as one, with the blanks in it left out. -/
theorem canonical_dotted (h : t.kind = "scoped_type_identifier") :
    env.canonical t = env.resolveDotted (Env.dropSpaces (t.squeezed env.source)) := by
  rw [Env.canonical, h]
  rfl

/-- A generic type is read as its head with the readings of its arguments behind it. -/
theorem canonical_generic (h : t.kind = "generic_type") {first list : Tree}
    (hfirst : t.firstNamed? = some first) (hlist : t.namedOf? "type_arguments" = some list) :
    env.canonical t = (env.canonical first).map fun base =>
      base ++ "<" ++ ",".intercalate (list.parts.map env.canonicalArgument) ++ ">" := by
  rw [Env.canonical]
  simp only [h]
  split
  next hnone => rw [hfirst] at hnone; cases hnone
  next head hhead =>
    rw [hfirst] at hhead
    cases hhead
    split
    next hnone => rw [hnone]; rfl
    next base hbase =>
      rw [hbase]
      split
      next hnone => rw [hlist] at hnone; cases hnone
      next list' hlist' =>
        rw [hlist] at hlist'
        cases hlist'
        simp only [Option.map_some, List.map_attach_eq_pmap, List.pmap_eq_map]

/-- An array is read as its element with its brackets behind it. -/
theorem canonical_array (h : t.kind = "array_type") {inner pairs : Tree}
    (hinner : t.field? "element" = some inner) (hpairs : t.field? "dimensions" = some pairs) :
    env.canonical t =
      (env.canonical inner).map (· ++ Env.dropSpaces (pairs.squeezed env.source)) := by
  rw [Env.canonical]
  simp only [h]
  split
  next hnone => rw [hinner] at hnone; cases hnone
  next element helement =>
    rw [hinner] at helement
    cases helement
    rw [hpairs]
    rfl

/-- An argument that is a type is read as one, or stands as it is written. -/
theorem canonicalArgument_type (h : t.kind ≠ "wildcard") :
    env.canonicalArgument t = (env.canonical t).getD (t.squeezed env.source) := by
  rw [Env.canonicalArgument, if_pos (by simpa using h)]

/-- A wildcard without a bound is read as a question mark. -/
theorem canonicalArgument_unbounded (h : t.kind = "wildcard")
    (hnone : ∀ c ∈ t.namedChildren, isTypeNode c.kind = false) :
    env.canonicalArgument t = "?" := by
  rw [Env.canonicalArgument, if_neg (by simp [h])]
  split
  next => rfl
  next last hlast =>
    rw [if_neg (by simp [hnone last (List.mem_of_getLast? hlast)])]

/-- A wildcard with a bound is read as its keyword and its bound. -/
theorem canonicalArgument_bounded (h : t.kind = "wildcard") {last : Tree}
    (hlast : t.lastNamed? = some last) (htype : isTypeNode last.kind = true) :
    env.canonicalArgument t = "? " ++ (if env.isLowerBounded t then "super" else "extends") ++ " " ++
      (env.canonical last).getD (last.squeezed env.source) := by
  rw [Env.canonicalArgument, if_neg (by simp [h])]
  split
  next hnone => rw [hlast] at hnone; cases hnone
  next bound hbound =>
    rw [hlast] at hbound
    cases hbound
    rw [if_pos htype]

/-- The search for a text inside another finds it exactly if it is there. -/
theorem occurs_iff {part l : List Char} :
    Env.isLowerBounded.occurs part l = true ↔ part <:+: l := by
  induction l with
  | nil => simp [Env.isLowerBounded.occurs]
  | cons c l ih =>
    rw [Env.isLowerBounded.occurs, Bool.or_eq_true, ih, List.isPrefixOf_iff_prefix,
      List.infix_cons_iff]

/-- A wildcard is taken for one with a lower bound by the word `super` anywhere in its text. -/
theorem isLowerBounded_iff :
    env.isLowerBounded t = true ↔ "super".toList <:+: (t.text env.source).toList := occurs_iff

end Canonical

/-! ## The canonical text of a type -/

section Spelled

variable {env : Env}

/-- A name is read as what it resolves to. -/
theorem WrittenName.SpelledBy.canonical {n : WrittenName} {t : Tree}
    (h : n.SpelledBy env.source t) : env.canonical t = n.resolve env := by
  cases n with
  | keyword text => rw [canonical_keyword h.1, h.2, WrittenName.resolve]
  | simple text => rw [canonical_simple h.1, h.2, WrittenName.resolve]
  | dotted text => rw [canonical_dotted h.1, h.2.1, WrittenName.resolve]

/-- A node that spells a type is one of the kinds that stand for types. -/
theorem WrittenType.SpelledBy.isTypeNode {w : WrittenType} {t : Tree} {source : String}
    (h : w.SpelledBy source t) : isTypeNode t.kind = true := by
  cases w with
  | name n =>
    cases n with
    | keyword text =>
      have hkinds : ∀ kind ∈ keywordKinds, Java.isTypeNode kind = true := by decide
      exact hkinds _ h.1
    | simple text => rw [h.1]; decide
    | dotted text => rw [h.1]; decide
  | generic head args => rw [h.1]; decide
  | array element dimensions => rw [h.1]; decide

/-- A node that spells a type is not a wildcard. -/
theorem WrittenType.SpelledBy.not_wildcard {w : WrittenType} {t : Tree} {source : String}
    (h : w.SpelledBy source t) : t.kind ≠ "wildcard" := by
  intro hkind
  have htype := h.isTypeNode
  rw [hkind] at htype
  exact absurd htype (by decide)

mutual

/-- A type is read as its form is rendered, unless a wildcard in it is misread. -/
theorem readsLike_resolve : ∀ {w : WrittenType} {t : Tree}, w.SpelledBy env.source t →
    ReadsLike (w.Misread env) (env.canonical t) (w.resolve env)
  | .name n, t, h => by
    rw [WrittenName.SpelledBy.canonical (n := n) h, WrittenType.resolve]
    cases n.resolve env with
    | none => exact .unresolved id
    | some name => exact .resolved (.refl name)
  | .generic head args, t, h => by
    obtain ⟨hkind, ⟨first, hfirst, hhead⟩, list, hlist, hargs⟩ := h
    have hall := follows_resolveArgs hargs
    rw [canonical_generic hkind hfirst hlist, hhead.canonical, WrittenType.resolve,
      WrittenType.Misread]
    cases head.resolve env with
    -- Without a head the arguments are not read, so a misread one among them does no harm.
    | none => exact .unresolved fun hsome => Bool.noConfusion hsome.1
    | some name =>
      refine .resolved (Follows.congr ?_ (and_iff_right rfl).symm)
      exact (hall.text_append (name ++ "<")).append_text ">"
  | .array element dimensions, t, h => by
    obtain ⟨hkind, ⟨inner, hinner, helement⟩, pairs, hpairs, hbrackets⟩ := h
    rw [canonical_array hkind hinner hpairs, hbrackets]
    refine (readsLike_resolve helement).map fun s f hfollows => ?_
    rw [render_arrays]
    exact hfollows.append_text (brackets dimensions)

/-- A type argument is read as its form is rendered, unless a wildcard in it is misread. -/
theorem follows_resolveArg : ∀ {a : WrittenArg} {t : Tree}, a.SpelledBy env.source t →
    Follows (a.Misread env) (env.canonicalArgument t) (a.resolve env).render
  | .type w text, t, h => by
    rw [canonicalArgument_type (WrittenType.SpelledBy.not_wildcard h.1), h.2]
    exact (readsLike_resolve h.1).getD text
  | .unbounded, t, h => by
    rw [canonicalArgument_unbounded h.1 h.2]
    exact .refl "?"
  | .upper bound text wildcard, t, h => by
    obtain ⟨hkind, -, hwildcard, last, hlast, hbound, htext⟩ := h
    have hfollows := (readsLike_resolve hbound).getD text
    rw [canonicalArgument_bounded hkind hlast hbound.isTypeNode, htext, ← hwildcard]
    by_cases hsuper : "super".toList <:+: (t.text env.source).toList
    · -- The text has the word, so the wrong keyword is written and the two part.
      rw [if_pos (isLowerBounded_iff.mpr hsuper)]
      exact ⟨fun hnot => absurd (.inl hsuper) hnot, fun _ => parted_wildcards _ _⟩
    · rw [if_neg (mt isLowerBounded_iff.mp hsuper)]
      exact (hfollows.text_append "? extends ").congr (or_iff_right hsuper).symm
  | .lower bound text, t, h => by
    obtain ⟨hkind, -, hsuper, last, hlast, hbound, htext⟩ := h
    rw [canonicalArgument_bounded hkind hlast hbound.isTypeNode, htext,
      if_pos (isLowerBounded_iff.mpr hsuper)]
    exact ((readsLike_resolve hbound).getD text).text_append "? super "

/-- So are the type arguments together, one after the other. -/
theorem follows_resolveArgs : ∀ {args : List WrittenArg} {ts : List Tree},
    AllSpelledBy env.source args ts →
    Follows (AnyMisread env args) (",".intercalate (ts.map env.canonicalArgument))
      (",".intercalate (renderArgs (resolveArgs env args)))
  | [], ts, h => by
    cases h
    exact .refl _
  | a :: args, ts, h => by
    obtain ⟨t, rest, rfl, ha, hargs⟩ := h
    have hfirst := follows_resolveArg ha
    have hrest := follows_resolveArgs hargs
    cases args with
    | nil =>
      cases hargs
      simpa [AnyMisread, resolveArgs, renderArgs] using hfirst
    | cons b args =>
      obtain ⟨u, rest, rfl, -, -⟩ := hargs
      simp only [List.map_cons, resolveArgs, renderArgs, String.intercalate_cons_cons]
      exact (hfirst.append_text ",").append hrest

end

/-- The canonical text of a type is that of its form with every name resolved, with the same type
arguments in the same order, the same array brackets, and wildcards of the same kind, exactly if no
wildcard with an upper bound has the word `super` in its text. If one has, it is another text.
Nothing is said of a name whose qualifier has type arguments, such as `Outer<A>.Inner`, since no
`WrittenType` is spelled by its node. -/
theorem canonical_eq_resolve_iff (env : Env) (w : WrittenType) (t : Tree)
    (h : w.SpelledBy env.source t) :
    env.canonical t = (w.resolve env).map (·.render) ↔ ¬ w.Misread env :=
  (readsLike_resolve h).eq_iff

end Spelled

/-! Two fields of a class with a type parameter, whose types have wildcards with bounds. -/

/-- What names stand for in the class. -/
def boundedEnv (source : String) : Env :=
  { file :=
      { source
        package := ""
        imports := []
        known := [("A", "A")] }
    types := [{ qualname := "A", kind := .ofClass, typeParams := ["T"] }] }

/-- The text of the first field. -/
def mapSource : String := "p.Map<? super T,Long[] []> m;"

/-- The tree of its type, less the parts of the dotted name. -/
def mapNode : Tree :=
  namedNode "generic_type" 0 26 (some "type")
    [namedNode "scoped_type_identifier" 0 5,
      namedNode "type_arguments" 5 26 none
        [tokenNode "<" 5 6,
          namedNode "wildcard" 6 15 none
            [tokenNode "?" 6 7, namedNode "super" 8 13, namedNode "type_identifier" 14 15],
          tokenNode "," 15 16,
          namedNode "array_type" 16 25 none
            [namedNode "type_identifier" 16 20 (some "element"),
              namedNode "dimensions" 20 25 (some "dimensions")
                [tokenNode "[" 20 21, tokenNode "]" 21 22, tokenNode "[" 23 24,
                  tokenNode "]" 24 25]],
          tokenNode ">" 25 26]]

/-- Its type as it is written. -/
def mapType : WrittenType :=
  .generic (.dotted "p.Map")
    [.lower (.name (.simple "T")) "T", .type (.array (.name (.simple "Long")) 2) "Long[] []"]

/-- The text of the second field. -/
def listSource : String := "p.List<? extends Comparable<? super T>> l;"

/-- The tree of the bound in its type. -/
def boundNode : Tree :=
  namedNode "generic_type" 17 38 none
    [namedNode "type_identifier" 17 27,
      namedNode "type_arguments" 27 38 none
        [tokenNode "<" 27 28,
          namedNode "wildcard" 28 37 none
            [tokenNode "?" 28 29, namedNode "super" 30 35, namedNode "type_identifier" 36 37],
          tokenNode ">" 37 38]]

/-- The bound as it is written. -/
def boundType : WrittenType :=
  .generic (.simple "Comparable") [.lower (.name (.simple "T")) "T"]

/-- The tree of the wildcard. -/
def wildcardNode : Tree :=
  namedNode "wildcard" 7 38 none [tokenNode "?" 7 8, tokenNode "extends" 9 16, boundNode]

/-- The tree of the type, less the parts of the dotted name. -/
def listNode : Tree :=
  namedNode "generic_type" 0 39 (some "type")
    [namedNode "scoped_type_identifier" 0 6,
      namedNode "type_arguments" 6 39 none [tokenNode "<" 6 7, wildcardNode, tokenNode ">" 38 39]]

/-- The type as it is written. -/
def listType : WrittenType :=
  .generic (.dotted "p.List")
    [.upper boundType "Comparable<? super T>" "? extends Comparable<? super T>"]

/-- The tree of the first field spells its type. -/
theorem mapType_spelledBy : mapType.SpelledBy mapSource mapNode := by
  refine ⟨rfl, ⟨_, rfl, rfl, ?_⟩, _, rfl, _, _, rfl, ?_, _, _, rfl, ?_, rfl⟩
  · decide +kernel
  · exact ⟨rfl, ⟨_, .tail _ (.head _), rfl⟩, by decide +kernel, _, rfl, ⟨rfl, by decide +kernel⟩,
      by decide +kernel⟩
  · exact ⟨⟨rfl, ⟨_, rfl, rfl, by decide +kernel⟩, _, rfl, by decide +kernel⟩, by decide +kernel⟩

/-- The tree of the bound spells the type that bounds the wildcard. -/
theorem boundType_spelledBy : boundType.SpelledBy listSource boundNode := by
  refine ⟨rfl, ⟨_, rfl, rfl, by decide +kernel⟩, _, rfl, _, _, rfl, ?_, rfl⟩
  exact ⟨rfl, ⟨_, .tail _ (.head _), rfl⟩, by decide +kernel, _, rfl, ⟨rfl, by decide +kernel⟩,
    by decide +kernel⟩

/-- The tree of the second field spells its type. -/
theorem listType_spelledBy : listType.SpelledBy listSource listNode := by
  refine ⟨rfl, ⟨_, rfl, rfl, ?_⟩, _, rfl, _, _, rfl, ?_, rfl⟩
  · decide +kernel
  · exact ⟨rfl, ⟨_, .tail _ (.head _), rfl⟩, by decide +kernel, _, rfl, boundType_spelledBy,
      by decide +kernel⟩

/-- The first field has a lower bound only, and its type is read right. -/
theorem canonical_eq_resolve_map :
    mapType.SpelledBy mapSource mapNode ∧ ¬ mapType.Misread (boundedEnv mapSource) ∧
      (boundedEnv mapSource).canonical mapNode = some "p.Map<? super T,java.lang.Long[][]>" := by
  have hread : ¬ mapType.Misread (boundedEnv mapSource) := by
    simp [mapType, WrittenType.Misread, WrittenArg.Misread, AnyMisread]
  refine ⟨mapType_spelledBy, hread, ?_⟩
  rw [(canonical_eq_resolve_iff (boundedEnv mapSource) mapType mapNode mapType_spelledBy).mpr hread]
  decide +kernel

/-- An upper bound becomes a lower one, since there is a lower bound inside it. -/
theorem upper_bound_misread :
    listType.SpelledBy listSource listNode ∧
      (listType.resolve (boundedEnv listSource)).map (·.render) =
        some "p.List<? extends java.lang.Comparable<? super T>>" ∧
      (boundedEnv listSource).canonical listNode =
        some "p.List<? super java.lang.Comparable<? super T>>" := by
  have hread : ¬ boundType.Misread (boundedEnv listSource) := by
    simp [boundType, WrittenType.Misread, WrittenArg.Misread, AnyMisread]
  have hspelled : boundType.SpelledBy (boundedEnv listSource).source boundNode :=
    boundType_spelledBy
  have hbound : (boundedEnv listSource).canonical boundNode =
      some "java.lang.Comparable<? super T>" :=
    ((readsLike_resolve hspelled).eq_iff.mpr hread).trans (by decide +kernel)
  have hlower : (boundedEnv listSource).isLowerBounded wildcardNode = true := by decide +kernel
  have hlast : wildcardNode.lastNamed? = some boundNode := rfl
  have hfirst : (boundedEnv listSource).canonical (namedNode "scoped_type_identifier" 0 6) =
      some "p.List" := (canonical_dotted rfl).trans (by decide +kernel)
  refine ⟨listType_spelledBy, by decide +kernel, (canonical_generic rfl rfl rfl).trans ?_⟩
  -- One argument, the wildcard. The definition is opened by hand, since `rw` sees no list in it.
  show (Option.map (fun base => base ++ "<" ++ ",".intercalate
    [(boundedEnv listSource).canonicalArgument wildcardNode] ++ ">") _) = _
  rw [hfirst, canonicalArgument_bounded rfl hlast hspelled.isTypeNode, if_pos hlower, hbound]
  rfl

end JavaAtlas.Java
