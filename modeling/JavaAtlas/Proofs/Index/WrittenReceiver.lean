import Mathlib.Data.List.DropRight
import JavaAtlas.Proofs.Index.ReferenceSearch
import JavaAtlas.Proofs.Java.TypeText

namespace JavaAtlas

/-! # Two ways to record a written type

What a reference is called on may be recorded by the type that is written for it, or by a chain
that begins with this type and has no steps. Both are judged here side by side: by what is found
for the type in the index, and what is not.

* `erase_typeTextIn`: what is found for a type is left when the arguments of its text are dropped;
* `verdictAlone_typed`, `verdictAlone_chained`: the verdicts of the two ways;
* `written_receiver_same_verdict_iff`: when they are the same.
-/

namespace Java

/-! ## Types without arguments -/

/-- No bracket is in a text at which arguments or dimensions begin. -/
def Bare (l : List Char) : Prop := ∀ c ∈ l, c ≠ '<' ∧ c ≠ '['

/-- A trimmed text is the text less the blanks at both ends. -/
theorem toList_trim (text : String) :
    (trim text).toList = (text.toList.dropWhile isBlank).rdropWhile isBlank := by
  rw [trim, trimEnd, trimStart, String.toList_ofList, String.toList_ofList, List.rdropWhile]

/-- A trimmed text has no character that the text does not have. -/
theorem mem_of_mem_trim {text : String} {c : Char} (h : c ∈ (trim text).toList) :
    c ∈ text.toList := by
  rw [toList_trim] at h
  exact (List.dropWhile_sublist _).subset ((List.rdropWhile_prefix _ _).subset h)

/-- A trimmed text has no white space around it. -/
theorem tight_trim {text : String} (h : trim text ≠ "") : Tight (trim text).toList := by
  obtain ⟨front, hfront⟩ : ∃ front, text.toList.dropWhile isBlank = front := ⟨_, rfl⟩
  have hne : front.rdropWhile isBlank ≠ [] := by
    rw [← hfront, ← toList_trim]
    exact fun hnil => h (String.toList_eq_nil_iff.mp hnil)
  rw [toList_trim, hfront]
  refine ⟨?_, _, _, (List.dropLast_concat_getLast hne).symm, ?_⟩
  · obtain ⟨c, rest, hcons⟩ := List.exists_cons_of_ne_nil hne
    refine ⟨c, rest, hcons, ?_⟩
    -- it begins like the text without white space in front
    obtain ⟨behind, hbehind⟩ := List.rdropWhile_prefix isBlank front
    rw [hcons, ← hfront] at hbehind
    have hdrop : text.toList.dropWhile isBlank ≠ [] := hbehind ▸ List.cons_ne_nil c _
    have hhead := List.head_dropWhile_not isBlank hdrop
    simp only [← hbehind] at hhead
    exact hhead
  · exact Bool.eq_false_iff.mpr (List.rdropWhile_last_not isBlank front hne)

/-- An erased type has no type arguments. -/
theorem bare_erase (text : String) : Bare (erase text).toList := by
  intro c hc
  have htake := mem_of_mem_trim hc
  rw [String.toList_ofList] at htake
  simpa using List.mem_takeWhile_imp htake

/-- What stands behind a bracket is dropped. -/
theorem erase_append {base : String} {behind : List Char} (hbare : Bare base.toList)
    (htight : Tight base.toList) (hbehind : behind = [] ∨ ∃ rest, behind = '<' :: rest) :
    erase (base ++ String.ofList behind) = base := by
  have htake : (base ++ String.ofList behind).toList.takeWhile (fun c => c != '<' && c != '[') =
      base.toList := by
    rw [String.toList_append, String.toList_ofList, List.takeWhile_append_of_pos]
    · rcases hbehind with rfl | ⟨rest, rfl⟩
      · simp
      · rw [List.takeWhile_cons_of_neg (by decide), List.append_nil]
    · intro c hc
      simpa using hbare c hc
  rw [erase, htake, String.ofList_toList]
  exact trim_eq_self htight

/-- What is left of a text at the first bracket is nothing or begins with it. -/
theorem dropWhile_ne_open (l : List Char) :
    l.dropWhile (· != '<') = [] ∨ ∃ rest, l.dropWhile (· != '<') = '<' :: rest := by
  by_cases hne : l.dropWhile (· != '<') = []
  · exact Or.inl hne
  · obtain ⟨c, rest, hcons⟩ := List.exists_cons_of_ne_nil hne
    have hhead := List.head_dropWhile_not (· != '<') hne
    simp only [hcons, List.head_cons, bne_eq_false_iff_eq] at hhead
    exact Or.inr ⟨rest, hhead ▸ hcons⟩

end Java

namespace IndexView

open Java

variable {v : IndexView} {t : TypeRef} {package base : String} {wildcards : List String}

/-! ## Types that are found -/

/-- A package as it can be imported: no bracket is in it, and no white space in front of it. -/
structure PlainPackage (package : String) : Prop where
  bare : Bare package.toList
  begins : package = "" ∨ Begins package.toList

/-- A name qualified by a plain package is as bare and as tight as the name. -/
theorem PlainPackage.qualified {name : String} (h : PlainPackage package) (hbare : Bare name.toList)
    (htight : Tight name.toList) :
    Bare (package ++ "." ++ name).toList ∧ Tight (package ++ "." ++ name).toList := by
  rw [String.toList_append, String.toList_append]
  constructor
  · intro c hc
    simp only [List.mem_append] at hc
    rcases hc with (hc | hc) | hc
    · exact h.bare c hc
    · have hdot : c = '.' := by simpa using hc
      rw [hdot]
      decide
    · exact hbare c hc
  · refine ⟨?_, htight.ends.append _⟩
    rcases h.begins with rfl | hbegins
    · exact ⟨'.', name.toList, by simp, by decide⟩
    · exact (hbegins.append _).append _

/-- A type that is found by its short name is found under this name, in the package of its file or
in one that is imported. -/
theorem cases_of_typeIn (hunresolved : t.resolved = none)
    (h : v.typeIn t package wildcards = some base) :
    erase t.text ≠ "" ∧ (base = erase t.text ∨ base = package ++ "." ++ erase t.text ∨
      ∃ w ∈ wildcards, base = w ++ "." ++ erase t.text) := by
  unfold typeIn at h
  rw [hunresolved] at h
  dsimp only at h
  split at h
  · cases h
  next hnamed =>
    constructor
    · intro hempty
      apply hnamed
      rw [hempty]
      rfl
    · have hmem := List.mem_of_find?_eq_some h
      rw [List.mem_append, List.mem_cons, List.mem_map] at hmem
      -- The candidates in their order: as it is written, in the package, in an import.
      rcases hmem with hown | hnear | ⟨w, hw, rfl⟩
      · split at hown
        · exact Or.inl (List.mem_singleton.mp hown)
        · cases hown
      · rw [qualify] at hnear
        split at hnear
        · exact Or.inl hnear
        · exact Or.inr (Or.inl hnear)
      · exact Or.inr (Or.inr ⟨w, hw, rfl⟩)

/-- What is found for a type is left when the arguments of the text that is found are dropped, if
the packages in which it is looked for are plain. -/
theorem erase_typeTextIn (hplain : t.resolved = none → ∀ w ∈ package :: wildcards, PlainPackage w)
    (h : v.typeIn t package wildcards = some base) :
    ∃ text, v.typeTextIn t package wildcards = some text ∧ erase text = base := by
  unfold typeTextIn
  cases hresolved : t.resolved with
  | some resolved =>
    unfold typeIn at h
    rw [hresolved] at h
    exact ⟨resolved, rfl, Option.some.inj h⟩
  | none =>
    dsimp only
    refine ⟨_, congrArg _ h, ?_⟩
    obtain ⟨hne, hcases⟩ := cases_of_typeIn hresolved h
    have hbare := bare_erase t.text
    have htight : Tight (erase t.text).toList := tight_trim hne
    -- Whatever qualifies the name, erasing the text with its arguments gives it back.
    have hbase : Bare base.toList ∧ Tight base.toList := by
      rcases hcases with rfl | rfl | ⟨w, hw, rfl⟩
      · exact ⟨hbare, htight⟩
      · exact (hplain hresolved package List.mem_cons_self).qualified hbare htight
      · exact (hplain hresolved w (List.mem_cons_of_mem _ hw)).qualified hbare htight
    exact erase_append hbase.1 hbase.2 (dropWhile_ne_open _)

end IndexView

/-! ## Verdicts -/

namespace Candidate

/-- The reference, called on something whose type is recorded as it is written. -/
def typed (c : Candidate) (t : TypeRef) : Candidate :=
  { c with symbol := { c.symbol with
      receiverType := some t
      receiverChain := none } }

/-- The reference, called on something whose type is recorded as the root of a chain without
steps. -/
def chained (c : Candidate) (t : TypeRef) : Candidate :=
  { c with symbol := { c.symbol with
      receiverType := none
      receiverChain := some { root := .typed t, steps := [] } } }

/-- The member takes as many arguments as the reference has. -/
def Fits (c : Candidate) (m : Member) : Prop :=
  (c.symbol.argCount.map (takesArgs m.params)).getD true = true

/-- What the reference is called on is a type or an expression. -/
def OnTypeOrExpr (c : Candidate) : Prop := c.symbol.receiver = .type ∨ c.symbol.receiver = .expr

end Candidate

namespace IndexView

variable {v : IndexView} {m : Member} {c : Candidate} {t : TypeRef}

/-- The verdict for a reference that is called on a value of a type. -/
def targetVerdict (v : IndexView) (owner target : String) : Except Failure SiteVerdict :=
  ((v.judgeTarget owner target).run.run []).1

/-- The name that the type has in the file of the reference. -/
def typeFor (v : IndexView) (c : Candidate) (t : TypeRef) : Option String :=
  v.typeIn t c.package c.wildcards

/-- This name with the arguments of the type. -/
def typeTextFor (v : IndexView) (c : Candidate) (t : TypeRef) : Option String :=
  v.typeTextIn t c.package c.wildcards

/-- A candidate that does not fit is unrelated. -/
theorem verdictAlone_of_not_fits (h : ¬ c.Fits m) : v.verdictAlone m c = .ok .unrelated := by
  rw [verdictAlone, judge, if_pos (by simpa [Candidate.Fits] using h)]
  rfl

/-- A creation is of the member if the type created is its owner. -/
theorem verdictAlone_new (h : c.Fits m) (hkind : c.symbol.kind = .new) :
    v.verdictAlone m c =
      .ok (.when (c.symbol.receiverType.bind (v.typeFor c) == some m.owner)) := by
  rw [verdictAlone, judge, if_neg (by simpa [Candidate.Fits] using h), if_pos (by simp [hkind])]
  rfl

/-- Any other reference is judged by its receiver. -/
theorem verdictAlone_on (h : c.Fits m) (hkind : c.symbol.kind ≠ .new) (hon : c.OnTypeOrExpr) :
    v.verdictAlone m c = ((v.judgeReceiver m.owner c).run.run []).1 := by
  rw [verdictAlone, judge, if_neg (by simpa [Candidate.Fits] using h),
    if_neg (by simpa using hkind)]
  rcases hon with hon | hon
  · rw [hon]
  · rw [hon]

/-- A written type that is not found has nothing to do with the member. -/
theorem verdictAlone_typed (h : c.Fits m) (hkind : c.symbol.kind ≠ .new) (hon : c.OnTypeOrExpr) :
    v.verdictAlone m (c.typed t) =
      match v.typeFor c t with
      | some base => v.targetVerdict m.owner base
      | none => .ok .unrelated := by
  have hjudged : v.verdictAlone m (c.typed t) =
      ((v.judgeReceiver m.owner (c.typed t)).run.run []).1 := verdictAlone_on h hkind hon
  rw [hjudged]
  unfold judgeReceiver typeFor Candidate.typed
  dsimp only
  cases v.typeIn t c.package c.wildcards with
  | some base => rfl
  | none => rfl

/-- A chain whose type is not found leads to nothing that is known. -/
theorem verdictAlone_chained (h : c.Fits m) (hkind : c.symbol.kind ≠ .new) (hon : c.OnTypeOrExpr) :
    v.verdictAlone m (c.chained t) =
      match v.typeTextFor c t with
      | some text => v.targetVerdict m.owner (Java.erase text)
      | none => .ok .unresolved := by
  have hjudged : v.verdictAlone m (c.chained t) =
      ((v.judgeReceiver m.owner (c.chained t)).run.run []).1 := verdictAlone_on h hkind hon
  rw [hjudged]
  unfold judgeReceiver walkChain walkSteps typeTextFor Candidate.chained
  dsimp only
  rw [pure_bind]
  cases v.typeTextIn t c.package c.wildcards with
  | some text => rfl
  | none => rfl

/-- A type has a text with its arguments exactly if it has a name. -/
theorem typeTextFor_eq_none_iff : v.typeTextFor c t = none ↔ v.typeFor c t = none := by
  unfold typeTextFor typeTextIn typeFor typeIn
  cases t.resolved with
  | some resolved => simp
  | none => simp

/-- The verdict for a type that is known both ways. -/
def SameTarget (v : IndexView) (m : Member) (c : Candidate) (t : TypeRef) : Prop :=
  ∃ base text, v.typeFor c t = some base ∧ v.typeTextFor c t = some text ∧
    v.targetVerdict m.owner base = v.targetVerdict m.owner (Java.erase text)

/-- An object is created by the type alone, so that a chain is not looked at. -/
theorem verdictAlone_new_eq_iff (h : c.Fits m) (hkind : c.symbol.kind = .new) :
    v.verdictAlone m (c.typed t) = v.verdictAlone m (c.chained t) ↔
      v.typeFor c t ≠ some m.owner := by
  have htyped : v.verdictAlone m (c.typed t) = .ok (.when (v.typeFor c t == some m.owner)) :=
    verdictAlone_new h hkind
  have hchained : v.verdictAlone m (c.chained t) = .ok .unrelated := verdictAlone_new h hkind
  rw [htyped, hchained]
  by_cases howner : v.typeFor c t = some m.owner
  · simp [howner, SiteVerdict.when]
  · simp [howner, SiteVerdict.when]

/-- Typed or begun by a chain, a receiver leads to one verdict exactly if the target is the same. -/
theorem verdictAlone_on_eq_iff (h : c.Fits m) (hkind : c.symbol.kind ≠ .new)
    (hon : c.OnTypeOrExpr) :
    v.verdictAlone m (c.typed t) = v.verdictAlone m (c.chained t) ↔ v.SameTarget m c t := by
  rw [verdictAlone_typed h hkind hon, verdictAlone_chained h hkind hon]
  unfold SameTarget
  -- A type that is not found is unrelated one way and unresolved the other.
  cases hbase : v.typeFor c t with
  | none =>
    rw [typeTextFor_eq_none_iff.mpr hbase]
    exact iff_of_false nofun nofun
  | some base =>
    obtain ⟨text, htext⟩ : ∃ text, v.typeTextFor c t = some text := by
      refine Option.ne_none_iff_exists'.mp ?_
      rw [ne_eq, typeTextFor_eq_none_iff, hbase]
      exact nofun
    rw [htext]
    constructor
    · intro hsame
      exact ⟨base, text, rfl, rfl, hsame⟩
    · rintro ⟨_, _, ⟨⟩, ⟨⟩, hsame⟩
      exact hsame

/-- With plain packages around, a type that is found is the same target both ways. -/
theorem sameTarget_of_plain (hfound : v.typeFor c t ≠ none)
    (hplain : t.resolved = none → ∀ w ∈ c.package :: c.wildcards, PlainPackage w) :
    v.SameTarget m c t := by
  obtain ⟨base, hbase⟩ := Option.ne_none_iff_exists'.mp hfound
  obtain ⟨text, htext, herase⟩ := erase_typeTextIn hplain hbase
  exact ⟨base, text, hbase, htext, by rw [herase]⟩

end IndexView

open IndexView in
/-- Recorded by its type or by a chain that begins with it, a receiver leads to the same verdict
exactly if the number of arguments does not fit anyway, or for an object that is created the type
is not that of the member, or else the type is found and what is left of it is judged alike. This
is so if its full name has been told by its file, and if it is found under plain packages. If it
is not found, then the one way has nothing to do with the member and the other is not known. -/
theorem written_receiver_same_verdict_iff {v : IndexView} {cache : SupertypeCache}
    (hcache : v.CacheSound cache) (m : Member) {c : Candidate} (hon : c.OnTypeOrExpr)
    (t : TypeRef) :
    (((v.judge m (c.typed t)).run.run cache).1 = ((v.judge m (c.chained t)).run.run cache).1 ↔
      ¬ c.Fits m ∨ c.symbol.kind = .new ∧ v.typeFor c t ≠ some m.owner ∨
        c.symbol.kind ≠ .new ∧ v.SameTarget m c t) ∧
    (v.typeFor c t ≠ none → (t.resolved = none → ∀ w ∈ c.package :: c.wildcards, PlainPackage w) →
      v.SameTarget m c t) ∧
    (c.Fits m → c.symbol.kind ≠ .new → v.typeFor c t = none →
      ((v.judge m (c.typed t)).run.run cache).1 = .ok .unrelated ∧
        ((v.judge m (c.chained t)).run.run cache).1 = .ok .unresolved) := by
  rw [(hcache.judge m (c.typed t)).1, (hcache.judge m (c.chained t)).1]
  refine ⟨?_, sameTarget_of_plain, ?_⟩
  · -- Creations are judged by the owner alone, so they come first.
    by_cases hfits : c.Fits m
    · by_cases hkind : c.symbol.kind = .new
      · rw [verdictAlone_new_eq_iff hfits hkind]
        simp [hfits, hkind]
      · rw [verdictAlone_on_eq_iff hfits hkind hon]
        simp [hfits, hkind]
    · have htyped : v.verdictAlone m (c.typed t) = .ok .unrelated := verdictAlone_of_not_fits hfits
      have hchained : v.verdictAlone m (c.chained t) = .ok .unrelated :=
        verdictAlone_of_not_fits hfits
      exact iff_of_true (htyped.trans hchained.symm) (Or.inl hfits)
  · intro hfits hkind hnone
    rw [verdictAlone_typed hfits hkind hon, verdictAlone_chained hfits hkind hon,
      typeTextFor_eq_none_iff.mpr hnone, hnone]
    exact ⟨rfl, rfl⟩

/-- An index of the class `p.W`. -/
def importedClass : IndexView where
  index :=
    { files := [IndexView.packageFile 1 "W.java"]
      declarations :=
        [{ id := 1, fileId := 1, package := "p", symbol := { qualname := "p.W", name := "W" } }] }
  disk := default
  root := "/"

/-- A call `w.reset()` in a file of another package that imports this one as a whole. -/
def callOnImported (wildcard : String) : Candidate where
  symbol := { kind := .call, name := "reset", argCount := some 0, receiver := .expr }
  package := "q"
  wildcards := [wildcard]
  site := default

/-- Under an imported package the type is found with its arguments, and the verdicts are the
same. -/
theorem written_receiver_same_verdict_imported :
    importedClass.CacheSound [] ∧ (callOnImported "p").OnTypeOrExpr ∧
      importedClass.typeTextFor (callOnImported "p") { text := "W<X>" } = some "p.W<X>" ∧
      ((importedClass.judge IndexView.resetMethod
        ((callOnImported "p").typed { text := "W<X>" })).run.run []).1 = .ok .resolved ∧
      ((importedClass.judge IndexView.resetMethod
        ((callOnImported "p").chained { text := "W<X>" })).run.run []).1 = .ok .resolved := by
  have hon : (callOnImported "p").OnTypeOrExpr := Or.inr rfl
  have hplain : ∀ w ∈ ["q", "p"], IndexView.PlainPackage w := by
    refine List.forall_mem_cons.mpr ⟨?_, List.forall_mem_singleton.mpr ?_⟩
    · exact ⟨List.forall_mem_singleton.mpr (by decide), Or.inr ⟨'q', [], rfl, rfl⟩⟩
    · exact ⟨List.forall_mem_singleton.mpr (by decide), Or.inr ⟨'p', [], rfl, rfl⟩⟩
  have htyped : ((importedClass.judge IndexView.resetMethod
      ((callOnImported "p").typed { text := "W<X>" })).run.run []).1 = .ok .resolved := by
    decide +kernel
  have hfound : importedClass.typeFor (callOnImported "p") { text := "W<X>" } ≠ none := by
    decide +kernel
  obtain ⟨hiff, htarget, -⟩ := written_receiver_same_verdict_iff IndexView.cacheSound_nil
    IndexView.resetMethod hon { text := "W<X>" }
  have hsame := hiff.mpr (Or.inr (Or.inr ⟨nofun, htarget hfound fun _ => hplain⟩))
  exact ⟨IndexView.cacheSound_nil, hon, by decide +kernel, htyped, hsame.symm.trans htyped⟩

/-- A type of a package that is not indexed has nothing to do with the method if it is recorded as
written, and is not known as the root of a chain. -/
theorem written_receiver_outside_index :
    ((importedClass.judge IndexView.resetMethod
        ((callOnImported "z").typed { text := "W" })).run.run []).1 = .ok .unrelated ∧
      ((importedClass.judge IndexView.resetMethod
        ((callOnImported "z").chained { text := "W" })).run.run []).1 = .ok .unresolved := by
  decide +kernel

end JavaAtlas
