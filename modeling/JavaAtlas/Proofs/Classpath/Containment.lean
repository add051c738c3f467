import JavaAtlas.Proofs.Classpath.Search
import JavaAtlas.Proofs.Descent

namespace JavaAtlas

open JavaAtlas.Path

/-! # The search stays in the classpath

A dotted name has no dots left once it is split, so that no class file of it leads out of a
directory, unless its first segment starts at the root.

* `Classpath.covers_askedFor`: every file that an entry is asked about lies below a directory of the
  classpath or is one of its archives;
* `Classpath.load_eq_of_agree`: nothing else matters for what is loaded;
* `Classpath.load_contained`: and the location of what is loaded tells the entry.
-/

namespace ClasspathEntry

/-- The one file that matters when a class file is looked for in an entry. -/
def askedFor (name : String) : ClasspathEntry → String
  | .directory dir => join dir name
  | .archive jar => jar

/-- Whether a file belongs to an entry: it lies below the directory, or it is the archive. -/
def Covers : ClasspathEntry → String → Prop
  | .directory dir, path => Below dir path
  | .archive jar, path => path = jar

end ClasspathEntry

namespace Classpath

variable {c : Classpath} {disk disk' : Disk} {q name path : String} {e : ClasspathEntry}

/-- Whether the first segment of a name that counts starts at the root. -/
def rooted (q : String) : Bool := (nameSegments q).head?.any isAbsolute

/-- Whether a file belongs to an entry of the classpath. -/
def Covers (c : Classpath) (path : String) : Prop := ∃ e ∈ c.entries, e.Covers path

/-! ## Paths of class files -/

/-- No class file to look for has a dot in it. -/
theorem dot_not_mem_of_mem_candidates (hname : name ∈ candidates q) : '.' ∉ name.toList := by
  obtain ⟨outer, -, rfl⟩ := mem_candidates_iff.mp hname
  have hsegments : ∀ s ∈ nameSegments q, '.' ∉ s.toList := fun s => dot_not_mem_of_mem_nameSegments
  intro hdot
  rcases mem_toList_intercalate hdot with hsep | ⟨s, hs, hmem⟩
  · exact absurd hsep (by decide)
  · rcases List.mem_append.mp hs with hs | hs
    · exact hsegments s (List.mem_of_mem_take hs) hmem
    · rw [List.mem_singleton] at hs
      rw [hs] at hmem
      rcases mem_toList_intercalate hmem with hsep | ⟨t, ht, hmem⟩
      · exact absurd hsep (by decide)
      · exact hsegments t (List.mem_of_mem_drop ht) hmem

/-- A class file starts as its name does. -/
theorem head?_of_mem_candidates (hname : name ∈ candidates q) :
    ∃ s, (nameSegments q).head? = some s ∧ s ≠ "" ∧ name.toList.head? = s.toList.head? := by
  obtain ⟨outer, houter, rfl⟩ := mem_candidates_iff.mp hname
  have hsegments : ∀ s ∈ nameSegments q, s ≠ "" := fun s => ne_empty_of_mem_nameSegments
  unfold classFile
  match hq : nameSegments q with
  | [] => simp [hq] at houter
  | s :: rest =>
    rw [hq] at hsegments
    have hs : s ≠ "" := hsegments s List.mem_cons_self
    refine ⟨s, rfl, hs, ?_⟩
    cases outer with
    | zero =>
      rw [List.take_zero, List.nil_append, String.intercalate_singleton, List.drop_zero,
        head?_intercalate_cons hs]
    | succ outer => rw [List.take_succ_cons, List.cons_append, head?_intercalate_cons hs]

/-- The class files of a name that does not start at the root lead down. -/
theorem plain_of_mem_candidates (hq : rooted q = false) (hname : name ∈ candidates q) :
    Plain (name ++ ".class") := by
  obtain ⟨s, hhead, hs, hstart⟩ := head?_of_mem_candidates hname
  obtain ⟨front, last, hfront, hsegments⟩ :=
    segments_append (a := name) (b := ".class") (by decide)
  constructor
  · have hne : name.toList ≠ [] := by
      intro hnil
      rw [hnil, List.head?_nil, eq_comm, List.head?_eq_none_iff] at hstart
      exact hs (by simpa using hstart)
    have hrelative : isAbsolute s = false := by
      unfold rooted at hq
      rwa [hhead, Option.any_some] at hq
    rw [Bool.eq_false_iff, ne_eq, isAbsolute_iff] at hrelative ⊢
    rwa [String.toList_append, List.head?_append_of_ne_nil _ hne, hstart]
  · intro t ht
    rw [hsegments, List.mem_append, List.mem_singleton] at ht
    -- A segment of the name has no dot, and the file name is longer than two dots.
    rcases ht with ht | rfl
    · have hdot : '.' ∉ t.toList := fun hdot =>
        dot_not_mem_of_mem_candidates hname
          (mem_of_mem_segment (hfront ▸ List.mem_append_left [last] ht) hdot)
      constructor
      · rintro rfl
        exact hdot (by decide)
      · rintro rfl
        exact hdot (by decide)
    · constructor
      all_goals
        intro heq
        have hlength := congrArg String.length heq
        rw [String.length_append] at hlength
        have : (".class" : String).length = 6 := by decide
        have : ("." : String).length = 1 := by decide
        have : (".." : String).length = 2 := by decide
        omega

/-- A class file has a name. -/
theorem namesOf_ne_nil (name : String) : namesOf (name ++ ".class") ≠ [] := by
  obtain ⟨front, last, -, hsegments⟩ := segments_append (a := name) (b := ".class") (by decide)
  have hmem : last ++ ".class" ∈ namesOf (name ++ ".class") := by
    unfold namesOf
    rw [List.mem_filter, hsegments]
    simp
  exact List.ne_nil_of_mem hmem

/-! ## Files that matter -/

/-- Every file that matters when the class of a name is looked for belongs to the classpath. -/
theorem covers_askedFor (hq : rooted q = false) (hname : name ∈ candidates q)
    (he : e ∈ c.entries) : c.Covers (e.askedFor (name ++ ".class")) := by
  refine ⟨e, he, ?_⟩
  have hplain := plain_of_mem_candidates hq hname
  cases e with
  | directory dir =>
    exact ⟨_, namesOf_ne_nil name, hplain.properNames, hplain.components_join dir⟩
  | archive jar => rfl

/-- What an entry answers depends on one file. -/
theorem readIn_congr (h : disk.find (e.askedFor path) = disk'.find (e.askedFor path)) :
    readIn disk path e = readIn disk' path e := by
  cases e with
  | directory dir =>
    rw [ClasspathEntry.askedFor] at h
    rw [readIn_directory, readIn_directory, h]
  | archive jar =>
    rw [ClasspathEntry.askedFor] at h
    rw [readIn_archive, readIn_archive, h]

/-- What is loaded depends on nothing but the files that belong to the classpath. -/
theorem load_eq_of_agree (hq : rooted q = false)
    (h : ∀ path, c.Covers path → disk.find path = disk'.find path) :
    c.load disk q = c.load disk' q := by
  have hread : c.readFirst disk (candidates q) = c.readFirst disk' (candidates q) := by
    rw [readFirst_eq_findSomeM?, readFirst_eq_findSomeM?]
    refine findSomeM?_congr fun name hname => findSomeM?_congr fun e he => ?_
    exact readIn_congr (h _ (covers_askedFor hq hname he))
  unfold load
  rw [hread]

/-- A file is opened on the search of a class: it is what an entry is asked about, after all places
before it have been passed. -/
def Opens (c : Classpath) (disk : Disk) (q path : String) : Prop :=
  ∃ place name e, c.LooksAt (candidates q) place name e ∧ c.PassedTo disk (candidates q) place ∧
    disk.isFile path = true ∧ path = e.askedFor (name ++ ".class")

/-- The location of what is loaded is that of a class that an entry has. -/
theorem exists_holds_of_load {info : ArtifactInfo} (h : c.load disk q = .ok (some info)) :
    ∃ name ∈ candidates q, ∃ e ∈ c.entries, ∃ found, Holds disk (name ++ ".class") e found ∧
      info.location = found.location := by
  match hread : c.readFirst disk (candidates q) with
  | .error failure =>
    unfold load at h
    rw [hread] at h
    cases h
  | .ok none =>
    rw [load_eq_none_iff.mpr hread] at h
    cases h
  | .ok (some found) =>
    -- What is loaded was read, and what was read is held by an entry.
    obtain ⟨place, name, e, hlooks, -, hfound⟩ := (readFirst_eq_iff (by simp)).mp hread
    refine ⟨name, List.mem_of_getElem? hlooks.name, e, List.mem_of_getElem? hlooks.entry, found,
      readIn_eq_some_iff.mp hfound, ?_⟩
    rw [load_of_readFirst hread, loadedAs] at h
    match hparse : ClassFile.parse found.content with
    | .error fault =>
      rw [hparse] at h
      cases h
    | .ok parsed =>
      rw [hparse] at h
      cases h
      rfl

/-- A name that does not start at the root is looked for in the classpath only: every file that is
opened belongs to an entry, what other files there are makes no difference, and the location of what
is loaded starts with the normal form of an entry or, where this is a single dot, leads down from
there. -/
theorem load_contained (c : Classpath) {q : String} (hq : rooted q = false) :
    (∀ disk path, c.Opens disk q path → c.Covers path) ∧
    (∀ disk disk', (∀ path, c.Covers path → Disk.find disk path = Disk.find disk' path) →
      c.load disk q = c.load disk' q) ∧
    ∀ disk info, c.load disk q = .ok (some info) → ∃ e ∈ c.entries,
      (∃ rest, info.location = normalize e.path ++ rest) ∨
        normalize e.path = "." ∧ ∃ names, names ≠ [] ∧ Disk.ProperNames names ∧
          info.location = "/".intercalate names := by
  refine ⟨?_, fun disk disk' => load_eq_of_agree hq, ?_⟩
  · rintro disk path ⟨place, name, e, hlooks, -, -, rfl⟩
    exact covers_askedFor hq (List.mem_of_getElem? hlooks.name) (List.mem_of_getElem? hlooks.entry)
  · intro disk info hload
    obtain ⟨name, hname, e, he, found, hholds, hlocation⟩ := exists_holds_of_load hload
    refine ⟨e, he, ?_⟩
    have hplain := plain_of_mem_candidates hq hname
    rw [hlocation]
    cases hholds with
    | @directory dir names content hfile =>
      exact Below.normalize_eq ⟨_, namesOf_ne_nil name, hplain.properNames,
        hplain.components_join dir⟩
    | @archive jar names content entries bytes hfile hentries hbytes =>
      -- Inside an archive the location goes on from the archive itself.
      exact Or.inl ⟨"!/" ++ (name ++ ".class"), String.append_assoc ..⟩

/-- What is read was opened somewhere. -/
theorem Opens.of_readFirst {found : FoundClass}
    (h : c.readFirst disk (candidates q) = .ok (some found)) : ∃ path, c.Opens disk q path := by
  obtain ⟨place, name, e, hlooks, hpassed, hread⟩ := (readFirst_eq_iff (by simp)).mp h
  refine ⟨_, place, name, e, hlooks, hpassed, ?_, rfl⟩
  cases readIn_eq_some_iff.mp hread with
  | directory hfile => exact Disk.isFile_of_find hfile
  | archive hfile => exact Disk.isFile_of_find hfile

/-- A class file is opened on the shelves, and inside the classpath. -/
theorem load_contained_shelved :
    rooted "p.O.I" = false ∧
      ∃ path, shelved.Opens shelves "p.O.I" path ∧ shelved.Covers path := by
  have hq : rooted "p.O.I" = false := by decide +kernel
  have hread : (shelved.readFirst shelves (candidates "p.O.I")).toOption =
      some (some ⟨emptyClass.toList, "/b/p/O$I.class"⟩) := by decide +kernel
  obtain ⟨path, hopens⟩ := Opens.of_readFirst (eq_ok_of_toOption_eq_some hread)
  exact ⟨hq, path, hopens, (load_contained shelved hq).1 shelves path hopens⟩

/-- A disk with a class in its working directory. -/
def workplace : Disk where
  entries := [("/w", .directory), ("/w/p", .directory), ("/w/p/A.class", .file emptyClass)]
  workingDirectory := "/w"

/-- The location of a class in the working directory does not start with the dot that names this
directory; and a name that starts at the root leads out of the classpath. -/
theorem location_leaves_dot :
    (∃ info, load ⟨[.directory "."]⟩ workplace "p.A" = .ok (some info) ∧
      ¬ ∃ rest, info.location = normalize "." ++ rest) ∧
    ∃ path, Opens ⟨[.directory "/lib"]⟩ workplace "/w/p/A" path ∧
      ¬ Covers ⟨[.directory "/lib"]⟩ path := by
  constructor
  · have hload : ((load ⟨[.directory "."]⟩ workplace "p.A").toOption.bind id).map (·.location) =
        some "p/A.class" := by decide +kernel
    obtain ⟨info, hinfo, hlocation⟩ := Option.map_eq_some_iff.mp hload
    obtain ⟨_, hok, rfl⟩ := Option.bind_eq_some_iff.mp hinfo
    refine ⟨info, eq_ok_of_toOption_eq_some hok, ?_⟩
    rintro ⟨rest, hrest⟩
    have hdot : (normalize ".").toList = ['.'] := by decide +kernel
    have hhead := congrArg (fun s : String => s.toList.head?) (hlocation.symm.trans hrest)
    rw [String.toList_append, hdot, List.singleton_append, List.head?_cons] at hhead
    exact absurd hhead (by decide)
  · have hnames : candidates "/w/p/A" = ["/w/p/A"] := by decide +kernel
    refine ⟨"/w/p/A.class", ⟨(0, 0), "/w/p/A", .directory "/lib", ⟨?_, rfl⟩, passedTo_first,
      by decide +kernel, by decide +kernel⟩, ?_⟩
    · rw [hnames]
      rfl
    · rintro ⟨e, he, hcovers⟩
      rw [List.mem_singleton] at he
      subst he
      -- The two paths part in their second component.
      obtain ⟨names, -, -, hcomponents⟩ := hcovers
      have hpath : components "/w/p/A.class" =
          [.root, .normal "w", .normal "p", .normal "A.class"] := by decide +kernel
      have hlib : components "/lib" = [.root, .normal "lib"] := by decide +kernel
      rw [hpath, hlib] at hcomponents
      simp at hcomponents

end Classpath

end JavaAtlas
