import JavaAtlas.Proofs.Classpath.Candidates
import JavaAtlas.Proofs.Outcome

namespace JavaAtlas

/-! # The search of a classpath

The class files of a name are looked for in every entry, first the least nested in all entries.
What is loaded is the class at the first place that has one, and places behind it do not matter.

* `Classpath.readIn_eq_some_iff`, `Classpath.readIn_eq_error_iff`: what one entry answers;
* `Classpath.readFirst_eq_iff`: the answer of the search is that of the first place that is not
  without the class;
* `Classpath.least_nested_first`: so the least nested, earliest class is loaded.
-/

/-! ## The first answer of a list of steps -/

section FirstAnswer

variable {α β ε : Type} {f : α → Except ε (Option β)}

/-- The search without an answer has asked all. -/
theorem findSomeM?_eq_ok_none_iff {xs : List α} :
    xs.findSomeM? f = .ok none ↔ ∀ x ∈ xs, f x = .ok none := by
  induction xs with
  | nil => simp [pure, Except.pure]
  | cons x xs ih =>
    rw [List.findSomeM?_cons, bind_eq_ok_iff, List.forall_mem_cons, ← ih]
    constructor
    · rintro ⟨answer, hx, hrest⟩
      cases answer with
      | none => exact ⟨hx, hrest⟩
      | some b => cases hrest
    · rintro ⟨hx, hrest⟩
      exact ⟨none, hx, hrest⟩

/-- Any other outcome of a search is that of the first step that has an answer or fails. -/
theorem findSomeM?_eq_iff {xs : List α} {r : Except ε (Option β)} (hr : r ≠ .ok none) :
    xs.findSomeM? f = r ↔
      ∃ (i : Nat) (x : α), xs[i]? = some x ∧ f x = r ∧
        ∀ j < i, ∀ y, xs[j]? = some y → f y = .ok none := by
  induction xs with
  | nil =>
    simp only [List.findSomeM?_nil, List.getElem?_nil, reduceCtorEq, false_and, exists_false,
      iff_false]
    exact fun h => hr h.symm
  | cons x xs ih =>
    have hcons : f x ≠ .ok none → (x :: xs).findSomeM? f = f x := by
      intro hx
      rw [List.findSomeM?_cons]
      match hfx : f x with
      | .ok none => exact absurd hfx hx
      | .ok (some b) => rfl
      | .error e => rfl
    -- a first step that passes leaves the outcome to the rest, with the positions moved by one
    by_cases hx : f x = .ok none
    · have hnone : (x :: xs).findSomeM? f = xs.findSomeM? f := by
        rw [List.findSomeM?_cons, hx]
        rfl
      rw [hnone, ih]
      constructor
      · rintro ⟨i, y, hy, hfy, hbefore⟩
        refine ⟨i + 1, y, by simpa using hy, hfy, fun j hj z hz => ?_⟩
        cases j with
        | zero =>
          rw [List.getElem?_cons_zero, Option.some_inj] at hz
          rwa [← hz]
        | succ j => exact hbefore j (by omega) z (by simpa using hz)
      · rintro ⟨i, y, hy, hfy, hbefore⟩
        cases i with
        | zero =>
          rw [List.getElem?_cons_zero, Option.some_inj] at hy
          rw [← hy, hx] at hfy
          exact absurd hfy.symm hr
        | succ i =>
          exact ⟨i, y, by simpa using hy, hfy,
            fun j hj z hz => hbefore (j + 1) (by omega) z (by simpa using hz)⟩
    · rw [hcons hx]
      constructor
      · intro h
        exact ⟨0, x, List.getElem?_cons_zero, h, fun j hj => absurd hj (Nat.not_lt_zero j)⟩
      · rintro ⟨i, y, hy, hfy, hbefore⟩
        cases i with
        | zero =>
          rw [List.getElem?_cons_zero, Option.some_inj] at hy
          rwa [hy]
        | succ i =>
          exact absurd (hbefore 0 (Nat.succ_pos i) x List.getElem?_cons_zero) hx

/-- Steps that agree on what is searched find the same. -/
theorem findSomeM?_congr {g : α → Except ε (Option β)} {xs : List α} (h : ∀ x ∈ xs, f x = g x) :
    xs.findSomeM? f = xs.findSomeM? g := by
  induction xs with
  | nil => rfl
  | cons x xs ih =>
    obtain ⟨hx, hxs⟩ := List.forall_mem_cons.mp h
    rw [List.findSomeM?_cons, List.findSomeM?_cons, hx, ih hxs]

end FirstAnswer

/-! ## Files -/

namespace Disk

variable {disk : Disk} {path : String} {names : List String} {found : DiskEntry}

/-- Whether a path is a file is told by what is found there. -/
theorem isFile_of_find (h : disk.find path = .ok (names, found)) :
    disk.isFile path = found.isFile := by
  unfold isFile
  rw [h]

/-- A path at which nothing is found is no file. -/
theorem isFile_of_find_error {fault : FileFault} (h : disk.find path = .error fault) :
    disk.isFile path = false := by
  unfold isFile
  rw [h]

/-- What is read at a path is what is found there. -/
theorem read_of_find (h : disk.find path = .ok (names, found)) : disk.read path = found.read := by
  unfold read
  rw [h]
  rfl

end Disk

namespace Classpath

variable {c : Classpath} {disk : Disk} {path q : String} {e : ClasspathEntry} {found : FoundClass}

/-! ## One entry -/

/-- The class that an entry has under the path of a class file. -/
inductive Holds (disk : Disk) (path : String) : ClasspathEntry → FoundClass → Prop
  | directory {dir : String} {names : List String} {content : ByteArray}
      (hfile : disk.find (Path.join dir path) = .ok (names, .file content)) :
      Holds disk path (.directory dir) ⟨content.toList, Path.normalize (Path.join dir path)⟩
  | archive {jar : String} {names : List String} {content : ByteArray}
      {entries : List Archive.ZipEntry} {bytes : List UInt8}
      (hfile : disk.find jar = .ok (names, .file content))
      (hentries : Archive.entries content = .ok entries)
      (hbytes : Archive.read? entries content path = .ok (some bytes)) :
      Holds disk path (.archive jar) ⟨bytes, Path.normalize jar ++ "!/" ++ path⟩

/-- An entry cannot tell whether it has a class file, or what is in it: something that is there
cannot be read. -/
inductive Fails (disk : Disk) (path : String) : ClasspathEntry → Prop
  | directory {dir : String} {names : List String}
      (hfile : disk.find (Path.join dir path) = .ok (names, .locked)) :
      Fails disk path (.directory dir)
  | archive {jar : String} {names : List String}
      (hfile : disk.find jar = .ok (names, .locked)) : Fails disk path (.archive jar)
  | entries {jar : String} {names : List String} {content : ByteArray} {fault : Archive.ZipError}
      (hfile : disk.find jar = .ok (names, .file content))
      (hentries : Archive.entries content = .error fault) : Fails disk path (.archive jar)
  | bytes {jar : String} {names : List String} {content : ByteArray}
      {entries : List Archive.ZipEntry} {fault : Archive.ZipError}
      (hfile : disk.find jar = .ok (names, .file content))
      (hentries : Archive.entries content = .ok entries)
      (hbytes : Archive.read? entries content path = .error fault) : Fails disk path (.archive jar)

/-- A folder gives the file under it, passes what is missing there, and fails on what cannot be
read. -/
theorem readIn_directory (disk : Disk) (path dir : String) :
    readIn disk path (.directory dir) =
      match disk.find (Path.join dir path) with
      | .ok (_, .file content) =>
        .ok (some ⟨content.toList, Path.normalize (Path.join dir path)⟩)
      | .ok (_, .locked) => .error (.while ("read " ++ Path.join dir path) (.file .denied))
      | .ok (_, .directory) | .error _ => .ok none := by
  match hfile : disk.find (Path.join dir path) with
  | .error fault => simp [readIn, Disk.isFile_of_find_error hfile]
  | .ok (names, found) =>
    simp only [readIn, Disk.isFile_of_find hfile, Disk.read_of_find hfile]
    cases found <;> rfl

/-- An archive gives its entry, passes what is missing, and fails on what cannot be read. -/
theorem readIn_archive (disk : Disk) (path jar : String) :
    readIn disk path (.archive jar) =
      match disk.find jar with
      | .ok (_, .file content) =>
        match Archive.entries content with
        | .error fault => .error (.while ("read archive " ++ jar) fault.toFailure)
        | .ok entries =>
          match Archive.read? entries content path with
          | .error fault => .error (.while ("read " ++ path ++ " in " ++ jar) fault.toFailure)
          | .ok bytes => .ok (bytes.map fun bytes => ⟨bytes, Path.normalize jar ++ "!/" ++ path⟩)
      | .ok (_, .locked) => .error (.while ("open " ++ jar) (.file .denied))
      | .ok (_, .directory) | .error _ => .ok none := by
  match hfile : disk.find jar with
  | .error fault => simp [readIn, Disk.isFile_of_find_error hfile, pure, Except.pure]
  | .ok (names, found) =>
    simp only [readIn, readArchived, Disk.isFile_of_find hfile, Disk.read_of_find hfile]
    cases found with
    | directory => rfl
    | locked => rfl
    | file content =>
      match hentries : Archive.entries content with
      | .error fault => simp [DiskEntry.isFile, DiskEntry.read, hentries, bind, Except.bind]
      | .ok entries =>
        cases hbytes : Archive.read? entries content path <;>
          simp [DiskEntry.isFile, DiskEntry.read, hentries, hbytes, bind, Except.bind, pure,
            Except.pure]

/-- An entry gives a content exactly if it holds it. -/
theorem readIn_eq_some_iff : readIn disk path e = .ok (some found) ↔ Holds disk path e found := by
  constructor
  · intro h
    cases e with
    | directory dir =>
      rw [readIn_directory] at h
      match hfile : disk.find (Path.join dir path) with
      | .error _ | .ok (_, .directory) | .ok (_, .locked) => simp [hfile] at h
      | .ok (names, .file content) =>
        simp only [hfile] at h
        cases h
        exact .directory hfile
    | archive jar =>
      -- The jar, its list of entries and the entry are read in turn, and each may fail.
      rw [readIn_archive] at h
      match hfile : disk.find jar with
      | .error _ | .ok (_, .directory) | .ok (_, .locked) => simp [hfile] at h
      | .ok (names, .file content) =>
        simp only [hfile] at h
        match hentries : Archive.entries content with
        | .error _ => simp [hentries] at h
        | .ok entries =>
          simp only [hentries] at h
          match hbytes : Archive.read? entries content path with
          | .error _ | .ok none => simp [hbytes] at h
          | .ok (some bytes) =>
            simp only [hbytes] at h
            cases h
            exact .archive hfile hentries hbytes
  · intro h
    cases h with
    | directory hfile => rw [readIn_directory, hfile]
    | archive hfile hentries hbytes =>
      simp only [readIn_archive, hfile, hentries, hbytes, Option.map_some]

/-- An entry fails exactly if something there cannot be read. -/
theorem readIn_eq_error_iff :
    (∃ failure, readIn disk path e = .error failure) ↔ Fails disk path e := by
  constructor
  · rintro ⟨failure, h⟩
    cases e with
    | directory dir =>
      rw [readIn_directory] at h
      match hfile : disk.find (Path.join dir path) with
      | .error _ | .ok (_, .directory) | .ok (_, .file _) => simp [hfile] at h
      -- A folder entry has one way to fail: the file is there and cannot be read.
      | .ok (names, .locked) => exact .directory hfile
    | archive jar =>
      rw [readIn_archive] at h
      match hfile : disk.find jar with
      | .error _ | .ok (_, .directory) => simp [hfile] at h
      | .ok (names, .locked) => exact .archive hfile
      | .ok (names, .file content) =>
        simp only [hfile] at h
        match hentries : Archive.entries content with
        | .error _ => exact .entries hfile hentries
        | .ok entries =>
          simp only [hentries] at h
          match hbytes : Archive.read? entries content path with
          | .error _ => exact .bytes hfile hentries hbytes
          | .ok _ => simp [hbytes] at h
  · intro h
    cases h with
    | directory hfile => exact ⟨_, by rw [readIn_directory, hfile]⟩
    | archive hfile => exact ⟨_, by rw [readIn_archive, hfile]⟩
    | entries hfile hentries => exact ⟨_, by simp only [readIn_archive, hfile, hentries]; rfl⟩
    | bytes hfile hentries hbytes =>
      exact ⟨_, by simp only [readIn_archive, hfile, hentries, hbytes]; rfl⟩

/-- An entry passes the search on if it does not have the class file and can tell so. -/
theorem readIn_eq_none_iff :
    readIn disk path e = .ok none ↔ (∀ found, ¬ Holds disk path e found) ∧ ¬ Fails disk path e := by
  rw [← readIn_eq_error_iff]
  simp only [← readIn_eq_some_iff]
  match readIn disk path e with
  | .ok none => simp
  | .ok (some found) => simp
  | .error failure => simp

/-! ## All entries -/

/-- A class file that is looked for at a place, which is numbered by the class file first and by
the entry then. -/
structure LooksAt (c : Classpath) (names : List String) (place : Nat × Nat) (name : String)
    (e : ClasspathEntry) : Prop where
  name : names[place.1]? = some name
  entry : c.entries[place.2]? = some e

/-- Whether a place comes before another: all entries are asked before the next class file. -/
def Before (p r : Nat × Nat) : Prop := p.1 < r.1 ∨ p.1 = r.1 ∧ p.2 < r.2

/-- One class file is searched through the entries in their order. -/
theorem readClass_eq_findSomeM? (entries : List ClasspathEntry) :
    readClass disk path entries = entries.findSomeM? (readIn disk path) := by
  induction entries with
  | nil => rfl
  | cons e entries ih =>
    rw [readClass, List.findSomeM?_cons, ih]
    congr 1
    funext answer
    cases answer <;> rfl

/-- The class files are searched one after the other, each through all entries. -/
theorem readFirst_eq_findSomeM? (names : List String) :
    c.readFirst disk names =
      names.findSomeM? fun name => c.entries.findSomeM? (readIn disk (name ++ ".class")) := by
  induction names with
  | nil => rfl
  | cons name names ih =>
    rw [readFirst, List.findSomeM?_cons, readClass_eq_findSomeM?, ih]
    congr 1
    funext answer
    cases answer <;> rfl

/-- The search comes to nothing if it is passed on everywhere. -/
theorem readFirst_eq_none_iff {names : List String} :
    c.readFirst disk names = .ok none ↔
      ∀ name ∈ names, ∀ e ∈ c.entries, readIn disk (name ++ ".class") e = .ok none := by
  simp only [readFirst_eq_findSomeM?, findSomeM?_eq_ok_none_iff]

/-- The search has been passed on at all places before one. -/
def PassedTo (c : Classpath) (disk : Disk) (names : List String) (place : Nat × Nat) : Prop :=
  ∀ place' name e, c.LooksAt names place' name e → Before place' place →
    readIn disk (name ++ ".class") e = .ok none

/-- The search comes to a place if all entries pass on the class files before, and the entries before
pass on the one there. -/
theorem passedTo_of_forall {names : List String} {i j : Nat}
    (hnames : ∀ name ∈ names.take i, ∀ e ∈ c.entries, readIn disk (name ++ ".class") e = .ok none)
    (hentries : ∀ name ∈ names[i]?, ∀ e ∈ c.entries.take j,
      readIn disk (name ++ ".class") e = .ok none) : c.PassedTo disk names (i, j) := by
  intro place name e hlooks hbefore
  have hname := hlooks.name
  have he := hlooks.entry
  -- A place before this one has an earlier name, or the same name and an earlier entry.
  rcases hbefore with hlt | ⟨heq, hlt⟩
  · refine hnames name (List.mem_of_getElem? (i := place.1) ?_) e (List.mem_of_getElem? he)
    rwa [List.getElem?_take_of_lt hlt]
  · dsimp only at heq
    refine hentries name (by rwa [← heq]) e (List.mem_of_getElem? (i := place.2) ?_)
    rwa [List.getElem?_take_of_lt hlt]

/-- Nothing is asked before the first place. -/
theorem passedTo_first {names : List String} : c.PassedTo disk names (0, 0) := by
  intro place name e _ hbefore
  unfold Before at hbefore
  omega

/-- Any other answer of the search is that of the first place at which it is not passed on. -/
theorem readFirst_eq_iff {names : List String} {r : Except Failure (Option FoundClass)}
    (hr : r ≠ .ok none) :
    c.readFirst disk names = r ↔
      ∃ place name e, c.LooksAt names place name e ∧ c.PassedTo disk names place ∧
        readIn disk (name ++ ".class") e = r := by
  rw [readFirst_eq_findSomeM?, findSomeM?_eq_iff hr]
  constructor
  · rintro ⟨i, name, hname, hfound, hbefore⟩
    obtain ⟨j, e, he, hread, hentries⟩ := (findSomeM?_eq_iff hr).mp hfound
    refine ⟨(i, j), name, e, ⟨hname, he⟩, fun place' name' e' hlooks hplace => ?_, hread⟩
    -- a place before is one of an earlier class file, or of the same one in an earlier entry
    rcases hplace with hlt | ⟨heq, hlt⟩
    · have hnone := hbefore place'.1 hlt name' hlooks.name
      exact findSomeM?_eq_ok_none_iff.mp hnone e' (List.mem_of_getElem? hlooks.entry)
    · have hsame : name' = name := by
        rw [← Option.some_inj, ← hlooks.name, heq, hname]
      rw [hsame]
      exact hentries place'.2 hlt e' hlooks.entry
  · rintro ⟨⟨i, j⟩, name, e, hlooks, hpassed, hread⟩
    refine ⟨i, name, hlooks.name, (findSomeM?_eq_iff hr).mpr ⟨j, e, hlooks.entry, hread, ?_⟩, ?_⟩
    · intro j' hj' e' he'
      exact hpassed (i, j') name e' ⟨hlooks.name, he'⟩ (Or.inr ⟨rfl, hj'⟩)
    · intro i' hi' name' hname'
      refine findSomeM?_eq_ok_none_iff.mpr fun e' he' => ?_
      obtain ⟨j', he'⟩ := List.mem_iff_getElem?.mp he'
      exact hpassed (i', j') name' e' ⟨hname', he'⟩ (Or.inl hi')

/-! ## The class that is loaded -/

/-- No place before this one has the class. -/
def FirstAt (c : Classpath) (disk : Disk) (q : String) (place : Nat × Nat) : Prop :=
  ∀ place' name e found, c.LooksAt (candidates q) place' name e → Before place' place →
    ¬ Holds disk (name ++ ".class") e found

/-- Every entry that is asked for the class of a name, before it is found, can tell whether it has
it. -/
def Readable (c : Classpath) (disk : Disk) (q : String) : Prop :=
  ∀ place name e, c.LooksAt (candidates q) place name e → c.FirstAt disk q place →
    ¬ Fails disk (name ++ ".class") e

/-- The class at the first place that has the class of a name. -/
def FoundFirst (c : Classpath) (disk : Disk) (q : String) (found : FoundClass) : Prop :=
  ∃ place name e, c.LooksAt (candidates q) place name e ∧ c.FirstAt disk q place ∧
    Holds disk (name ++ ".class") e found

/-- The class of a name is in no entry. -/
def Missing (c : Classpath) (disk : Disk) (q : String) : Prop :=
  ∀ name ∈ candidates q, ∀ e ∈ c.entries, ∀ found, ¬ Holds disk (name ++ ".class") e found

/-- It is enough that every entry can tell of every class file whether it has it. -/
theorem readable_of_forall
    (h : ∀ name ∈ candidates q, ∀ e ∈ c.entries, (readIn disk (name ++ ".class") e).isOk = true) :
    c.Readable disk q := by
  intro place name e hlooks _ hfails
  obtain ⟨failure, hfailure⟩ := readIn_eq_error_iff.mpr hfails
  have hok := h name (List.mem_of_getElem? hlooks.name) e (List.mem_of_getElem? hlooks.entry)
  rw [hfailure] at hok
  cases hok

/-- What is passed up to a place leaves the place the first. -/
theorem PassedTo.firstAt {place : Nat × Nat} (h : c.PassedTo disk (candidates q) place) :
    c.FirstAt disk q place :=
  fun place' name e found hlooks hlt =>
    (readIn_eq_none_iff.mp (h place' name e hlooks hlt)).1 found

/-- A place before another is before all that are after it. -/
theorem Before.trans {p r s : Nat × Nat} (h : Before p r) (h' : Before r s) : Before p s := by
  unfold Before at *
  omega

/-- Where all entries can be read, the search is passed on by those before the first that has the
class. -/
theorem Readable.readIn_eq_none (h : c.Readable disk q) {place place' : Nat × Nat} {name : String}
    (hfirst : c.FirstAt disk q place) (hlooks : c.LooksAt (candidates q) place' name e)
    (hbefore : Before place' place) : readIn disk (name ++ ".class") e = .ok none := by
  refine readIn_eq_none_iff.mpr ⟨fun found => hfirst place' name e found hlooks hbefore, ?_⟩
  exact h place' name e hlooks fun p n e' found hp hlt => hfirst p n e' found hp (hlt.trans hbefore)

/-- If nothing fails, a content is read exactly if it is the first there is. -/
theorem Readable.readFirst_eq_some_iff (h : c.Readable disk q) :
    c.readFirst disk (candidates q) = .ok (some found) ↔ c.FoundFirst disk q found := by
  rw [readFirst_eq_iff (by simp)]
  constructor
  · rintro ⟨place, name, e, hlooks, hpassed, hread⟩
    exact ⟨place, name, e, hlooks, hpassed.firstAt, readIn_eq_some_iff.mp hread⟩
  · rintro ⟨place, name, e, hlooks, hfirst, hholds⟩
    exact ⟨place, name, e, hlooks,
      fun place' name' e' hlooks' hlt => h.readIn_eq_none hfirst hlooks' hlt,
      readIn_eq_some_iff.mpr hholds⟩

/-- If nothing on the way fails, the search does not. -/
theorem Readable.readFirst_ne_error (h : c.Readable disk q) (failure : Failure) :
    c.readFirst disk (candidates q) ≠ .error failure := by
  intro herror
  obtain ⟨place, name, e, hlooks, hpassed, hread⟩ := (readFirst_eq_iff (by simp)).mp herror
  exact h place name e hlooks hpassed.firstAt (readIn_eq_error_iff.mp ⟨failure, hread⟩)

/-- Where nothing is found, no place has one before it. -/
theorem Missing.firstAt (h : c.Missing disk q) (place : Nat × Nat) : c.FirstAt disk q place :=
  fun _ name e found hlooks _ => h name (List.mem_of_getElem? hlooks.name) e
    (List.mem_of_getElem? hlooks.entry) found

/-- If nothing fails, nothing is read exactly if no entry holds any of the class files. -/
theorem Readable.readFirst_eq_none_iff (h : c.Readable disk q) :
    c.readFirst disk (candidates q) = .ok none ↔ c.Missing disk q := by
  rw [Classpath.readFirst_eq_none_iff]
  constructor
  · intro hnone name hname e he found
    exact (readIn_eq_none_iff.mp (hnone name hname e he)).1 found
  · intro hmissing name hname e he
    -- Nothing is there at all, so the place of this entry is reached and must be readable.
    obtain ⟨i, hi⟩ := List.mem_iff_getElem?.mp hname
    obtain ⟨j, hj⟩ := List.mem_iff_getElem?.mp he
    refine readIn_eq_none_iff.mpr ⟨hmissing name hname e he, ?_⟩
    exact h (i, j) name e ⟨hi, hj⟩ (hmissing.firstAt _)

/-- Unless the class is in no entry, there is a first place that has it. -/
theorem Readable.exists_foundFirst (h : c.Readable disk q) (hfound : ¬ c.Missing disk q) :
    ∃ found, c.FoundFirst disk q found := by
  match hread : c.readFirst disk (candidates q) with
  | .error failure => exact absurd hread (h.readFirst_ne_error failure)
  | .ok none => exact absurd (h.readFirst_eq_none_iff.mp hread) hfound
  | .ok (some found) => exact ⟨found, h.readFirst_eq_some_iff.mp hread⟩

/-- What a found class is loaded as: the type that it describes, or why its bytes are no class. -/
def loadedAs (q : String) (found : FoundClass) : Except Failure (Option ArtifactInfo) :=
  match ClassFile.parse found.content with
  | .ok parsed => .ok (some (parsed.describe q found.location))
  | .error fault => .error (.while ("parse class file " ++ found.location) fault.toFailure)

/-- What is read is loaded under the name that was asked for. -/
theorem load_of_readFirst (hread : c.readFirst disk (candidates q) = .ok (some found)) :
    c.load disk q = loadedAs q found := by
  unfold load loadedAs
  rw [hread]
  change (match ClassFile.parse found.content with | .ok _ => _ | .error _ => _) = _
  cases ClassFile.parse found.content <;> rfl

/-- Nothing is loaded exactly if nothing is read. -/
theorem load_eq_none_iff :
    c.load disk q = .ok none ↔ c.readFirst disk (candidates q) = .ok none := by
  match hread : c.readFirst disk (candidates q) with
  | .error failure =>
    unfold load
    rw [hread]
    simp [bind, Except.bind]
  | .ok none =>
    unfold load
    rw [hread]
    simp [bind, Except.bind, pure, Except.pure]
  | .ok (some found) =>
    rw [load_of_readFirst hread]
    unfold loadedAs
    cases ClassFile.parse found.content <;> simp

/-- The nested classes that a loaded class tells about are looked for beside it, under whichever of
its class files it was found. -/
theorem innerClass_mem_candidates {parsed : ClassFile.ParsedClass} {location name inner : String}
    (hname : name ∈ candidates q) (hinner : inner ∈ (parsed.describe q location).innerClasses) :
    ∃ simple, inner = q ++ "." ++ simple ∧
      (NameSegment simple → name ++ "$" ++ simple ∈ candidates inner) := by
  obtain ⟨⟨_, simple⟩, -, rfl⟩ := List.mem_map.mp hinner
  exact ⟨simple, rfl, fun hsimple => nested_mem_candidates hsimple hname⟩

/-- The class files of a name are all ways to read its segments as packages and nested classes,
each once. Where entries can be read, what is loaded for the name is the class at the first place
that has it, the place with the fewest nested classes and then the first entry; nothing is loaded if
no place has it. The classes nested in the one that is loaded are looked for beside it. -/
theorem least_nested_first (c : Classpath) (disk : Disk) {q : String} {segments : List String}
    (hsegments : ∀ s ∈ segments, NameSegment s) (hq : q = ".".intercalate segments) :
    ((candidates q).length = segments.length ∧ (candidates q).Nodup ∧
      ∀ k, 0 < k → k ≤ segments.length →
        (candidates q)[k - 1]? = some ("/".intercalate (segments.take (segments.length - k) ++
          ["$".intercalate (segments.drop (segments.length - k))]))) ∧
    (∀ name ∈ candidates q, ClassFile.javaName name = ClassFile.javaName q) ∧
    (c.Readable disk q → (c.load disk q = .ok none ↔ c.Missing disk q) ∧
      (¬ c.Missing disk q → ∃ found, c.FoundFirst disk q found ∧
        c.load disk q = loadedAs q found)) ∧
    (∀ name ∈ candidates q, ∀ s, NameSegment s → name ++ "$" ++ s ∈ candidates (q ++ "." ++ s)) ∧
    ∀ name ∈ candidates q, ∀ parsed location,
      ∀ inner ∈ (ClassFile.ParsedClass.describe parsed q location).innerClasses,
        ∃ simple, inner = q ++ "." ++ simple ∧
          (NameSegment simple → name ++ "$" ++ simple ∈ candidates inner) := by
  have hnames : nameSegments q = segments := by
    rw [hq, nameSegments_intercalate hsegments]
  refine ⟨⟨?_, ?_, ?_⟩, ?_, ?_, ?_, ?_⟩
  · rw [length_candidates, hnames]
  · exact candidates_nodup (hnames ▸ hsegments)
  · intro k hpos hk
    rw [getElem?_candidates (by rw [hnames]; omega), hnames, Nat.sub_add_cancel hpos]
    rfl
  · intro name hname
    rw [hq] at hname ⊢
    exact javaName_of_mem_candidates hsegments hname
  · intro hreadable
    refine ⟨load_eq_none_iff.trans hreadable.readFirst_eq_none_iff, fun hfound => ?_⟩
    obtain ⟨found, hfirst⟩ := hreadable.exists_foundFirst hfound
    exact ⟨found, hfirst, load_of_readFirst (hreadable.readFirst_eq_some_iff.mpr hfirst)⟩
  · intro name hname s hs
    exact nested_mem_candidates hs hname
  · intro name hname parsed location inner hinner
    exact innerClass_mem_candidates hname hinner

/-- The bytes of a class without members. -/
def emptyClass : ByteArray :=
  ⟨#[0xca, 0xfe, 0xba, 0xbe, 0, 0, 0, 0x3d, 0, 3, 7, 0, 2, 1, 0, 1, 0x41, 0, 0x21, 0, 1, 0, 0,
    0, 0, 0, 0, 0, 0, 0, 0]⟩

/-- A disk with a class under two of its names: nested twice in `/a`, nested once in `/b`. -/
def shelves : Disk where
  entries := [("/a", .directory), ("/a/p$O$I.class", .file emptyClass), ("/b", .directory),
    ("/b/p", .directory), ("/b/p/O$I.class", .file emptyClass)]

/-- The directories of these shelves. -/
def shelved : Classpath := ⟨[.directory "/a", .directory "/b"]⟩

/-- The second entry has the class nested less often than the first. -/
theorem least_nested_first_shelved :
    shelved.Readable shelves "p.O.I" ∧ ¬ shelved.Missing shelves "p.O.I" ∧
      ∃ found, shelved.FoundFirst shelves "p.O.I" found ∧
        shelved.load shelves "p.O.I" = loadedAs "p.O.I" found ∧
        found.location = "/b/p/O$I.class" := by
  -- The whole search runs on two small folders.
  have hread : (shelved.readFirst shelves (candidates "p.O.I")).toOption =
      some (some ⟨emptyClass.toList, "/b/p/O$I.class"⟩) := by decide +kernel
  have hreadable : shelved.Readable shelves "p.O.I" := readable_of_forall (by decide +kernel)
  have hmissing : ¬ shelved.Missing shelves "p.O.I" := by
    rw [← hreadable.readFirst_eq_none_iff, eq_ok_of_toOption_eq_some hread]
    simp
  have hsegments : ∀ s ∈ ["p", "O", "I"], NameSegment s := by decide
  obtain ⟨-, -, hload, -⟩ := least_nested_first shelved shelves hsegments (q := "p.O.I") (by decide)
  obtain ⟨found, hfirst, hload⟩ := (hload hreadable).2 hmissing
  refine ⟨hreadable, hmissing, found, hfirst, hload, ?_⟩
  have hfound := hreadable.readFirst_eq_some_iff.mpr hfirst
  rw [eq_ok_of_toOption_eq_some hread] at hfound
  cases hfound
  rfl

end Classpath

end JavaAtlas
