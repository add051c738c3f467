import JavaAtlas.Proofs.Scan

namespace JavaAtlas.Scan

open JavaAtlas.Path Disk Ignore

/-! # Disks that differ in source files

Which files a scan comes to depends on rules in other files, but none of these is a source file. So
if disks differ in source files only, scans differ in these files only.

* `DifferAt.reaches_eq`: what rules leave out is the same;
* `DifferAt.mem_scan`: a file that stands elsewhere is found on both disks;
* `DifferAt.exists_scan`: a root with nothing changed below it is scanned the same.
-/

/-- Disks in order that hold the same files but for some source files. Directories may come and go
with them. -/
structure DifferAt (d d' : Disk) (paths : List String) : Prop where
  before : d.WellFormed
  after : d'.WellFormed
  sources : ∀ path ∈ paths, isSource path = true
  elsewhere : ∀ path entry, path ∉ paths → entry.isFile = true →
    (d'.entries.lookup path = some entry ↔ d.entries.lookup path = some entry)

/-- Which of the disks comes first does not matter. -/
theorem DifferAt.symm {d d' : Disk} {paths : List String} (h : DifferAt d d' paths) :
    DifferAt d' d paths :=
  ⟨h.after, h.before, h.sources,
    fun path entry hpath hfile => (h.elsewhere path entry hpath hfile).symm⟩

/-! ## Rules -/

section Rules

variable {d d' : Disk} {paths : List String}

/-- A file that stands elsewhere stands on both disks. -/
theorem DifferAt.entryAt?_iff (h : DifferAt d d' paths) {names : List String}
    (hnames : pathOf names ∉ paths) {entry : DiskEntry} (hfile : entry.isFile = true) :
    d'.entryAt? names = some entry ↔ d.entryAt? names = some entry := by
  by_cases hne : names = []
  · rw [hne]
    rfl
  · rw [entryAt?_of_ne_nil hne, entryAt?_of_ne_nil hne]
    exact h.elsewhere _ _ hnames hfile

/-- The last name of a direct path stands first in its names. -/
theorem lastName?_pathOf_cons {name : String} {names : List String}
    (h : ProperNames (name :: names)) : lastName? (pathOf (name :: names)) = some name := by
  have hlast : (components (pathOf (name :: names))).getLast? = some (.normal name) := by
    rw [components_pathOf h, List.reverse_cons, List.map_append, ← List.cons_append]
    exact List.getLast?_concat
  unfold lastName?
  rw [hlast]

/-- Rules in a file that is no source file are the same on both disks. -/
theorem DifferAt.ruleSet_eq (h : DifferAt d d' paths) {names : List String}
    (hnames : ProperNames names) (directory : String)
    (hsource : isSource (pathOf names) = false) :
    RuleSet.read d' directory (pathOf names) = RuleSet.read d directory (pathOf names) := by
  have hpath : pathOf names ∉ paths := by
    intro hmem
    rw [h.sources _ hmem] at hsource
    cases hsource
  have hread : ∀ content,
      d'.read (pathOf names) = .ok content ↔ d.read (pathOf names) = .ok content := by
    intro content
    rw [h.after.read_pathOf_iff hnames, h.before.read_pathOf_iff hnames]
    exact h.entryAt?_iff hpath rfl
  -- a file of rules that cannot be read has none, whatever the reason
  unfold RuleSet.read
  cases hbefore : d.read (pathOf names) with
  | ok content => rw [(hread content).mpr hbefore]
  | error fault =>
    cases hafter : d'.read (pathOf names) with
    | ok content =>
      rw [(hread content).mp hafter] at hbefore
      cases hbefore
    | error fault' => rfl

/-- The rules of a directory are the same, since none of their files is a source file. -/
theorem DifferAt.rules_eq (h : DifferAt d d' paths) {names : List String}
    (hnames : ProperNames names) :
    DirectoryRules.read d' (pathOf names) = DirectoryRules.read d (pathOf names) := by
  -- the files of rules, by their names and by the text that is joined to the directory
  have hfile : ∀ (last : String) (front : List String) (text : String),
      ProperNames (last :: front) → "/".intercalate (last :: front).reverse = text →
      (∀ path, lastName? path = some last → isSource path = false) →
      RuleSet.read d' (pathOf names) (join (pathOf names) text) =
        RuleSet.read d (pathOf names) (join (pathOf names) text) := by
    intro last front text hproper htext hsource
    rw [← htext, join_pathOf names hproper.reverse (by simp) hnames, List.reverse_reverse]
    have hall := hproper.append hnames
    exact h.ruleSet_eq hall _ (hsource _ (lastName?_pathOf_cons hall))
  have hkind : ∀ last : String, (last = ".ignore" ∨ last = ".gitignore" ∨ last = "exclude") →
      ∀ path, lastName? path = some last → isSource path = false := by
    intro last hlast path hpath
    unfold isSource extension?
    rw [hpath]
    rcases hlast with rfl | rfl | rfl <;> decide +kernel
  unfold DirectoryRules.read
  rw [hfile ".ignore" [] ".ignore" (by decide +kernel) (by decide +kernel) (hkind _ (by simp)),
    hfile ".gitignore" [] ".gitignore" (by decide +kernel) (by decide +kernel) (hkind _ (by simp)),
    hfile "exclude" ["info", ".git"] ".git/info/exclude" (by decide +kernel) (by decide +kernel)
      (hkind _ (by simp))]

/-- On the way up from some components are those in front. -/
theorem mem_upward {cs part : List Component} (h : part ∈ upward cs) :
    ∃ k, part = cs.take (k + 1) := by
  obtain ⟨i, hi, rfl⟩ := List.mem_map.mp h
  have := List.mem_range.mp hi
  exact ⟨cs.length - i - 1, by rw [show cs.length - i - 1 + 1 = cs.length - i by omega]⟩

/-- The root and names below it are a direct path. -/
theorem ofComponents_root_map_normal (rest : List String) :
    ofComponents (.root :: rest.map Component.normal) = pathOf rest.reverse := by
  have htext : ofComponents (.root :: rest.map Component.normal) =
      "/" ++ "/".intercalate ((rest.map Component.normal).map Component.text) := rfl
  rw [htext, map_text_normal, pathOf, List.reverse_reverse]

/-- The directories above a direct path are direct. -/
theorem exists_of_mem_directoriesAbove {path : String} {names : List String}
    (hnames : ProperNames names)
    (hpath : components path = .root :: names.reverse.map Component.normal) {directory : String}
    (h : directory ∈ directoriesAbove path) :
    ∃ above, ProperNames above ∧ directory = pathOf above := by
  obtain ⟨part, hpart, rfl⟩ := List.mem_map.mp h
  obtain ⟨k, rfl⟩ := mem_upward (List.mem_of_mem_drop hpart)
  refine ⟨(names.reverse.take k).reverse, ?_, ?_⟩
  · intro name hname
    exact hnames name (List.mem_reverse.mp (List.mem_of_mem_take (List.mem_reverse.mp hname)))
  · rw [hpath, List.take_succ_cons, ← List.map_take, ofComponents_root_map_normal]

/-- So what the rules of all directories above a path say is the same. -/
theorem DifferAt.skips_eq (h : DifferAt d d' paths) (noIgnore : Bool) {path : String}
    {names : List String} (hnames : ProperNames names)
    (hpath : components path = .root :: names.reverse.map Component.normal) (isDirectory : Bool) :
    skips d' noIgnore path isDirectory = skips d noIgnore path isDirectory := by
  have hsets : (directoriesAbove path).map (DirectoryRules.read d') =
      (directoriesAbove path).map (DirectoryRules.read d) := by
    apply List.map_congr_left
    intro directory hdirectory
    obtain ⟨above, habove, rfl⟩ := exists_of_mem_directoriesAbove hnames hpath hdirectory
    exact h.rules_eq habove
  unfold skips verdictOf
  rw [hsets]

/-- What rules leave out below a direct root is the same on both disks. -/
theorem DifferAt.reaches_eq (h : DifferAt d d' paths) (noIgnore : Bool) {base rest : List String}
    (hbase : ProperNames base) (hrest : ProperNames rest) :
    reaches d' noIgnore (pathOf base) (rest.map Component.normal) =
      reaches d noIgnore (pathOf base) (rest.map Component.normal) := by
  unfold reaches
  rw [Bool.eq_iff_iff, List.all_eq_true, List.all_eq_true]
  apply forall₂_congr
  intro part hpart
  obtain ⟨k, rfl⟩ := mem_upward hpart
  have htake : ProperNames (rest.take (k + 1)) := fun name hname =>
    hrest name (List.mem_of_mem_take hname)
  have hcs : components (join (pathOf base)
      (ofComponents ((rest.map Component.normal).take (k + 1)))) =
        .root :: ((rest.take (k + 1)).reverse ++ base).reverse.map Component.normal := by
    rw [← List.map_take, ofComponents_map_normal,
      components_join_names (isAbsolute_pathOf base) htake, components_pathOf hbase]
    simp
  rw [h.skips_eq noIgnore (htake.reverse.append hbase) hcs]

end Rules

/-! ## Scans -/

section Scans

variable {d d' : Disk} {paths : List String} {noIgnore : Bool} {base : List String}
  {origin : Origin} {files files' : List ScannedFile}

/-- Below a direct root paths are direct. -/
theorem pathBelow_pathOf (hbase : ProperNames base) {rest : List String}
    (hrest : ProperNames rest) :
    pathBelow (pathOf base) (rest.map Component.normal) = pathOf (rest.reverse ++ base) := by
  unfold pathBelow
  by_cases hne : rest = []
  · subst hne
    rfl
  · rw [if_neg (by simpa using hne), ofComponents_map_normal, join_pathOf base hrest hne hbase]

/-- The files below a direct root are those that stand there. -/
theorem mem_filesBelow_pathOf_iff (hd : d.WellFormed) (hbase : ProperNames base)
    {rest : List String} (hrest : ProperNames rest) {entry : DiskEntry} :
    (rest.map Component.normal, entry) ∈ filesBelow d noIgnore (pathOf base) ↔
      d.entryAt? (rest.reverse ++ base) = some entry ∧ entry.isFile = true ∧
        reaches d noIgnore (pathOf base) (rest.map Component.normal) = true := by
  have hinj : Function.Injective Component.normal := fun _ _ h => Component.normal.inj h
  have habs := isAbsolute_pathOf base
  constructor
  · intro h
    obtain ⟨found, top, -, hroot, -⟩ := exists_of_mem_filesBelow hd habs h
    obtain ⟨rfl, -⟩ := (hd.find_pathOf_iff hbase).mp hroot
    obtain ⟨rest', -, hcs, hentry, hfile, hreach⟩ := (mem_filesBelow_iff hd habs hroot).mp h
    rw [List.map_injective_iff.mpr hinj hcs]
    rw [hcs] at hreach
    exact ⟨hentry, hfile, hreach⟩
  · rintro ⟨hentry, hfile, hreach⟩
    -- the root is there because something stands at or below it
    have htop : ∃ top, d.entryAt? base = some top := by
      by_cases hne : rest = []
      · exact ⟨entry, by simpa [hne] using hentry⟩
      · exact ⟨.directory,
          hd.entryAt?_above (hrest.reverse.append hbase) (by simpa using hne) hentry⟩
    obtain ⟨top, htop⟩ := htop
    have hroot := (hd.find_pathOf_iff hbase).mpr ⟨rfl, htop⟩
    exact (mem_filesBelow_iff hd habs hroot).mpr ⟨rest, hrest, rfl, hentry, hfile, hreach⟩

/-- What stands elsewhere is come to on both disks. -/
theorem DifferAt.mem_filesBelow (h : DifferAt d d' paths) (hbase : ProperNames base)
    {cs : List Component} {entry : DiskEntry}
    (hmem : (cs, entry) ∈ filesBelow d noIgnore (pathOf base))
    (hpath : pathBelow (pathOf base) cs ∉ paths) :
    (cs, entry) ∈ filesBelow d' noIgnore (pathOf base) := by
  obtain ⟨-, -, rest, -, hrest, rfl, -⟩ :=
    exists_of_mem_filesBelow h.before (isAbsolute_pathOf base) hmem
  rw [pathBelow_pathOf hbase hrest] at hpath
  obtain ⟨hentry, hfile, hreach⟩ := (mem_filesBelow_pathOf_iff h.before hbase hrest).mp hmem
  refine (mem_filesBelow_pathOf_iff h.after hbase hrest).mpr
    ⟨(h.entryAt?_iff hpath hfile).mpr hentry, hfile, ?_⟩
  rw [h.reaches_eq noIgnore hbase hrest]
  exact hreach

/-- A file that stands elsewhere is found on both disks. -/
theorem DifferAt.mem_scan (h : DifferAt d d' paths) (hbase : ProperNames base)
    (hfiles : scan d noIgnore (pathOf base) origin = .ok files)
    (hfiles' : scan d' noIgnore (pathOf base) origin = .ok files') {f : ScannedFile}
    (hf : f ∈ files) (hpath : f.path ∉ paths) : f ∈ files' := by
  obtain ⟨cs, content, hmem, hsource, rfl⟩ := (mem_scan_iff hfiles).mp hf
  exact (mem_scan_iff hfiles').mpr
    ⟨cs, content, h.mem_filesBelow hbase hmem hpath, hsource, rfl⟩

/-- A direct path starts with those above it. -/
theorem startsWith_pathOf_append (hbase : ProperNames base) {front : List String}
    (hfront : ProperNames front) :
    startsWith (pathOf (front ++ base)) (pathOf base) = true := by
  unfold startsWith
  rw [(below?_pathOf_iff hbase (hfront.append hbase)).mpr ⟨front.reverse, rfl, by simp⟩]
  rfl

/-- Files that stand below a root have paths that start with it. -/
theorem startsWith_pathBelow (hd : d.WellFormed) (hbase : ProperNames base) {cs : List Component}
    {entry : DiskEntry} (hmem : (cs, entry) ∈ filesBelow d noIgnore (pathOf base)) :
    startsWith (pathBelow (pathOf base) cs) (pathOf base) = true := by
  obtain ⟨-, -, rest, -, hrest, rfl, -⟩ :=
    exists_of_mem_filesBelow hd (isAbsolute_pathOf base) hmem
  rw [pathBelow_pathOf hbase hrest]
  exact startsWith_pathOf_append hbase hrest.reverse

/-- A root with nothing changed below it is scanned the same. -/
theorem DifferAt.exists_scan (h : DifferAt d d' paths) (hbase : ProperNames base)
    (houtside : ∀ path ∈ paths, startsWith path (pathOf base) = false)
    (hfiles : scan d noIgnore (pathOf base) origin = .ok files) :
    ∃ files', scan d' noIgnore (pathOf base) origin = .ok files' ∧ ∀ f ∈ files, f ∈ files' := by
  -- no path that is come to on either disk has changed
  have hnot : ∀ {e : Disk} {cs : List Component} {entry : DiskEntry}, e.WellFormed →
      (cs, entry) ∈ filesBelow e noIgnore (pathOf base) → pathBelow (pathOf base) cs ∉ paths := by
    intro e cs entry he hmem hpath
    have hstarts := startsWith_pathBelow he hbase hmem
    rw [houtside _ hpath] at hstarts
    cases hstarts
  obtain ⟨files', hfiles'⟩ : ∃ files', scan d' noIgnore (pathOf base) origin = .ok files' := by
    rw [exists_scan_eq_ok_iff]
    intro cs entry hmem hsource
    exact exists_scan_eq_ok_iff.mp ⟨files, hfiles⟩ cs entry
      (h.symm.mem_filesBelow hbase hmem (hnot h.after hmem)) hsource
  refine ⟨files', hfiles', ?_⟩
  intro f hf
  obtain ⟨cs, content, hmem, -, hfile⟩ := (mem_scan_iff hfiles).mp hf
  exact h.mem_scan hbase hfiles hfiles' hf (by rw [hfile]; exact hnot h.before hmem)

end Scans

end JavaAtlas.Scan
