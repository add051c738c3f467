import JavaAtlas.Proofs.Disk
import JavaAtlas.Proofs.Outcome
import JavaAtlas.Scan

namespace JavaAtlas.Scan

open JavaAtlas.Path Disk

/-! # What a scan finds

The files that a scan finds are those that stand below its root on the disk.

* `mem_filesBelow_iff`: the files below a root, by the names that lead down to them;
* `find_of_mem_scan`: every file that is found can be read again under its path;
* `origin_of_mem_scan`: the path under which a file is stored tells whether it is of the project;
* `content_eq_of_stored_eq`: and which file it is.
-/

instance : DecidableEq ScannedFile := fun a b =>
  have : DecidableEq ByteArray := ByteArray.instDecidableEq
  decidable_of_iff
    (a.stored = b.stored ∧ a.path = b.path ∧ a.content = b.content ∧ a.origin = b.origin)
    (by cases a; cases b; simp)

/-- The origin that a stored path tells: files of the project are stored under relative paths. -/
def originOf (stored : String) : Origin := if isAbsolute stored then .library else .project

/-! ## Files below a root -/

section FilesBelow

variable {disk : Disk} {noIgnore : Bool} {root : String}

/-- What is no file is a directory. -/
theorem isFile_eq_false_iff {entry : DiskEntry} : entry.isFile = false ↔ entry = .directory := by
  cases entry <;> simp [DiskEntry.isFile]

/-- What stands below a directory stands under its names and some more. -/
theorem below?_pathOf_iff {base names : List String} (hbase : ProperNames base)
    (hnames : ProperNames names) {cs : List Component} :
    below? (pathOf base) (pathOf names) = some cs ↔
      ∃ rest : List String, cs = rest.map Component.normal ∧ names = rest.reverse ++ base := by
  have hinj : Function.Injective Component.normal := fun _ _ h => Component.normal.inj h
  rw [below?_eq_some_iff, components_pathOf hbase, components_pathOf hnames, List.cons_append,
    List.cons_inj_right]
  constructor
  · intro h
    obtain ⟨front, rest, hsplit, hfront, hrest⟩ := List.map_eq_append_iff.mp h
    refine ⟨rest, hrest.symm, ?_⟩
    rw [List.map_injective_iff.mpr hinj hfront] at hsplit
    rw [← names.reverse_reverse, hsplit, List.reverse_append, List.reverse_reverse]
  · rintro ⟨rest, rfl, rfl⟩
    rw [List.reverse_append, List.reverse_reverse, List.map_append]

/-- A root that is a file is all that there is below it. -/
theorem mem_filesBelow_of_file {base : List String} {top : DiskEntry}
    (hroot : disk.find root = .ok (base, top)) (hfile : top.isFile = true) {cs : List Component}
    {entry : DiskEntry} :
    (cs, entry) ∈ filesBelow disk noIgnore root ↔ cs = [] ∧ entry = top := by
  unfold filesBelow
  rw [hroot]
  dsimp only
  rw [if_pos hfile, List.mem_singleton, Prod.mk.injEq]

/-- Below a root that is a directory are the files whose paths continue its own. -/
theorem mem_filesBelow_of_directory {base : List String}
    (hroot : disk.find root = .ok (base, .directory)) {cs : List Component} {entry : DiskEntry} :
    (cs, entry) ∈ filesBelow disk noIgnore root ↔
      ∃ key, (key, entry) ∈ disk.entries ∧ below? (pathOf base) key = some cs ∧
        entry.isFile = true ∧ reaches disk noIgnore (pathOf base) cs = true := by
  unfold filesBelow
  rw [hroot]
  dsimp only
  rw [if_neg (show ¬ DiskEntry.directory.isFile = true from Bool.false_ne_true),
    List.mem_filterMap]
  constructor
  · rintro ⟨⟨key, e⟩, hmem, hsome⟩
    dsimp only at hsome
    split at hsome
    next below hbelow =>
      split at hsome
      next hreach =>
        cases hsome
        rw [Bool.and_eq_true] at hreach
        exact ⟨key, hmem, hbelow, hreach.1, hreach.2⟩
      next => cases hsome
    next => cases hsome
  · rintro ⟨key, hmem, hbelow, hfile, hreach⟩
    refine ⟨(key, entry), hmem, ?_⟩
    dsimp only
    rw [hbelow]
    exact if_pos (Bool.and_eq_true_iff.mpr ⟨hfile, hreach⟩)

/-- The files below a root, by the names that lead down to them. -/
theorem mem_filesBelow_iff (hd : disk.WellFormed) (habs : isAbsolute root = true)
    {base : List String} {top : DiskEntry} (hroot : disk.find root = .ok (base, top))
    {cs : List Component} {entry : DiskEntry} :
    (cs, entry) ∈ filesBelow disk noIgnore root ↔
      ∃ rest : List String, ProperNames rest ∧ cs = rest.map Component.normal ∧
        disk.entryAt? (rest.reverse ++ base) = some entry ∧ entry.isFile = true ∧
          reaches disk noIgnore (pathOf base) cs = true := by
  have hbase := find_properNames habs hroot
  obtain ⟨-, htop, -⟩ := (find_eq_ok_iff habs).mp hroot
  -- a root may be a file, which then is all there is
  by_cases hfile : top.isFile = true
  · rw [mem_filesBelow_of_file hroot hfile]
    constructor
    · rintro ⟨rfl, rfl⟩
      exact ⟨[], by simp [ProperNames], rfl, htop, hfile, rfl⟩
    · rintro ⟨rest, hrest, rfl, hentry, -, -⟩
      by_cases hne : rest = []
      · subst hne
        rw [List.reverse_nil, List.nil_append, htop, Option.some_inj] at hentry
        exact ⟨rfl, hentry.symm⟩
      · -- nothing stands below a file
        have hdir := hd.entryAt?_above (hrest.reverse.append hbase) (by simpa using hne) hentry
        rw [htop, Option.some_inj] at hdir
        subst hdir
        cases hfile
  · rw [Bool.not_eq_true, isFile_eq_false_iff] at hfile
    subst hfile
    rw [mem_filesBelow_of_directory hroot]
    constructor
    · rintro ⟨key, hmem, hbelow, hfile, hreach⟩
      obtain ⟨names, hne, hnames, rfl, hentry⟩ := hd.mem_entries_iff.mp hmem
      obtain ⟨rest, rfl, rfl⟩ := (below?_pathOf_iff hbase hnames).mp hbelow
      refine ⟨rest, ?_, rfl, hentry, hfile, hreach⟩
      intro name hname
      exact hnames name (List.mem_append_left _ (List.mem_reverse.mpr hname))
    · rintro ⟨rest, hrest, rfl, hentry, hfile, hreach⟩
      -- a file is not the root itself, which is a directory
      have hne : rest ≠ [] := by
        rintro rfl
        rw [List.reverse_nil, List.nil_append, htop, Option.some_inj] at hentry
        subst hentry
        cases hfile
      have hnames := hrest.reverse.append hbase
      refine ⟨pathOf (rest.reverse ++ base), ?_, ?_, hfile, hreach⟩
      · exact hd.mem_entries_iff.mpr ⟨_, by simp [hne], hnames, rfl, hentry⟩
      · exact (below?_pathOf_iff hbase hnames).mpr ⟨rest, rfl, rfl⟩

end FilesBelow

/-! ## The source files among them -/

section Sources

variable {disk : Disk} {noIgnore : Bool} {root : String} {origin : Origin}
  {files : List ScannedFile}

/-- A file that can be read is described, and nothing else. -/
theorem describe_eq_ok_iff {stored path : String} {entry : DiskEntry} {f : ScannedFile} :
    describe stored path origin entry = .ok f ↔
      ∃ content, entry = .file content ∧ f = { stored, path, content, origin } := by
  cases entry with
  | directory => simp [describe, DiskEntry.read]
  | locked => simp [describe, DiskEntry.read]
  | file content => simp [describe, DiskEntry.read, eq_comm]

/-- The source file at the end of components below a root. -/
def fileBelow (root : String) (origin : Origin) (cs : List Component) (content : ByteArray) :
    ScannedFile :=
  { stored := storedPath root origin cs
    path := pathBelow root cs
    content
    origin }

@[simp] theorem path_fileBelow (root : String) (origin : Origin) (cs : List Component)
    (content : ByteArray) : (fileBelow root origin cs content).path = pathBelow root cs := rfl

@[simp] theorem stored_fileBelow (root : String) (origin : Origin) (cs : List Component)
    (content : ByteArray) :
    (fileBelow root origin cs content).stored = storedPath root origin cs := rfl

/-- The files that a scan finds are the source files among those below its root. -/
theorem mem_scan_iff (h : scan disk noIgnore root origin = .ok files) {f : ScannedFile} :
    f ∈ files ↔ ∃ cs content, (cs, .file content) ∈ filesBelow disk noIgnore root ∧
      isSource (pathBelow root cs) = true ∧ f = fileBelow root origin cs content := by
  unfold scan at h
  obtain ⟨found, hfound, hfiles⟩ := bind_eq_ok_iff.mp h
  cases hfiles
  rw [List.mem_mergeSort, mem_of_mapM_eq_ok hfound]
  constructor
  · rintro ⟨⟨cs, entry⟩, hmem, hdescribe⟩
    rw [List.mem_filter] at hmem
    obtain ⟨content, rfl, rfl⟩ := describe_eq_ok_iff.mp hdescribe
    exact ⟨cs, content, hmem.1, hmem.2, rfl⟩
  · rintro ⟨cs, content, hmem, hsource, rfl⟩
    exact ⟨(cs, .file content), List.mem_filter.mpr ⟨hmem, hsource⟩,
      describe_eq_ok_iff.mpr ⟨content, rfl, rfl⟩⟩

/-- A scan succeeds if every source file that it comes to can be read. -/
theorem exists_scan_eq_ok_iff : (∃ files, scan disk noIgnore root origin = .ok files) ↔
    ∀ cs entry, (cs, entry) ∈ filesBelow disk noIgnore root →
      isSource (pathBelow root cs) = true → ∃ content, entry = .file content := by
  have hbind : (∃ files, scan disk noIgnore root origin = .ok files) ↔
      ∃ found, (((filesBelow disk noIgnore root).filter fun below =>
        isSource (pathBelow root below.1)).mapM fun below =>
          describe (storedPath root origin below.1) (pathBelow root below.1) origin below.2) =
            .ok found := by
    unfold scan
    constructor
    · rintro ⟨files, h⟩
      obtain ⟨found, hfound, -⟩ := bind_eq_ok_iff.mp h
      exact ⟨found, hfound⟩
    · rintro ⟨found, hfound⟩
      exact ⟨_, bind_eq_ok_iff.mpr ⟨found, hfound, rfl⟩⟩
  rw [hbind, exists_mapM_eq_ok_iff]
  constructor
  · intro h cs entry hmem hsource
    obtain ⟨f, hf⟩ := h (cs, entry) (List.mem_filter.mpr ⟨hmem, hsource⟩)
    obtain ⟨content, hentry, -⟩ := describe_eq_ok_iff.mp hf
    exact ⟨content, hentry⟩
  · rintro h ⟨cs, entry⟩ hmem
    rw [List.mem_filter] at hmem
    obtain ⟨content, hentry⟩ := h cs entry hmem.1 hmem.2
    exact ⟨_, describe_eq_ok_iff.mpr ⟨content, hentry, rfl⟩⟩

/-! ## Where they are -/

/-- Names are written joined by slashes. -/
theorem ofComponents_map_normal (rest : List String) :
    ofComponents (rest.map Component.normal) = "/".intercalate rest := by
  have hother : ofComponents (rest.map Component.normal) =
      "/".intercalate ((rest.map Component.normal).map Component.text) := by
    cases rest <;> rfl
  rw [hother, map_text_normal]

/-- Whatever a scan comes to stands under names below its root. -/
theorem exists_of_mem_filesBelow (hd : disk.WellFormed) (habs : isAbsolute root = true)
    {cs : List Component} {entry : DiskEntry} (h : (cs, entry) ∈ filesBelow disk noIgnore root) :
    ∃ base top rest, disk.find root = .ok (base, top) ∧ ProperNames rest ∧
      cs = rest.map Component.normal ∧ disk.entryAt? (rest.reverse ++ base) = some entry := by
  cases hroot : disk.find root with
  | error fault =>
    unfold filesBelow at h
    rw [hroot] at h
    cases h
  | ok found =>
    obtain ⟨base, top⟩ := found
    obtain ⟨rest, hrest, hcs, hentry, -, -⟩ := (mem_filesBelow_iff hd habs hroot).mp h
    exact ⟨base, top, rest, rfl, hrest, hcs, hentry⟩

/-- A file below a root is found under its path. -/
theorem find_pathBelow (hd : disk.WellFormed) (habs : isAbsolute root = true)
    {cs : List Component} {entry : DiskEntry} (h : (cs, entry) ∈ filesBelow disk noIgnore root) :
    ∃ names, disk.find (pathBelow root cs) = .ok (names, entry) := by
  obtain ⟨base, top, rest, hroot, hrest, rfl, hentry⟩ := exists_of_mem_filesBelow hd habs h
  have htop := ((find_eq_ok_iff habs).mp hroot).2.1
  unfold pathBelow
  -- the file is the root itself, or the root is a directory above it
  by_cases hne : rest = []
  · subst hne
    rw [List.reverse_nil, List.nil_append, htop, Option.some_inj] at hentry
    exact ⟨base, by simpa [hentry] using hroot⟩
  · have hdir := hd.entryAt?_above (hrest.reverse.append (find_properNames habs hroot))
      (by simpa using hne) hentry
    rw [htop, Option.some_inj] at hdir
    subst hdir
    rw [if_neg (by simpa using hne), ofComponents_map_normal]
    exact ⟨_, hd.find_eq habs hroot hrest hne hentry⟩

/-- A file that is found can be read again under its path. -/
theorem find_of_mem_scan (hd : disk.WellFormed) (habs : isAbsolute root = true)
    (h : scan disk noIgnore root origin = .ok files) {f : ScannedFile} (hf : f ∈ files) :
    ∃ names, disk.find f.path = .ok (names, .file f.content) := by
  obtain ⟨cs, content, hmem, -, rfl⟩ := (mem_scan_iff h).mp hf
  exact find_pathBelow hd habs hmem

/-- Below an absolute root paths are absolute. -/
theorem isAbsolute_pathBelow (habs : isAbsolute root = true) (cs : List Component) :
    isAbsolute (pathBelow root cs) = true := by
  unfold pathBelow
  split
  · exact habs
  · exact isAbsolute_join habs

/-- The path of a file goes on from its root by the names that lead down to it. -/
theorem components_pathBelow (habs : isAbsolute root = true) {rest : List String}
    (hrest : ProperNames rest) :
    components (pathBelow root (rest.map Component.normal)) =
      components root ++ rest.map Component.normal := by
  unfold pathBelow
  split
  next hnil =>
    rw [List.isEmpty_iff] at hnil
    rw [hnil, List.append_nil]
  next => rw [ofComponents_map_normal, components_join_names habs hrest]

/-- The stored path tells the origin. -/
theorem originOf_storedPath (habs : isAbsolute root = true) {rest : List String}
    (hrest : ProperNames rest) :
    originOf (storedPath root origin (rest.map Component.normal)) = origin := by
  unfold originOf
  cases origin with
  | project =>
    have hrelative := isAbsolute_normalizeComponents (inner_of_mem_map_normal hrest)
    simp [storedPath, hrelative]
  | library =>
    obtain ⟨cs, hcs, hinner⟩ := components_inner_of_isAbsolute
      (isAbsolute_pathBelow habs (rest.map Component.normal))
    have habsolute := isAbsolute_normalizeComponents_root hinner
    simp [storedPath, Path.normalize, hcs, habsolute]

/-- A file that is found has the origin of its scan, and its stored path tells it. -/
theorem origin_of_mem_scan (hd : disk.WellFormed) (habs : isAbsolute root = true)
    (h : scan disk noIgnore root origin = .ok files) {f : ScannedFile} (hf : f ∈ files) :
    f.origin = origin ∧ originOf f.stored = origin := by
  obtain ⟨cs, content, hmem, -, rfl⟩ := (mem_scan_iff h).mp hf
  obtain ⟨-, -, rest, -, hrest, rfl, -⟩ := exists_of_mem_filesBelow hd habs hmem
  exact ⟨rfl, originOf_storedPath habs hrest⟩

/-- The stored path of a file tells where it is. -/
theorem components_eq_of_storedPath_eq {other : String} (habs : isAbsolute root = true)
    (hother : isAbsolute other = true) (hroots : origin = .project → root = other)
    {rest rest' : List String} (hrest : ProperNames rest) (hrest' : ProperNames rest')
    (h : storedPath root origin (rest.map Component.normal) =
      storedPath other origin (rest'.map Component.normal)) :
    components (pathBelow root (rest.map Component.normal)) =
      components (pathBelow other (rest'.map Component.normal)) := by
  cases origin with
  | project =>
    -- below one root the names tell the file
    have hnames := normalizeComponents_injective (inner_of_mem_map_normal hrest)
      (inner_of_mem_map_normal hrest') h
    rw [hroots rfl, hnames]
  | library =>
    obtain ⟨cs, hcs, hinner⟩ := components_inner_of_isAbsolute
      (isAbsolute_pathBelow habs (rest.map Component.normal))
    obtain ⟨cs', hcs', hinner'⟩ := components_inner_of_isAbsolute
      (isAbsolute_pathBelow hother (rest'.map Component.normal))
    simp only [storedPath, Path.normalize, hcs, hcs'] at h
    rw [hcs, hcs', normalizeComponents_root_injective hinner hinner' h]

/-- Files that would be stored under one path have one content. -/
theorem content_eq_of_stored_eq (hd : disk.WellFormed) {other : String} {others : List ScannedFile}
    {origin' : Origin} (habs : isAbsolute root = true) (hother : isAbsolute other = true)
    (hroots : origin = .project → origin' = .project → root = other)
    (h : scan disk noIgnore root origin = .ok files)
    (h' : scan disk noIgnore other origin' = .ok others)
    {f g : ScannedFile} (hf : f ∈ files) (hg : g ∈ others) (hstored : f.stored = g.stored) :
    f.content = g.content := by
  have horigin : origin = origin' := by
    rw [← (origin_of_mem_scan hd habs h hf).2, ← (origin_of_mem_scan hd hother h' hg).2, hstored]
  -- stored alike, they are of one origin, and so stand under one path
  subst horigin
  obtain ⟨names, hfind⟩ := find_of_mem_scan hd habs h hf
  obtain ⟨names', hfind'⟩ := find_of_mem_scan hd hother h' hg
  obtain ⟨cs, content, hmem, -, rfl⟩ := (mem_scan_iff h).mp hf
  obtain ⟨cs', content', hmem', -, rfl⟩ := (mem_scan_iff h').mp hg
  obtain ⟨-, -, rest, -, hrest, rfl, -⟩ := exists_of_mem_filesBelow hd habs hmem
  obtain ⟨-, -, rest', -, hrest', rfl, -⟩ := exists_of_mem_filesBelow hd hother hmem'
  have hcs := components_eq_of_storedPath_eq habs hother (fun ho => hroots ho ho) hrest hrest'
    hstored
  exact DiskEntry.file.inj (find_unique (isAbsolute_pathBelow habs _)
    (isAbsolute_pathBelow hother _) hcs hfind hfind')

end Sources

end JavaAtlas.Scan
