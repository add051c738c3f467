import JavaAtlas.Disk
import JavaAtlas.Proofs.Path

namespace JavaAtlas

open JavaAtlas.Path

/-! # Disks in order

A disk stands for a file system if every entry stands under a direct path, once, in a directory.
Then what a path leads to is what stands under the names it goes through.

* `Disk.WellFormed` is what holds of every file system;
* `Disk.WellFormed.find_eq`: an entry is found under every path that leads to its directory and
  then to it by name.
-/

/-- Entries are equal if they are of one kind and, for files, of equal bytes. -/
instance : DecidableEq DiskEntry
  | .directory, .directory | .locked, .locked => isTrue rfl
  | .file a, .file b =>
    match ByteArray.instDecidableEq a b with
    | isTrue h => isTrue (congrArg DiskEntry.file h)
    | isFalse h => isFalse fun heq => h (DiskEntry.file.inj heq)
  | .directory, .file _ | .directory, .locked | .file _, .directory | .file _, .locked
  | .locked, .directory | .locked, .file _ => isFalse nofun

namespace Disk

/-- Texts that can stand for files and directories. -/
def ProperNames (names : List String) : Prop := ∀ name ∈ names, ProperName name

instance (names : List String) : Decidable (ProperNames names) :=
  inferInstanceAs (Decidable (∀ name ∈ names, ProperName name))

/-- Every entry stands once, under a direct path, in a directory. -/
structure WellFormed (d : Disk) : Prop where
  keys : (d.entries.map (·.1)).Nodup
  placed : ∀ e ∈ d.entries, ∃ name names,
    ProperNames (name :: names) ∧ e.1 = pathOf (name :: names) ∧
      d.entryAt? names = some .directory

/-! ## Direct paths -/

/-- Proper names are inner components. -/
theorem inner_of_mem_map_normal {names : List String} (h : ProperNames names) :
    ∀ c ∈ names.map Component.normal, c.Inner := by
  intro c hc
  obtain ⟨name, hname, rfl⟩ := List.mem_map.mp hc
  exact h name hname

theorem ProperNames.reverse {names : List String} (h : ProperNames names) :
    ProperNames names.reverse :=
  fun name hname => h name (List.mem_reverse.mp hname)

theorem ProperNames.append {names others : List String} (h : ProperNames names)
    (hothers : ProperNames others) : ProperNames (names ++ others) := by
  intro name hname
  rcases List.mem_append.mp hname with hname | hname
  · exact h name hname
  · exact hothers name hname

/-- A name is written as it is. -/
@[simp]
theorem map_text_normal (names : List String) :
    (names.map Component.normal).map Component.text = names := by
  rw [List.map_map]
  exact List.map_id _

/-- A direct path is a slash and the names, joined. -/
theorem pathOf_eq (names : List String) :
    pathOf names =
      "/" ++ "/".intercalate ((names.reverse.map Component.normal).map Component.text) := by
  rw [map_text_normal]
  rfl

/-- Direct paths are absolute. -/
@[simp]
theorem isAbsolute_pathOf (names : List String) : isAbsolute (pathOf names) = true :=
  isAbsolute_slash_append _

/-- A direct path has the names as its components. -/
theorem components_pathOf {names : List String} (h : ProperNames names) :
    components (pathOf names) = .root :: names.reverse.map Component.normal := by
  rw [components_of_isAbsolute (isAbsolute_pathOf names), pathOf_eq, segments_slash_append,
    List.filterMap_cons_none (by decide),
    filterMap_segments_intercalate (inner_of_mem_map_normal h.reverse)]

/-- Direct paths are told apart by their names. -/
theorem pathOf_injective {names others : List String} (h : ProperNames names)
    (hothers : ProperNames others) (heq : pathOf names = pathOf others) : names = others := by
  have hc : components (pathOf names) = components (pathOf others) := by rw [heq]
  rw [components_pathOf h, components_pathOf hothers, List.cons.injEq] at hc
  have hinj : Function.Injective Component.normal := fun _ _ h => Component.normal.inj h
  exact List.reverse_inj.mp (List.map_injective_iff.mpr hinj hc.2)

/-! ## Entries -/

section Entries

variable {d : Disk}

/-- In a list with one value for each key, what is found is what is there. -/
theorem lookup_eq_some_iff {α β : Type} [BEq α] [LawfulBEq α] {l : List (α × β)}
    (hkeys : (l.map (·.1)).Nodup) {a : α} {b : β} : l.lookup a = some b ↔ (a, b) ∈ l := by
  induction l with
  | nil => simp
  | cons p l ih =>
    obtain ⟨k, v⟩ := p
    rw [List.map_cons, List.nodup_cons] at hkeys
    rw [List.lookup_cons, List.mem_cons, Prod.mk.injEq]
    -- the key stands in front, and then nowhere else, or only behind
    by_cases hk : a = k
    · subst hk
      have hnot : (a, b) ∉ l := fun h => hkeys.1 (List.mem_map.mpr ⟨(a, b), h, rfl⟩)
      simp [hnot, eq_comm]
    · have hbeq : (a == k) = false := by simpa using hk
      rw [hbeq]
      simp only [hk, false_and, false_or]
      exact ih hkeys.2

/-- Below the root, what stands under names is the entry of their direct path. -/
theorem entryAt?_of_ne_nil {names : List String} (hne : names ≠ []) :
    d.entryAt? names = d.entries.lookup (pathOf names) := by
  unfold entryAt?
  rw [if_neg (by simpa using hne)]

/-- The entries are what stands under proper names. -/
theorem WellFormed.mem_entries_iff (hd : d.WellFormed) {key : String} {entry : DiskEntry} :
    (key, entry) ∈ d.entries ↔ ∃ names, names ≠ [] ∧ ProperNames names ∧ key = pathOf names ∧
      d.entryAt? names = some entry := by
  constructor
  · intro h
    obtain ⟨name, names, hproper, hkey, -⟩ := hd.placed _ h
    refine ⟨name :: names, List.cons_ne_nil _ _, hproper, hkey, ?_⟩
    rw [entryAt?_of_ne_nil (List.cons_ne_nil _ _), ← hkey, lookup_eq_some_iff hd.keys]
    exact h
  · -- an entry under names is one of the list
    rintro ⟨names, hne, -, rfl, hentry⟩
    rwa [entryAt?_of_ne_nil hne, lookup_eq_some_iff hd.keys] at hentry

/-- What stands in a directory stands there by name. -/
theorem WellFormed.entryAt?_tail (hd : d.WellFormed) {name : String} {names : List String}
    (hnames : ProperNames (name :: names)) {entry : DiskEntry}
    (h : d.entryAt? (name :: names) = some entry) : d.entryAt? names = some .directory := by
  rw [entryAt?_of_ne_nil (List.cons_ne_nil name names), lookup_eq_some_iff hd.keys] at h
  obtain ⟨name', names', hproper, hkey, hdir⟩ := hd.placed _ h
  have heq := pathOf_injective hnames hproper hkey
  rw [List.cons.injEq] at heq
  rw [heq.2]
  exact hdir

/-- Everything above an entry is a directory. -/
theorem WellFormed.entryAt?_above (hd : d.WellFormed) {front base : List String}
    (hnames : ProperNames (front ++ base)) {entry : DiskEntry} (hfront : front ≠ [])
    (h : d.entryAt? (front ++ base) = some entry) : d.entryAt? base = some .directory := by
  induction front generalizing entry with
  | nil => exact absurd rfl hfront
  | cons name front ih =>
    rw [List.cons_append] at h hnames
    have htail := hd.entryAt?_tail hnames h
    -- directories are met one name after the other
    by_cases hnil : front = []
    · rwa [hnil, List.nil_append] at htail
    · exact ih (fun n hn => hnames n (List.mem_cons_of_mem name hn)) hnil htail

end Entries

/-- The names in a direct path, the last one first. -/
def namesIn (path : String) : List String := ((segments path).drop 1).reverse

/-- The names are read off the direct path again. -/
@[simp]
theorem namesIn_pathOf {names : List String} (h : ProperNames names) (hne : names ≠ []) :
    namesIn (pathOf names) = names := by
  have hsegments : segments ("/".intercalate names.reverse) = names.reverse :=
    segments_intercalate (fun s hs => (h s (List.mem_reverse.mp hs)).2.2.2) (by simpa using hne)
  unfold namesIn pathOf
  rw [segments_slash_append, hsegments, List.drop_one, List.tail_cons, List.reverse_reverse]

/-- That a disk is in order can be read off its entries. -/
theorem wellFormed_iff {d : Disk} : d.WellFormed ↔
    (d.entries.map (·.1)).Nodup ∧ ∀ e ∈ d.entries,
      namesIn e.1 ≠ [] ∧ ProperNames (namesIn e.1) ∧ e.1 = pathOf (namesIn e.1) ∧
        d.entryAt? (namesIn e.1).tail = some .directory := by
  constructor
  · intro h
    refine ⟨h.keys, ?_⟩
    intro e he
    obtain ⟨name, names, hproper, hkey, hdir⟩ := h.placed e he
    rw [hkey, namesIn_pathOf hproper (List.cons_ne_nil name names)]
    exact ⟨List.cons_ne_nil name names, hproper, rfl, hdir⟩
  · rintro ⟨hkeys, hplaced⟩
    refine ⟨hkeys, ?_⟩
    intro e he
    obtain ⟨hne, hproper, hkey, hdir⟩ := hplaced e he
    obtain ⟨name, names, hnames⟩ := List.exists_cons_of_ne_nil hne
    rw [hnames] at hproper hkey hdir
    exact ⟨name, names, hproper, hkey, hdir⟩

instance (d : Disk) : Decidable d.WellFormed := decidable_of_iff _ wellFormed_iff.symm

/-! ## Following a path -/

section Follow

variable {d : Disk}

/-- A name leads to its entry; only behind a directory the path may go on. -/
theorem follow_normal {name : String} {names : List String} {entry : DiskEntry}
    {rest : List Component} (hentry : d.entryAt? (name :: names) = some entry)
    (hfile : entry.isFile = true → rest = []) :
    d.follow names (.normal name :: rest) = d.follow (name :: names) rest := by
  rw [follow, hentry]
  dsimp only
  rw [if_neg]
  simpa using hfile

/-- A name that was followed led to an entry. -/
theorem follow_normal_eq_ok {name : String} {names found : List String} {rest : List Component}
    (h : d.follow names (.normal name :: rest) = .ok found) :
    ∃ entry, d.entryAt? (name :: names) = some entry ∧ (entry.isFile = true → rest = []) ∧
      d.follow (name :: names) rest = .ok found := by
  rw [follow] at h
  split at h
  · cases h
  next entry hentry =>
    split at h
    · cases h
    next hfile => exact ⟨entry, hentry, by simpa using hfile, h⟩

/-- From a directory, names lead to what stands under them. -/
theorem WellFormed.follow_normals (hd : d.WellFormed) {rest base : List String}
    (hnames : ProperNames (rest.reverse ++ base)) {entry : DiskEntry}
    (h : d.entryAt? (rest.reverse ++ base) = some entry) :
    d.follow base (rest.map Component.normal) = .ok (rest.reverse ++ base) := by
  induction rest generalizing base with
  | nil => rfl
  | cons name rest ih =>
    rw [List.reverse_cons, List.append_assoc, List.singleton_append] at h hnames ⊢
    rw [List.map_cons]
    -- on the way there are directories; only what the last name leads to may be a file
    by_cases hrest : rest = []
    · subst hrest
      exact follow_normal h fun _ => rfl
    · have hdir := hd.entryAt?_above hnames (by simpa using hrest) h
      rw [follow_normal hdir (by simp [DiskEntry.isFile])]
      exact ih hnames h

/-- A path that leads to a directory can be followed further. -/
theorem follow_append {base mid : List String} {cs : List Component}
    (h : d.follow base cs = .ok mid) (hmid : d.entryAt? mid = some .directory)
    (more : List Component) : d.follow base (cs ++ more) = d.follow mid more := by
  induction cs generalizing base with
  | nil =>
    cases h
    rfl
  | cons c cs ih =>
    cases c with
    | root => exact ih h
    | current => exact ih h
    | parent => exact ih h
    | normal name =>
      obtain ⟨entry, hentry, hfile, hrest⟩ := follow_normal_eq_ok h
      have hdir : entry.isFile = true → cs ++ more = [] := by
        intro hisFile
        -- a file would be the end of the path, but a directory is there
        obtain rfl := hfile hisFile
        cases hrest
        rw [hmid] at hentry
        cases hentry
        cases hisFile
      rw [List.cons_append, follow_normal hentry hdir]
      exact ih hrest

/-- A path leads to proper names. -/
theorem follow_properNames {base names : List String} {cs : List Component}
    (hcs : ∀ c ∈ cs, c.Inner ∨ c = .root) (hbase : ProperNames base)
    (h : d.follow base cs = .ok names) : ProperNames names := by
  induction cs generalizing base with
  | nil =>
    cases h
    exact hbase
  | cons c cs ih =>
    have hrest : ∀ c ∈ cs, c.Inner ∨ c = .root := fun c hc => hcs c (List.mem_cons_of_mem _ hc)
    cases c with
    | root => exact ih hrest (by intro name hname; cases hname) h
    | current => exact ih hrest hbase h
    | parent => exact ih hrest (fun name hname => hbase name (List.mem_of_mem_tail hname)) h
    | normal name =>
      obtain ⟨-, -, -, hfollow⟩ := follow_normal_eq_ok h
      refine ih hrest ?_ hfollow
      intro other hother
      rcases List.mem_cons.mp hother with rfl | hother
      · exact (hcs _ List.mem_cons_self).resolve_right (by simp)
      · exact hbase other hother

/-- Names lead nowhere but to themselves. -/
theorem eq_of_follow_normals {rest base names : List String}
    (h : d.follow base (rest.map Component.normal) = .ok names) : names = rest.reverse ++ base := by
  induction rest generalizing base with
  | nil =>
    cases h
    rfl
  | cons name rest ih =>
    obtain ⟨-, -, -, hfollow⟩ := follow_normal_eq_ok h
    rw [ih hfollow, List.reverse_cons, List.append_assoc, List.singleton_append]

end Follow

/-! ## Finding -/

section Find

variable {d : Disk}

/-- A path that ends with a name may be that of a file. -/
theorem namesDirectory_eq_false {path last : String} (hlast : (segments path).getLast? = some last)
    (hname : ProperName last) : namesDirectory path = false := by
  -- a path that ends with a slash or a dot has an improper last segment
  have hends : ∀ front tail, path = front ++ "/" ++ tail → segments tail = [tail] →
      tail = last := by
    intro front tail hpath htail
    rw [hpath, segments_append_slash, htail, List.getLast?_concat, Option.some_inj] at hlast
    exact hlast
  have hslash : path.endsWith "/" = false := by
    rw [Bool.eq_false_iff, ne_eq, endsWith_iff]
    rintro ⟨front, hfront⟩
    exact hname.1 (hends front "" (by rw [hfront, String.append_empty]) segments_empty).symm
  have hdot : path.endsWith "/." = false := by
    rw [Bool.eq_false_iff, ne_eq, endsWith_iff]
    rintro ⟨front, hfront⟩
    exact hname.2.1 (hends front "." (by rw [hfront, String.append_assoc]; rfl) (by decide)).symm
  unfold namesDirectory
  rw [hslash, hdot]
  rfl

/-- What an absolute path leads to depends on its components, and on whether it is written so that
it can only mean a directory. -/
theorem find_congr {path other : String} (hpath : isAbsolute path = true)
    (hother : isAbsolute other = true) (hcomponents : components path = components other)
    (hwritten : namesDirectory path = namesDirectory other) : d.find path = d.find other := by
  unfold find
  rw [join_of_isAbsolute hpath, join_of_isAbsolute hother, hcomponents, hwritten]

/-- What is found is the entry to which the components lead, unless it is a file written as a
directory. -/
theorem find_eq_ok_iff {path : String} (hpath : isAbsolute path = true) {names : List String}
    {entry : DiskEntry} :
    d.find path = .ok (names, entry) ↔
      d.follow [] (components path) = .ok names ∧ d.entryAt? names = some entry ∧
        (entry.isFile = true → namesDirectory path = false) := by
  unfold find
  rw [join_of_isAbsolute hpath]
  cases hfollow : d.follow [] (components path) with
  | error fault => simp [bind, Except.bind]
  | ok found =>
    simp only [bind, Except.bind, Except.ok.injEq]
    cases hentry : d.entryAt? found with
    | none => grind
    | some e => grind

/-- What is found stands under proper names. -/
theorem find_properNames {path : String} (hpath : isAbsolute path = true) {names : List String}
    {entry : DiskEntry} (h : d.find path = .ok (names, entry)) : ProperNames names := by
  obtain ⟨cs, hcs, hinner⟩ := components_inner_of_isAbsolute hpath
  obtain ⟨hfollow, -, -⟩ := (find_eq_ok_iff hpath).mp h
  rw [hcs] at hfollow
  refine follow_properNames ?_ (fun name hname => by cases hname) hfollow
  intro c hc
  rcases List.mem_cons.mp hc with rfl | hc
  · exact Or.inr rfl
  · exact Or.inl (hinner c hc)

/-- Paths with the same components lead to the same file. -/
theorem find_unique {path other : String} (hpath : isAbsolute path = true)
    (hother : isAbsolute other = true) (hcs : components path = components other)
    {names names' : List String} {entry entry' : DiskEntry}
    (h : d.find path = .ok (names, entry)) (h' : d.find other = .ok (names', entry')) :
    entry = entry' := by
  obtain ⟨hfollow, hentry, -⟩ := (find_eq_ok_iff hpath).mp h
  obtain ⟨hfollow', hentry', -⟩ := (find_eq_ok_iff hother).mp h'
  rw [hcs, hfollow'] at hfollow
  cases hfollow
  rw [hentry] at hentry'
  exact Option.some_inj.mp hentry'

end Find

/-! ## Below a directory -/

section Below

variable {d : Disk}

/-- Names below an absolute path are its further components. -/
theorem components_join_names {root : String} (hroot : isAbsolute root = true) {rest : List String}
    (hrest : ProperNames rest) :
    components (join root ("/".intercalate rest)) =
      components root ++ rest.map Component.normal := by
  have := components_join hroot (inner_of_mem_map_normal hrest)
  rwa [map_text_normal] at this

/-- Joined names are not absolute. -/
theorem isAbsolute_intercalate_names {rest : List String} (hrest : ProperNames rest) :
    isAbsolute ("/".intercalate rest) = false := by
  have := isAbsolute_intercalate (inner_of_mem_map_normal hrest)
  rwa [map_text_normal] at this

/-- A path that goes down by names ends with the last of them. -/
theorem getLast?_segments_join (base : String) {rest : List String} (hrest : ProperNames rest)
    (hne : rest ≠ []) : (segments (join base ("/".intercalate rest))).getLast? = rest.getLast? := by
  have hsegments : segments ("/".intercalate rest) = rest :=
    segments_intercalate (fun s hs => (hrest s hs).2.2.2) hne
  unfold join
  rw [if_neg (by simp [isAbsolute_intercalate_names hrest])]
  split
  next h =>
    rcases h with rfl | h
    · rw [String.empty_append, hsegments]
    · obtain ⟨front, rfl⟩ := endsWith_iff.mp h
      rw [segments_append_slash, hsegments, List.getLast?_append_of_ne_nil _ hne]
  next h => rw [segments_append_slash, hsegments, List.getLast?_append_of_ne_nil _ hne]

/-- An entry is found under every path that leads to a directory above it and then goes down to
it by name. -/
theorem WellFormed.find_eq (hd : d.WellFormed) {root : String} (habs : isAbsolute root = true)
    {base : List String} (hroot : d.find root = .ok (base, .directory)) {rest : List String}
    (hrest : ProperNames rest) (hne : rest ≠ []) {entry : DiskEntry}
    (hentry : d.entryAt? (rest.reverse ++ base) = some entry) :
    d.find (join root ("/".intercalate rest)) = .ok (rest.reverse ++ base, entry) := by
  have hbase := find_properNames habs hroot
  obtain ⟨hfollow, hdir, -⟩ := (find_eq_ok_iff habs).mp hroot
  rw [find_eq_ok_iff (isAbsolute_join habs), components_join_names habs hrest,
    follow_append hfollow hdir]
  refine ⟨hd.follow_normals (hrest.reverse.append hbase) hentry, hentry, fun _ => ?_⟩
  have hlast := List.getLast?_eq_some_getLast hne
  exact namesDirectory_eq_false ((getLast?_segments_join root hrest hne).trans hlast)
    (hrest _ (List.getLast_mem hne))

/-- Going down from a direct path gives a direct path. -/
theorem join_pathOf (names : List String) {rest : List String} (hrest : ProperNames rest)
    (hne : rest ≠ []) (hnames : ProperNames names) :
    join (pathOf names) ("/".intercalate rest) = pathOf (rest.reverse ++ names) := by
  have hpath : pathOf (rest.reverse ++ names) = "/" ++ "/".intercalate (names.reverse ++ rest) := by
    rw [pathOf, List.reverse_append, List.reverse_reverse]
  unfold join
  rw [if_neg (by simp [isAbsolute_intercalate_names hrest]), hpath]
  -- the root is the only direct path that ends with a slash
  by_cases hnil : names = []
  · subst hnil
    rw [if_pos (Or.inr (by decide +kernel))]
    rfl
  · have hreverse : names.reverse ≠ [] := by simpa using hnil
    have hlast := List.getLast?_eq_some_getLast hreverse
    have hdirectory : namesDirectory (pathOf names) = false := by
      refine namesDirectory_eq_false ?_ (hnames _ (List.mem_reverse.mp (List.getLast_mem hreverse)))
      have hsegments : segments ("/".intercalate names.reverse) = names.reverse :=
        segments_intercalate (fun s hs => (hnames s (List.mem_reverse.mp hs)).2.2.2) hreverse
      rw [pathOf, segments_slash_append, hsegments, ← List.singleton_append,
        List.getLast?_append_of_ne_nil _ hreverse, hlast]
    have hslash : (pathOf names).endsWith "/" = false := (Bool.or_eq_false_iff.mp hdirectory).1
    rw [if_neg]
    · rw [pathOf, String.intercalate_append_of_ne_nil hreverse hne]
      simp only [String.append_assoc]
    · simp [ne_empty_of_isAbsolute (isAbsolute_pathOf names), hslash]

/-- The direct path of no names is the root. -/
@[simp]
theorem pathOf_nil : pathOf [] = "/" := by decide +kernel

/-- The root is a directory. -/
theorem find_root : d.find "/" = .ok ([], .directory) := by
  rw [← pathOf_nil, find_eq_ok_iff (isAbsolute_pathOf []),
    components_pathOf (by simp [ProperNames])]
  exact ⟨rfl, rfl, nofun⟩

/-- Under a direct path stands what is found there. -/
theorem WellFormed.find_pathOf_iff (hd : d.WellFormed) {names : List String}
    (hnames : ProperNames names) {found : List String} {entry : DiskEntry} :
    d.find (pathOf names) = .ok (found, entry) ↔ found = names ∧ d.entryAt? names = some entry := by
  constructor
  · intro h
    obtain ⟨hfollow, hentry, -⟩ := (find_eq_ok_iff (isAbsolute_pathOf names)).mp h
    rw [components_pathOf hnames] at hfollow
    have hfound : found = names.reverse.reverse ++ [] := eq_of_follow_normals hfollow
    rw [List.reverse_reverse, List.append_nil] at hfound
    subst hfound
    exact ⟨rfl, hentry⟩
  · rintro ⟨rfl, hentry⟩
    -- the root is not below any directory
    by_cases hne : found = []
    · subst hne
      rw [pathOf_nil, find_root]
      cases hentry
      rfl
    · have h := hd.find_eq (by decide +kernel) find_root hnames.reverse (by simpa using hne)
        (by simpa using hentry)
      have hjoin := join_pathOf [] hnames.reverse (by simpa using hne) (by simp [ProperNames])
      rw [pathOf_nil] at hjoin
      rwa [hjoin, List.reverse_reverse, List.append_nil] at h

/-- Under a direct path the file that stands there is read. -/
theorem WellFormed.read_pathOf_iff (hd : d.WellFormed) {names : List String}
    (hnames : ProperNames names) {content : ByteArray} :
    d.read (pathOf names) = .ok content ↔ d.entryAt? names = some (.file content) := by
  have hread : d.read (pathOf names) = .ok content ↔
      ∃ found, d.find (pathOf names) = .ok (found, .file content) := by
    unfold Disk.read
    cases d.find (pathOf names) with
    | error fault => simp [bind, Except.bind]
    | ok found =>
      obtain ⟨found, entry⟩ := found
      cases entry <;> simp [bind, Except.bind, DiskEntry.read]
  simp [hread, hd.find_pathOf_iff hnames]

end Below

end Disk

end JavaAtlas
