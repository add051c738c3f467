import JavaAtlas.Proofs.Changes
import JavaAtlas.Watch.Filter
import Mathlib.Data.List.Infix

/-! # Changes that count, and files that are scanned

The watcher reads the rules of version control that a walk from the root comes to, and asks all of
them about a path and the directories above it. A scan asks the rules on the way, and does not
enter what they leave out.

* `verdictOf_pathOf`, `verdictUpward?_pathOf`: both in terms of the directories above a file;
* `mem_sets_load`, `pairwise_sets_load`: which rules the watcher reads, and in which order;
* `verdict_eq`: the last one that says something decides;
* `scanned_of_passes`: a changed file that counts is scanned, if the rules on its way are of those
  that the watcher reads and do not bring it back below something that is left out;
* `passes_of_differing`: where they are not, it may count and not be scanned.
-/

namespace JavaAtlas.Ignore

open JavaAtlas.Path Disk Scan

/-! ## Directories above a file -/

section Above

/-- Upward from a path comes the path, and then all above it. -/
@[simp]
theorem upward_concat (cs : List Component) (c : Component) :
    upward (cs ++ [c]) = (cs ++ [c]) :: upward cs := by
  unfold upward
  rw [List.length_append, List.length_singleton, List.range_succ_eq_map, List.map_cons,
    List.map_map]
  congr 1
  · simp
  · -- what is above the longer path is above the shorter one, or is that itself
    apply List.map_congr_left
    intro i hi
    have hle : cs.length - i ≤ cs.length := Nat.sub_le _ _
    simp [List.take_append_of_le_length hle]

/-- What is looked at upwards from a file, in terms of names with the last one first. -/
theorem upward_names (names : List String) :
    upward (names.reverse.map Component.normal) ++ [[]] =
      names.tails.map fun part => part.reverse.map Component.normal := by
  induction names with
  | nil => rfl
  | cons name names ih => simpa using ih

/-- Upward from an absolute path come the paths of all folders down to the root. -/
theorem upward_root_names (names : List String) :
    upward (.root :: names.reverse.map Component.normal) =
      names.tails.map fun part => .root :: part.reverse.map Component.normal := by
  induction names with
  | nil => rfl
  | cons name names ih =>
    rw [List.reverse_cons, List.map_append, ← List.cons_append, List.map_singleton, upward_concat]
    simpa using ih

/-- Upward from a relative path come its nonempty beginnings. -/
theorem mem_upward_names {names : List String} {cs : List Component} :
    cs ∈ upward (names.reverse.map Component.normal) ↔
      ∃ part, part ≠ [] ∧ part <:+ names ∧ cs = part.reverse.map Component.normal := by
  -- The beginnings of a path are the ends of its names read backwards, but for the empty one.
  have hmem : cs ∈ upward (names.reverse.map Component.normal) ++ [[]] ↔
      ∃ part, part <:+ names ∧ cs = part.reverse.map Component.normal := by
    rw [upward_names, List.mem_map]
    simp only [List.mem_tails, eq_comm]
  have hne : ∀ cs ∈ upward (names.reverse.map Component.normal), cs ≠ [] := by
    intro cs hcs
    obtain ⟨i, hi, rfl⟩ := List.mem_map.mp hcs
    have := List.mem_range.mp hi
    rw [ne_eq, List.take_eq_nil_iff]
    rintro (hzero | hnil)
    · omega
    · rw [hnil, List.length_nil] at this
      omega
  constructor
  · intro hcs
    obtain ⟨part, hpart, rfl⟩ := hmem.mp (List.mem_append_left _ hcs)
    refine ⟨part, ?_, hpart, rfl⟩
    rintro rfl
    exact hne _ hcs rfl
  · rintro ⟨part, hpart, hsuffix, rfl⟩
    rcases List.mem_append.mp (hmem.mpr ⟨part, hsuffix, rfl⟩) with hcs | hnil
    · exact hcs
    · exact absurd (by simpa using hnil) hpart

/-- The directories above something, nearest first, by their names with the last one first. -/
def directories (names : List String) : List (List String) := names.tails.tail

/-- The folders of a path are all above it. -/
@[simp]
theorem mem_directories {names above : List String} :
    above ∈ directories names ↔ ∃ name, name :: above <:+ names := by
  induction names with
  | nil => simp [directories]
  | cons first names ih =>
    have hcons : directories (first :: names) = names :: directories names := by
      cases names <;> rfl
    rw [hcons, List.mem_cons, ih]
    constructor
    · rintro (rfl | ⟨name, hname⟩)
      · exact ⟨first, List.suffix_refl _⟩
      · exact ⟨name, hname.trans (List.suffix_cons first names)⟩
    · rintro ⟨name, hname⟩
      rcases List.suffix_cons_iff.mp hname with heq | hname
      · exact .inl (List.cons.inj heq).2
      · exact .inr ⟨name, hname⟩

/-- They are all ends but the whole. -/
theorem mem_directories_iff {names above : List String} :
    above ∈ directories names ↔ above <:+ names ∧ above ≠ names := by
  rw [mem_directories]
  constructor
  · rintro ⟨name, hname⟩
    refine ⟨(List.suffix_cons name above).trans hname, ?_⟩
    rintro rfl
    have := hname.length_le
    rw [List.length_cons] at this
    omega
  · rintro ⟨⟨lead, rfl⟩, hne⟩
    have hlead : lead ≠ [] := by
      rintro rfl
      exact hne rfl
    obtain ⟨front, name, rfl⟩ := (List.eq_nil_or_concat lead).resolve_left hlead
    exact ⟨name, front, List.concat_append.symm⟩

/-- What lies below a folder still does when the folder is left out of both. -/
theorem suffix_of_append {names above base : List String} (h : above ++ base <:+ names ++ base) :
    above <:+ names := by
  obtain ⟨lead, hlead⟩ := h
  rw [← List.append_assoc, List.append_left_inj] at hlead
  exact ⟨lead, hlead⟩

/-- The folders of a path are that of its last name and those above. -/
@[simp]
theorem directories_cons (name : String) (names : List String) :
    directories (name :: names) = names.tails := by
  unfold directories
  rw [List.tails_cons, List.tail_cons]

/-- The nearer directory has more names. -/
theorem pairwise_directories (names : List String) :
    (directories names).Pairwise fun near far => far.length < near.length := by
  induction names with
  | nil => exact List.Pairwise.nil
  | cons name names ih =>
    rw [directories_cons]
    cases names with
    | nil => exact List.pairwise_singleton _ _
    | cons next names =>
      rw [List.tails_cons, ← directories_cons next names]
      refine List.pairwise_cons.mpr ⟨?_, ih⟩
      -- What is above the next folder is shorter than it.
      intro above habove
      rw [directories_cons, List.mem_tails] at habove
      have := habove.length_le
      rw [List.length_cons]
      omega

/-- The nearest directory that has something to say. -/
theorem exists_nearest {α : Type} {names : List String} {f : List String → Option α} {said : α}
    (h : (directories names).findSome? f = some said) : ∃ top ∈ directories names,
      f top = some said ∧ ∀ above ∈ directories names, f above ≠ none →
        top.length ≤ above.length → above = top := by
  obtain ⟨near, top, far, hsplit, htop, hnear⟩ := List.findSome?_eq_some_iff.mp h
  refine ⟨top, by simp [hsplit], htop, ?_⟩
  intro above habove hsays hle
  have hpairwise := pairwise_directories names
  rw [hsplit] at habove hpairwise
  rcases List.mem_append.mp habove with hin | hin
  · exact absurd (hnear above hin) hsays
  · rcases List.mem_cons.mp hin with heq | hin
    · exact heq
    · have := (List.pairwise_cons.mp (List.pairwise_append.mp hpairwise).2.1).1 above hin
      omega

/-- The folders of a path below a base are those below the base and those of the base. -/
theorem directories_append {front base : List String} (hne : front ≠ []) :
    directories (front ++ base) = (directories front).map (· ++ base) ++ directories base := by
  obtain ⟨name, front, rfl⟩ := List.exists_cons_of_ne_nil hne
  simp [directories, List.tails_append]

/-- The folders above a written path are those above its names. -/
theorem directoriesAbove_pathOf {names : List String} (h : ProperNames names) :
    directoriesAbove (pathOf names) = (directories names).map pathOf := by
  unfold directoriesAbove directories
  rw [components_pathOf h, upward_root_names, ← List.map_drop, List.drop_one, List.map_map]
  apply List.map_congr_left
  intro part _
  rw [Function.comp_apply, ofComponents_root_map_normal, List.reverse_reverse]

end Above

/-! ## Rules in a directory -/

section Rules

variable {rules : RuleSet} {top front names : List String} {isDirectory : Bool} {verdict : Verdict}

/-- Questions that agree on a list find the same in it. -/
theorem findSome?_congr {α β : Type} {l : List α} {f g : α → Option β} (h : ∀ a ∈ l, f a = g a) :
    l.findSome? f = l.findSome? g := by
  induction l with
  | nil => rfl
  | cons a l ih =>
    rw [List.findSome?_cons, List.findSome?_cons, h a List.mem_cons_self,
      ih fun b hb => h b (List.mem_cons_of_mem a hb)]

/-- A path below a folder goes on from the folder with the names in front. -/
theorem below?_pathOf_append (h : ProperNames (front ++ top)) :
    below? (pathOf top) (pathOf (front ++ top)) = some (front.reverse.map Component.normal) := by
  have htop : ProperNames top := fun name hname => h name (List.mem_append_right front hname)
  exact (below?_pathOf_iff htop h).mpr ⟨front.reverse, rfl, by rw [List.reverse_reverse]⟩

/-- What stands below a folder has the folder's names behind its own. -/
theorem suffix_of_below? {cs : List Component} (htop : ProperNames top) (hnames : ProperNames names)
    (hbelow : below? (pathOf top) (pathOf names) = some cs) : top <:+ names := by
  obtain ⟨rest, -, rfl⟩ := (below?_pathOf_iff htop hnames).mp hbelow
  exact List.suffix_append _ _

/-- A rule set judges a path below its folder by the names that go on from it. -/
theorem verdict?_pathOf (hdirectory : rules.directory = pathOf top)
    (h : ProperNames (front ++ top)) :
    rules.verdict? (pathOf (front ++ top)) isDirectory =
      decideRules rules.rules (ofComponents (front.reverse.map Component.normal)) isDirectory := by
  unfold RuleSet.verdict?
  rw [hdirectory, below?_pathOf_append h]

/-- Upwards from a path, what rules say about the nearest of which they say something. -/
theorem verdictUpward?_pathOf (hdirectory : rules.directory = pathOf top)
    (h : ProperNames (front ++ top)) :
    rules.verdictUpward? (pathOf (front ++ top)) isDirectory =
      front.tails.findSome? fun part =>
        rules.verdict? (pathOf (part ++ top)) (isDirectory || part.length < front.length) := by
  have hpart : ∀ part ∈ front.tails, ProperNames (part ++ top) := by
    intro part hpart name hname
    obtain ⟨below, rfl⟩ := (List.mem_tails _ _).mp hpart
    rw [List.append_assoc] at h
    exact h name (List.mem_append_right below hname)
  unfold RuleSet.verdictUpward?
  rw [hdirectory, below?_pathOf_append h]
  dsimp only
  rw [upward_names, List.findSome?_map]
  -- Part by part upward, the verdict is asked about the same path.
  apply findSome?_congr
  intro part hmem
  rw [verdict?_pathOf hdirectory (hpart part hmem)]
  simp

/-- Rules say something only about what lies in their directory. -/
theorem suffix_of_verdict? (hdirectory : rules.directory = pathOf top) (htop : ProperNames top)
    (hnames : ProperNames names)
    (h : rules.verdict? (pathOf names) isDirectory = some verdict) : top <:+ names := by
  unfold RuleSet.verdict? at h
  rw [hdirectory] at h
  split at h
  next hbelow => exact suffix_of_below? htop hnames hbelow
  next => cases h

/-- A rule set with a verdict on a path has its folder above the path. -/
theorem suffix_of_verdictUpward? (hdirectory : rules.directory = pathOf top)
    (htop : ProperNames top) (hnames : ProperNames names)
    (h : rules.verdictUpward? (pathOf names) isDirectory = some verdict) : top <:+ names := by
  unfold RuleSet.verdictUpward? at h
  rw [hdirectory] at h
  split at h
  next hbelow => exact suffix_of_below? htop hnames hbelow
  next => cases h

/-- A rule set without rules has no verdict. -/
theorem verdict?_of_rules_eq_nil (h : rules.rules = []) (path : String) :
    rules.verdict? path isDirectory = none := by
  unfold RuleSet.verdict?
  rw [h]
  split <;> rfl

end Rules

end JavaAtlas.Ignore

namespace JavaAtlas.Watch.Filter

open JavaAtlas.Path Disk Ignore Scan

/-! ## What the rules say in the end -/

/-- The last rules that say something decide. -/
theorem verdict_eq (sets : List RuleSet) (path : String) (isDirectory : Bool) :
    verdict sets path isDirectory =
      (sets.reverse.findSome? fun s => s.verdictUpward? path isDirectory).getD .kept := by
  unfold verdict
  induction sets using List.reverseRecOn with
  | nil => rfl
  | append_singleton sets s ih =>
    simp only [List.foldl_concat, List.reverse_concat, List.findSome?_cons, ih]
    cases s.verdictUpward? path isDirectory <;> rfl

/-- Of rules in the order of their directories, the last that say something are of the deepest
directory. -/
theorem exists_last {sets : List RuleSet} {f : RuleSet → Option Verdict} {said : Verdict}
    (hsorted : sets.Pairwise fun a b => depth a.directory ≤ depth b.directory)
    (h : sets.reverse.findSome? f = some said) : ∃ last ∈ sets, f last = some said ∧
      ∀ rules ∈ sets, f rules ≠ none → depth rules.directory ≤ depth last.directory := by
  obtain ⟨later, last, earlier, hsplit, hlast, hlater⟩ := List.findSome?_eq_some_iff.mp h
  refine ⟨last, List.mem_reverse.mp (by simp [hsplit]), hlast, ?_⟩
  intro rules hrules hsays
  have hpairwise := List.pairwise_reverse.mpr hsorted
  rw [← List.mem_reverse] at hrules
  rw [hsplit] at hrules hpairwise
  rcases List.mem_append.mp hrules with hin | hin
  · exact absurd (hlater rules hin) hsays
  · rcases List.mem_cons.mp hin with rfl | hin
    · exact le_rfl
    · exact (List.pairwise_cons.mp (List.pairwise_append.mp hpairwise).2.1).1 rules hin

/-! ## Which rules are read -/

section Loading

variable {d : Disk} {base names above : List String} {name : String}

/-- The rules of version control in a directory below a root. -/
def shared (d : Disk) (base above : List String) : RuleSet :=
  (DirectoryRules.read d (pathOf (above ++ base))).shared

/-- The rules of version control for a root only. -/
def excluded (d : Disk) (base : List String) : RuleSet :=
  (DirectoryRules.read d (pathOf base)).excluded

/-- The shared rules of a folder belong to this folder. -/
@[simp] theorem directory_shared (d : Disk) (base above : List String) :
    (shared d base above).directory = pathOf (above ++ base) := rfl

/-- The excluded rules belong to the root of the project. -/
@[simp] theorem directory_excluded (d : Disk) (base : List String) :
    (excluded d base).directory = pathOf base := rfl

/-- The parent of a path is the path less its last name. -/
theorem parent?_pathOf_cons (h : ProperNames (name :: names)) :
    parent? (pathOf (name :: names)) = some (pathOf names) := by
  have hreverse : (components (pathOf (name :: names))).reverse =
      .normal name :: (.root :: names.reverse.map Component.normal).reverse := by
    rw [components_pathOf h]
    simp
  unfold parent?
  rw [hreverse]
  dsimp only
  rw [List.reverse_reverse, ofComponents_root_map_normal, List.reverse_reverse]

/-- A path is one deeper than it has names. -/
theorem depth_pathOf (h : ProperNames names) : depth (pathOf names) = names.length + 1 := by
  unfold depth
  rw [components_pathOf h, List.length_cons, List.length_map, List.length_reverse]

/-- Something below a root is reached if nothing on the way to it is left out. -/
theorem reaches_pathOf_iff {noIgnore : Bool} {front : List String} (hbase : ProperNames base)
    (hfront : ProperNames front) :
    reaches d noIgnore (pathOf base) (front.reverse.map Component.normal) = true ↔
      ∀ part, part ≠ [] → part <:+ front →
        skips d noIgnore (pathOf (part ++ base)) (decide (part.length < front.length)) = false := by
  -- A part of the way down is written as the path of its names.
  have hpath : ∀ part, part ≠ [] → part <:+ front →
      join (pathOf base) (ofComponents (part.reverse.map Component.normal)) =
        pathOf (part ++ base) := by
    intro part hne hpart
    have hproper : ProperNames part.reverse := by
      intro name hname
      exact hfront name (hpart.subset (List.mem_reverse.mp hname))
    rw [ofComponents_map_normal, join_pathOf base hproper (by simpa using hne) hbase,
      List.reverse_reverse]
  unfold reaches
  rw [List.all_eq_true]
  constructor
  · intro h part hne hpart
    have hskips := h _ (mem_upward_names.mpr ⟨part, hne, hpart, rfl⟩)
    rw [hpath part hne hpart] at hskips
    simpa using hskips
  · intro h cs hcs
    obtain ⟨part, hne, hpart, rfl⟩ := mem_upward_names.mp hcs
    rw [hpath part hne hpart]
    simpa using h part hne hpart

/-- A directory below a root is reached. -/
def Reached (d : Disk) (base above : List String) : Prop :=
  ∀ part ∈ above.tails, part ≠ [] → skips d false (pathOf (part ++ base)) true = false

/-- The rules of version control in a directory below a root are read. -/
structure Loads (d : Disk) (base above : List String) : Prop where
  proper : ProperNames above
  file : ∃ entry, d.entryAt? (rulesName :: above ++ base) = some entry ∧ entry.isFile = true
  reached : Reached d base above
  kept : skips d false (pathOf (rulesName :: above ++ base)) false = false

/-- The name of the files with rules can stand in a path. -/
theorem properName_rulesName : ProperName rulesName := by decide +kernel

/-- A file with rules is reached exactly if its folder is and it is not skipped itself. -/
theorem reaches_rulesName_iff (hbase : ProperNames base) (habove : ProperNames above) :
    reaches d false (pathOf base) ((rulesName :: above).reverse.map Component.normal) = true ↔
      Reached d base above ∧ skips d false (pathOf (rulesName :: above ++ base)) false = false := by
  have hproper : ProperNames (rulesName :: above) :=
    List.forall_mem_cons.mpr ⟨properName_rulesName, habove⟩
  have hbelow : ∀ part, part <:+ above →
      decide (part.length < (rulesName :: above).length) = true := by
    intro part hpart
    have := hpart.length_le
    simp only [List.length_cons, decide_eq_true_eq]
    omega
  rw [reaches_pathOf_iff hbase hproper]
  constructor
  · intro h
    constructor
    · intro part hpart hne
      have hsuffix := (List.mem_tails _ _).mp hpart
      have hskips := h part hne (hsuffix.trans (List.suffix_cons _ _))
      rwa [hbelow part hsuffix] at hskips
    · have hskips := h _ (List.cons_ne_nil _ _) (List.suffix_refl _)
      simpa using hskips
  · rintro ⟨hreached, hkept⟩ part hne hpart
    rcases List.suffix_cons_iff.mp hpart with rfl | hsuffix
    · simpa using hkept
    · rw [hbelow part hsuffix]
      exact hreached part ((List.mem_tails _ _).mpr hsuffix) hne

/-- The files with rules are those of all folders that are loaded. -/
theorem mem_ruleFiles (hd : d.WellFormed) (hbase : ProperNames base)
    (hroot : d.entryAt? base = some .directory) {found : String × String} :
    found ∈ ruleFiles d (pathOf base) ↔ ∃ above, Loads d base above ∧
      found = (pathOf (above ++ base), pathOf (rulesName :: above ++ base)) := by
  unfold ruleFiles
  rw [List.mem_filterMap]
  constructor
  · rintro ⟨⟨cs, entry⟩, hmem, hsome⟩
    obtain ⟨-, -, rest, -, hrest, rfl, -⟩ :=
      exists_of_mem_filesBelow hd (isAbsolute_pathOf base) hmem
    obtain ⟨hentry, hfile, hreach⟩ := (mem_filesBelow_pathOf_iff hd hbase hrest).mp hmem
    obtain ⟨names, rfl⟩ : ∃ names : List String, rest = names.reverse :=
      ⟨rest.reverse, rest.reverse_reverse.symm⟩
    rw [List.reverse_reverse] at hentry
    dsimp only at hsome
    rw [pathBelow_pathOf hbase hrest, List.reverse_reverse] at hsome
    cases names with
    | nil =>
      -- the root itself is a directory
      rw [List.nil_append, hroot, Option.some_inj] at hentry
      subst hentry
      cases hfile
    | cons name above =>
      have hproper : ProperNames (name :: (above ++ base)) := by
        have := hrest.reverse
        rw [List.reverse_reverse] at this
        exact this.append hbase
      have habove : ProperNames above := fun n hn =>
        hproper n (List.mem_append_left base (List.mem_cons_of_mem name hn))
      rw [List.cons_append, lastName?_pathOf_cons hproper, parent?_pathOf_cons hproper] at hsome
      -- Only a file with the name of rule files counts.
      split at hsome
      next hname =>
        obtain rfl := Option.some_inj.mp hname
        cases hsome
        obtain ⟨hreached, hkept⟩ := (reaches_rulesName_iff hbase habove).mp hreach
        exact ⟨above, ⟨habove, ⟨entry, hentry, hfile⟩, hreached, hkept⟩, rfl⟩
      next => cases hsome
  · rintro ⟨above, ⟨habove, ⟨entry, hentry, hfile⟩, hreached, hkept⟩, rfl⟩
    have hnames : ProperNames (rulesName :: above) :=
      List.forall_mem_cons.mpr ⟨properName_rulesName, habove⟩
    have hproper : ProperNames (rulesName :: (above ++ base)) := hnames.append hbase
    refine ⟨((rulesName :: above).reverse.map Component.normal, entry), ?_, ?_⟩
    · refine (mem_filesBelow_pathOf_iff hd hbase hnames.reverse).mpr ⟨?_, hfile, ?_⟩
      · rw [List.reverse_reverse]
        exact hentry
      · exact (reaches_rulesName_iff hbase habove).mpr ⟨hreached, hkept⟩
    · dsimp only
      rw [pathBelow_pathOf hbase hnames.reverse, List.reverse_reverse, List.cons_append,
        lastName?_pathOf_cons hproper, parent?_pathOf_cons hproper, if_pos rfl]
      rfl

/-- The rules read from a folder are its shared rules. -/
theorem read_eq_shared (habove : ProperNames (above ++ base)) :
    RuleSet.read d (pathOf (above ++ base)) (pathOf (rulesName :: above ++ base)) =
      shared d base above := by
  have hrules : ProperNames [rulesName] := by decide +kernel
  have htext : "/".intercalate [rulesName] = rulesName := by decide +kernel
  have hjoin := join_pathOf (above ++ base) hrules (List.cons_ne_nil _ _) habove
  rw [htext, List.reverse_singleton, List.singleton_append] at hjoin
  rw [List.cons_append, ← hjoin]
  rfl

/-- The rules for the root only come first, and then those that are reached, by their depth. -/
theorem sets_load (hd : d.WellFormed) (hbase : ProperNames base)
    (hroot : d.entryAt? base = some .directory) : ∃ reached : List RuleSet,
      (load d (pathOf base) false).sets = excluded d base :: reached ∧
      (∀ rules, rules ∈ reached ↔ ∃ above, Loads d base above ∧ rules = shared d base above) ∧
      reached.Pairwise fun a b => depth a.directory ≤ depth b.directory := by
  let shallower : String × String → String × String → Bool :=
    fun a b => decide (depth a.1 ≤ depth b.1)
  let read : String × String → RuleSet := fun found => RuleSet.read d found.1 found.2
  have htrans : ∀ a b c, shallower a b = true → shallower b c = true → shallower a c = true := by
    intro a b c hab hbc
    exact decide_eq_true ((of_decide_eq_true hab).trans (of_decide_eq_true hbc))
  have htotal : ∀ a b, (shallower a b || shallower b a) = true := by
    intro a b
    rw [Bool.or_eq_true]
    exact (Nat.le_total (depth a.1) (depth b.1)).imp decide_eq_true decide_eq_true
  obtain ⟨front, back, hsorted, hback, hfront⟩ := List.mergeSort_cons htrans htotal
    (pathOf base, join (pathOf base) ".git/info/exclude") (ruleFiles d (pathOf base))
  -- nothing is less deep than the root
  have hnil : front = [] := by
    rw [List.eq_nil_iff_forall_not_mem]
    intro found hfound
    have hmem : found ∈ (ruleFiles d (pathOf base)).mergeSort shallower := by
      rw [hback]
      exact List.mem_append_left _ hfound
    obtain ⟨above, hloads, rfl⟩ := (mem_ruleFiles hd hbase hroot).mp (List.mem_mergeSort.mp hmem)
    have hdeeper := hfront _ hfound
    simp only [shallower, depth_pathOf hbase, depth_pathOf (hloads.proper.append hbase),
      List.length_append, Bool.not_eq_true', decide_eq_false_iff_not] at hdeeper
    omega
  subst hnil
  rw [List.nil_append] at hsorted hback
  refine ⟨((ruleFiles d (pathOf base)).mergeSort shallower).map read, ?_, ?_, ?_⟩
  · unfold load
    rw [if_neg Bool.false_ne_true, hback]
    dsimp only
    rw [hsorted]
    rfl
  · -- Every file found was read, and every file to load was found.
    intro rules
    rw [List.mem_map]
    constructor
    · rintro ⟨found, hfound, rfl⟩
      obtain ⟨above, hloads, rfl⟩ :=
        (mem_ruleFiles hd hbase hroot).mp (List.mem_mergeSort.mp hfound)
      exact ⟨above, hloads, read_eq_shared (hloads.proper.append hbase)⟩
    · rintro ⟨above, hloads, rfl⟩
      refine ⟨_, List.mem_mergeSort.mpr ((mem_ruleFiles hd hbase hroot).mpr ⟨above, hloads, rfl⟩), ?_⟩
      exact read_eq_shared (hloads.proper.append hbase)
  · refine List.pairwise_map.mpr ((List.pairwise_mergeSort htrans htotal _).imp ?_)
    intro a b hab
    exact of_decide_eq_true hab

end Loading

/-! ## Rules that both know of -/

section Agreement

variable {d : Disk} {base front part above : List String} {name : String} {noIgnore : Bool}

/-- The rules that count for something below a root are of version control, those for one place
only are of the root, and a file with rules is not itself left out. -/
structure Loadable (d : Disk) (base front : List String) : Prop where
  /-- There are none above the root. -/
  outside : ∀ above ∈ directories base, (DirectoryRules.read d (pathOf above)).general.rules = [] ∧
    (DirectoryRules.read d (pathOf above)).shared.rules = [] ∧
    (DirectoryRules.read d (pathOf above)).excluded.rules = []
  noGeneral : ∀ above ∈ directories front,
    (DirectoryRules.read d (pathOf (above ++ base))).general.rules = []
  noExcluded : ∀ above ∈ directories front, above ≠ [] →
    (DirectoryRules.read d (pathOf (above ++ base))).excluded.rules = []
  rulesKept : ∀ above ∈ directories front, (shared d base above).rules ≠ [] → Reached d base above →
    skips d false (pathOf (rulesName :: above ++ base)) false = false

/-- The rules that the watcher and a scan ask about a file below a root. -/
def rulesFor (d : Disk) (base front : List String) : List RuleSet :=
  excluded d base :: (directories front).map (shared d base)

/-- Some rules bring a file back below something that is left out: they keep the file or a
directory above it, but not what is left out. -/
def BroughtBack (d : Disk) (base front : List String) : Prop :=
  ∃ part ∈ front.tails, part ≠ [] ∧
    verdictOf d (pathOf (part ++ base)) (decide (part.length < front.length)) = some .ignored ∧
    ∃ rules ∈ rulesFor d base front,
      rules.verdictUpward? (pathOf (front ++ base)) false = some .kept ∧
      rules.verdict? (pathOf (part ++ base)) (decide (part.length < front.length)) ≠ some .kept

/-- A path further up has no folders that the path does not have. -/
theorem directories_subset (h : part <:+ front) : directories part ⊆ directories front := by
  intro above habove
  obtain ⟨name, hname⟩ := mem_directories.mp habove
  exact mem_directories.mpr ⟨name, hname.trans h⟩

/-- The base is among the folders of every path below it. -/
theorem nil_mem_directories (h : front ≠ []) : [] ∈ directories front := by
  obtain ⟨name, front, rfl⟩ := List.exists_cons_of_ne_nil h
  rw [directories_cons, List.mem_tails]
  exact List.nil_suffix

/-- If only one element of a list has an answer, it is the one found. -/
theorem findSome?_eq_of_forall_ne {α β : Type} [DecidableEq α] {l : List α} {f : α → Option β}
    {a : α} (ha : a ∈ l) (hother : ∀ b ∈ l, b ≠ a → f b = none) : l.findSome? f = f a := by
  induction l with
  | nil => cases ha
  | cons b l ih =>
    -- Up to the one with an answer nothing is found, and behind it at most the same.
    by_cases hb : b = a
    · subst hb
      rw [List.findSome?_cons]
      cases hfb : f b with
      | some v => rfl
      | none =>
        dsimp only
        rw [List.findSome?_eq_none_iff]
        intro c hc
        by_cases hcb : c = b
        · rw [hcb, hfb]
        · exact hother c (List.mem_cons_of_mem b hc) hcb
    · rw [List.findSome?_cons, hother b List.mem_cons_self hb]
      exact ih ((List.mem_cons.mp ha).resolve_left (Ne.symm hb))
        fun c hc => hother c (List.mem_cons_of_mem b hc)

/-- The verdict on a path is the first of the general, the shared and the excluded rules. -/
theorem verdictOf_pathOf {names : List String} (h : ProperNames names) (isDirectory : Bool) :
    verdictOf d (pathOf names) isDirectory =
      ((directories names).findSome? fun above =>
        (DirectoryRules.read d (pathOf above)).general.verdict? (pathOf names) isDirectory).or
      (((directories names).findSome? fun above =>
        (DirectoryRules.read d (pathOf above)).shared.verdict? (pathOf names) isDirectory).or
      ((directories names).findSome? fun above =>
        (DirectoryRules.read d (pathOf above)).excluded.verdict? (pathOf names) isDirectory)) := by
  unfold verdictOf
  rw [directoriesAbove_pathOf h]
  simp only [List.map_map, List.findSome?_map, Option.orElse_eq_or]
  rfl

/-- A scan asks the rules of version control, nearest first, and then those for the root only. -/
theorem Loadable.verdictOf_eq (h : Loadable d base front) (hproper : ProperNames (part ++ base))
    (hne : part ≠ []) (hpart : part <:+ front) (isDirectory : Bool) :
    verdictOf d (pathOf (part ++ base)) isDirectory =
      ((directories part).findSome? fun above =>
        (shared d base above).verdict? (pathOf (part ++ base)) isDirectory).or
      ((excluded d base).verdict? (pathOf (part ++ base)) isDirectory) := by
  have hsubset := directories_subset hpart
  rw [verdictOf_pathOf hproper, directories_append hne]
  simp only [List.findSome?_append, List.findSome?_map, Function.comp_def]
  -- Above the root of the project there are no rules of any kind.
  have houtside : ∀ choose : DirectoryRules → RuleSet,
      (∀ above ∈ directories base, (choose (.read d (pathOf above))).rules = []) →
      ((directories base).findSome? fun above => (choose (.read d (pathOf above))).verdict?
        (pathOf (part ++ base)) isDirectory) = none := by
    intro choose hrules
    rw [List.findSome?_eq_none_iff]
    intro above habove
    exact verdict?_of_rules_eq_nil (hrules above habove) _
  have hgeneral : ((directories part).findSome? fun above =>
      (DirectoryRules.read d (pathOf (above ++ base))).general.verdict? (pathOf (part ++ base))
        isDirectory) = none := by
    rw [List.findSome?_eq_none_iff]
    intro above habove
    exact verdict?_of_rules_eq_nil (h.noGeneral above (hsubset habove)) _
  let onlyHere : List String → Option Verdict := fun above =>
    (DirectoryRules.read d (pathOf (above ++ base))).excluded.verdict? (pathOf (part ++ base))
      isDirectory
  have hexcluded : (directories part).findSome? onlyHere = onlyHere [] := by
    refine findSome?_eq_of_forall_ne (nil_mem_directories hne) ?_
    intro above habove hdeeper
    exact verdict?_of_rules_eq_nil (h.noExcluded above (hsubset habove) hdeeper) _
  rw [houtside (·.general) fun above habove => (h.outside above habove).1,
    houtside (·.shared) fun above habove => (h.outside above habove).2.1,
    houtside (·.excluded) fun above habove => (h.outside above habove).2.2, hgeneral, hexcluded]
  simp only [Option.or_none, Option.none_or]
  rfl

/-- Rules that say something about what is on the way to a file say something about the file,
upwards from it. -/
theorem isSome_verdictUpward? {rules : RuleSet} {top : List String} {verdict : Verdict}
    (hdirectory : rules.directory = pathOf (top ++ base)) (hbase : ProperNames base)
    (hfront : ProperNames front) (hpart : part <:+ front) (htop : top <:+ part)
    (h : rules.verdict? (pathOf (part ++ base)) (decide (part.length < front.length)) =
      some verdict) :
    (rules.verdictUpward? (pathOf (front ++ base)) false).isSome = true := by
  obtain ⟨low, rfl⟩ := htop
  obtain ⟨lower, rfl⟩ := hpart
  have hproper : ProperNames ((lower ++ low) ++ (top ++ base)) := by
    have := hfront.append hbase
    simpa using this
  have hpath : lower ++ (low ++ top) ++ base = (lower ++ low) ++ (top ++ base) := by simp
  rw [hpath, verdictUpward?_pathOf hdirectory hproper, List.findSome?_isSome_iff]
  refine ⟨low, (List.mem_tails _ _).mpr (List.suffix_append lower low), ?_⟩
  -- A part is a folder on the way exactly if something is left of the way.
  have hflag : decide ((low ++ top).length < (lower ++ (low ++ top)).length) =
      (false || decide (low.length < (lower ++ low).length)) := by
    rw [Bool.false_or, decide_eq_decide]
    simp only [List.length_append]
    omega
  rw [← hflag, ← List.append_assoc, h]
  rfl

/-- Rules that can be read do not leave themselves out, nor a directory above them. -/
theorem Loadable.loads (h : Loadable d base front) (hd : d.WellFormed) (hbase : ProperNames base)
    (hfront : ProperNames front) (habove : above ∈ directories front)
    (hrules : (shared d base above).rules ≠ []) (hreached : Reached d base above) :
    Loads d base above := by
  obtain ⟨name, hname⟩ := mem_directories.mp habove
  have hproper : ProperNames above := fun n hn =>
    hfront n (hname.subset (List.mem_cons_of_mem name hn))
  refine ⟨hproper, ?_, hreached, h.rulesKept above habove hrules hreached⟩
  have hnames : ProperNames (rulesName :: above ++ base) := by
    have := hproper.append hbase
    exact List.forall_mem_cons.mpr ⟨properName_rulesName, this⟩
  rw [← read_eq_shared (hproper.append hbase)] at hrules
  unfold RuleSet.read at hrules
  cases hread : d.read (pathOf (rulesName :: above ++ base)) with
  | error fault =>
    rw [hread] at hrules
    exact absurd rfl hrules
  | ok content => exact ⟨_, (hd.read_pathOf_iff hnames).mp hread, rfl⟩

/-- A folder that is loaded is there. -/
theorem Loads.entryAt? (h : Loads d base above) (hd : d.WellFormed) (hbase : ProperNames base) :
    d.entryAt? (above ++ base) = some .directory := by
  obtain ⟨found, hfound, -⟩ := h.file
  have hnames : ProperNames (rulesName :: (above ++ base)) :=
    List.forall_mem_cons.mpr ⟨properName_rulesName, h.proper.append hbase⟩
  exact hd.entryAt?_tail hnames hfound

/-- Rules that say something about a file stand in a directory above it. -/
theorem Loads.mem_directories (h : Loads d base above) (hd : d.WellFormed)
    (hbase : ProperNames base) (hfront : ProperNames front) {entry : DiskEntry}
    (hentry : d.entryAt? (front ++ base) = some entry) (hfile : entry.isFile = true)
    {said : Verdict}
    (hupward : (shared d base above).verdictUpward? (pathOf (front ++ base)) false = some said) :
    above ∈ directories front := by
  have hsuffix := suffix_of_verdictUpward? (directory_shared d base above)
    (h.proper.append hbase) (hfront.append hbase) hupward
  refine mem_directories_iff.mpr ⟨suffix_of_append hsuffix, ?_⟩
  intro heq
  have hdirectory := h.entryAt? hd hbase
  rw [heq, hentry, Option.some_inj] at hdirectory
  subst hdirectory
  cases hfile

/-- The watcher does not come to rules in a directory that is left out. -/
theorem Loads.mem_directories_of_ignored (h : Loads d base above) (hbase : ProperNames base)
    (hproper : ProperNames (part ++ base)) (hne : part ≠ []) (habove : above ∈ directories front)
    (hignored : verdictOf d (pathOf (part ++ base)) (decide (part.length < front.length)) =
      some .ignored) {isDirectory : Bool} {said : Verdict}
    (hsaid : (shared d base above).verdict? (pathOf (part ++ base)) isDirectory = some said) :
    above ∈ directories part := by
  have hsuffix := suffix_of_verdict? (directory_shared d base above) (h.proper.append hbase)
    hproper hsaid
  refine mem_directories_iff.mpr ⟨suffix_of_append hsuffix, ?_⟩
  -- Rules inside an ignored folder are not loaded, so they are not those that spoke.
  intro heq
  rw [heq] at habove h
  have hshorter : decide (part.length < front.length) = true := by
    obtain ⟨lower, hlower⟩ := Ignore.mem_directories.mp habove
    have := hlower.length_le
    rw [List.length_cons] at this
    exact decide_eq_true (by omega)
  have hskips := h.reached part ((List.mem_tails _ _).mpr (List.suffix_refl _)) hne
  rw [hshorter] at hignored
  unfold skips at hskips
  rw [hignored] at hskips
  simp at hskips

/-- Rules that say something about what a scan comes to are read by the watcher. -/
theorem Loadable.loads_of_verdict? (h : Loadable d base front) (hd : d.WellFormed)
    (hbase : ProperNames base) (hfront : ProperNames front) (hpart : name :: part <:+ front)
    (hreached : Reached d base part) (habove : above ∈ directories (name :: part))
    {path : String} {isDirectory : Bool} {said : Verdict}
    (hsaid : (shared d base above).verdict? path isDirectory = some said) :
    Loads d base above := by
  have hrules : (shared d base above).rules ≠ [] := by
    intro hnil
    rw [verdict?_of_rules_eq_nil hnil] at hsaid
    cases hsaid
  refine h.loads hd hbase hfront (directories_subset hpart habove) hrules ?_
  rw [directories_cons, List.mem_tails] at habove
  intro p hp
  exact hreached p ((List.mem_tails _ _).mpr (((List.mem_tails _ _).mp hp).trans habove))

/-- Rules that keep a file and do not bring it back keep what is left out on the way to it. -/
theorem kept_of_not_broughtBack (hnot : ¬ BroughtBack d base front) (hne : part ≠ [])
    (hpart : part <:+ front)
    (hignored : verdictOf d (pathOf (part ++ base)) (decide (part.length < front.length)) =
      some .ignored) {rules : RuleSet} (hrules : rules ∈ rulesFor d base front)
    (hupward : rules.verdictUpward? (pathOf (front ++ base)) false = some .kept) :
    rules.verdict? (pathOf (part ++ base)) (decide (part.length < front.length)) = some .kept := by
  by_contra hother
  exact hnot ⟨part, (List.mem_tails _ _).mpr hpart, hne, hignored, rules, hrules, hupward, hother⟩

/-- So rules of a folder that do stand above what is left out. -/
theorem Loads.kept_of_upward (h : Loads d base above) (hd : d.WellFormed)
    (hbase : ProperNames base) (hfront : ProperNames front) {entry : DiskEntry}
    (hentry : d.entryAt? (front ++ base) = some entry) (hfile : entry.isFile = true)
    (hnot : ¬ BroughtBack d base front) (hne : part ≠ []) (hpart : part <:+ front)
    (hignored : verdictOf d (pathOf (part ++ base)) (decide (part.length < front.length)) =
      some .ignored)
    (hupward : (shared d base above).verdictUpward? (pathOf (front ++ base)) false = some .kept) :
    above ∈ directories part ∧ (shared d base above).verdict? (pathOf (part ++ base))
      (decide (part.length < front.length)) = some .kept := by
  have habove := h.mem_directories hd hbase hfront hentry hfile hupward
  have hkept := kept_of_not_broughtBack hnot hne hpart hignored
    (List.mem_cons_of_mem _ (List.mem_map_of_mem habove)) hupward
  have hproper : ProperNames (part ++ base) :=
    ProperNames.append (fun n hn => hfront n (hpart.subset hn)) hbase
  exact ⟨h.mem_directories_of_ignored hbase hproper hne habove hignored hkept, hkept⟩

/-- If all rules together keep a file, and none of them brings it back, then nothing on the way to
it is left out. -/
theorem Loadable.not_ignored (h : Loadable d base front) (hd : d.WellFormed)
    (hbase : ProperNames base) (hfront : ProperNames front) {entry : DiskEntry}
    (hentry : d.entryAt? (front ++ base) = some entry) (hfile : entry.isFile = true)
    (hnot : ¬ BroughtBack d base front)
    (hverdict : verdict (load d (pathOf base) false).sets (pathOf (front ++ base)) false = .kept)
    (hpart : name :: part <:+ front) (hreached : Reached d base part) :
    verdictOf d (pathOf (name :: part ++ base))
      (decide ((name :: part).length < front.length)) ≠ some .ignored := by
  intro hignored
  have hne : front ≠ [] := by
    rintro rfl
    simp at hpart
  have hroot : d.entryAt? base = some .directory :=
    hd.entryAt?_above (hfront.append hbase) hne hentry
  have hproper : ProperNames (name :: part ++ base) :=
    ProperNames.append (fun n hn => hfront n (hpart.subset hn)) hbase
  have hne' : name :: part ≠ [] := List.cons_ne_nil name part
  obtain ⟨reached, hsets, hmem, hsorted⟩ := sets_load hd hbase hroot
  have hsaid := hignored
  rw [h.verdictOf_eq hproper hne' hpart] at hsaid
  rw [hsets, verdict_eq, List.reverse_cons, List.findSome?_append, List.findSome?_singleton]
    at hverdict
  cases hnearest : (directories (name :: part)).findSome? fun above =>
      (shared d base above).verdict? (pathOf (name :: part ++ base))
        (decide ((name :: part).length < front.length)) with
  | none =>
    -- the rules for the root only leave it out, and what overturns them keeps it
    rw [hnearest, Option.none_or] at hsaid
    cases hlast : reached.reverse.findSome? fun rules =>
        rules.verdictUpward? (pathOf (front ++ base)) false with
    | none =>
      rw [hlast, Option.none_or] at hverdict
      have hsome := isSome_verdictUpward? (directory_excluded d base) hbase hfront hpart
        List.nil_suffix hsaid
      obtain ⟨said, hupward⟩ := Option.isSome_iff_exists.mp hsome
      rw [hupward, Option.getD_some] at hverdict
      subst hverdict
      have hkept := kept_of_not_broughtBack hnot hne' hpart hignored List.mem_cons_self hupward
      rw [hsaid] at hkept
      cases hkept
    | some said =>
      rw [hlast, Option.some_or, Option.getD_some] at hverdict
      subst hverdict
      obtain ⟨rules, hrules, hupward, -⟩ := exists_last hsorted hlast
      obtain ⟨above, hother, rfl⟩ := (hmem rules).mp hrules
      obtain ⟨habove, hkept⟩ :=
        hother.kept_of_upward hd hbase hfront hentry hfile hnot hne' hpart hignored hupward
      rw [List.findSome?_eq_none_iff.mp hnearest above habove] at hkept
      cases hkept
  | some said =>
    -- the nearest rules that say something about it are read, so that those that overturn them
    -- would be nearer
    rw [hnearest, Option.some_or, Option.some_inj] at hsaid
    subst hsaid
    obtain ⟨top, hmemTop, htop, hnear⟩ := exists_nearest hnearest
    have hloads := h.loads_of_verdict? hd hbase hfront hpart hreached hmemTop htop
    have hread : shared d base top ∈ reached := (hmem _).mpr ⟨top, hloads, rfl⟩
    have hsays := isSome_verdictUpward? (directory_shared d base top) hbase hfront hpart
      (mem_directories_iff.mp hmemTop).1 htop
    obtain ⟨said, hlast⟩ : ∃ said, (reached.reverse.findSome? fun rules =>
        rules.verdictUpward? (pathOf (front ++ base)) false) = some said :=
      Option.isSome_iff_exists.mp
        (List.findSome?_isSome_iff.mpr ⟨_, List.mem_reverse.mpr hread, hsays⟩)
    rw [hlast, Option.some_or, Option.getD_some] at hverdict
    subst hverdict
    obtain ⟨rules, hrules, hupward, hdeepest⟩ := exists_last hsorted hlast
    obtain ⟨above, hother, rfl⟩ := (hmem rules).mp hrules
    obtain ⟨habove, hkept⟩ :=
      hother.kept_of_upward hd hbase hfront hentry hfile hnot hne' hpart hignored hupward
    have hdepth := hdeepest _ hread (Option.isSome_iff_ne_none.mp hsays)
    have heq : above = top := by
      refine hnear above habove (by rw [hkept]; exact Option.some_ne_none _) ?_
      simp only [directory_shared, depth_pathOf (hother.proper.append hbase),
        depth_pathOf (hloads.proper.append hbase), List.length_append] at hdepth
      omega
    rw [heq, htop] at hkept
    cases hkept

end Agreement

/-! ## Changes that count -/

section Passes

variable {d : Disk} {base front : List String} {noIgnore : Bool}

/-- The file name of a path is its last name. -/
theorem fileName_pathOf_cons {name : String} {names : List String}
    (h : ProperNames (name :: names)) : fileName (pathOf (name :: names)) = name := by
  have hsegments : segments (pathOf (name :: names)) = "" :: (name :: names).reverse := by
    rw [pathOf, segments_slash_append, segments_intercalate]
    · intro s hs
      exact (h s (List.mem_reverse.mp hs)).2.2.2
    · simp
  unfold fileName
  rw [hsegments, List.reverse_cons, ← List.cons_append, List.getLast?_concat, Option.getD_some]

/-- What it means that a change of a file counts. -/
theorem passes_file_iff (hd : d.WellFormed) (hbase : ProperNames base)
    (hfront : ProperNames front) {entry : DiskEntry}
    (hentry : d.entryAt? (front ++ base) = some entry) (hfile : entry.isFile = true) :
    (load d (pathOf base) noIgnore).passes d (pathOf (front ++ base)) = true ↔
      isSource (pathOf (front ++ base)) = true ∧ (∀ name ∈ front, name ∉ internalNames) ∧
        (noIgnore = false →
          verdict (load d (pathOf base) false).sets (pathOf (front ++ base)) false = .kept) := by
  have hproper := hfront.append hbase
  have hdirectory : d.isDirectory (pathOf (front ++ base)) = false := by
    unfold Disk.isDirectory
    rw [(hd.find_pathOf_iff hproper).mpr ⟨rfl, hentry⟩]
    simp [hfile]
  have hroot : (load d (pathOf base) noIgnore).root = pathOf base := by
    unfold load
    split <;> rfl
  have henabled : (load d (pathOf base) noIgnore).enabled = !noIgnore := by
    cases noIgnore <;> rfl
  unfold passes ignores
  rw [hroot, below?_pathOf_append hproper, hdirectory, henabled]
  have hkept : ∀ v : Verdict, (v == .ignored) = false ↔ v = .kept := by
    intro v
    cases v <;> decide
  cases noIgnore with
  | true => simp [Component.text]
  | false => simp [Component.text, hkept]

/-- A scan comes to a file that counts. -/
theorem reaches_of_passes (hd : d.WellFormed) (hbase : ProperNames base)
    (hfront : ProperNames front) {entry : DiskEntry}
    (hentry : d.entryAt? (front ++ base) = some entry) (hfile : entry.isFile = true)
    (hrules : noIgnore = false → Loadable d base front ∧ ¬ BroughtBack d base front)
    (hpasses : (load d (pathOf base) noIgnore).passes d (pathOf (front ++ base)) = true) :
    reaches d noIgnore (pathOf base) (front.reverse.map Component.normal) = true := by
  obtain ⟨-, hnames, hverdict⟩ := (passes_file_iff hd hbase hfront hentry hfile).mp hpasses
  -- On the names from the root down: what is above has been reached, so its rules have been read.
  have hway : ∀ part, part <:+ front → ∀ p, p ≠ [] → p <:+ part →
      skips d noIgnore (pathOf (p ++ base)) (decide (p.length < front.length)) = false := by
    intro part
    induction part with
    | nil =>
      intro _ p hne hp
      exact absurd (List.suffix_nil.mp hp) hne
    | cons name part ih =>
      intro hpart p hne hp
      have hbelow := ih ((List.suffix_cons name part).trans hpart)
      rcases List.suffix_cons_iff.mp hp with rfl | hp
      · have hproper : ProperNames (name :: (part ++ base)) := by
          intro n hn
          rcases List.mem_append.mp (List.cons_append ▸ hn : n ∈ (name :: part) ++ base) with hn | hn
          · exact hfront n (hpart.subset hn)
          · exact hbase n hn
        have hinternal : internalNames.contains (fileName (pathOf (name :: part ++ base))) = false := by
          rw [List.cons_append, fileName_pathOf_cons hproper]
          simpa using hnames name (hpart.subset List.mem_cons_self)
        unfold skips
        rw [hinternal, Bool.false_or]
        cases noIgnore with
        | true => rfl
        | false =>
          obtain ⟨hloadable, hnot⟩ := hrules rfl
          have hreached : Reached d base part := by
            intro q hq hqne
            have hsuffix := (List.mem_tails _ _).mp hq
            have hshorter : decide (q.length < front.length) = true := by
              have := hsuffix.length_le
              have := hpart.length_le
              rw [List.length_cons] at this
              exact decide_eq_true (by omega)
            rw [← hshorter]
            exact hbelow q hqne hsuffix
          have hkept := hloadable.not_ignored hd hbase hfront hentry hfile hnot (hverdict rfl) hpart
            hreached
          simpa using hkept
      · exact hbelow p hne hp
  rw [reaches_pathOf_iff hbase hfront]
  exact fun part hne hpart => hway front (List.suffix_refl _) part hne hpart

/-- What a look at the path of a file of the project finds. -/
theorem eq_of_scanPath_eq_some (hd : d.WellFormed) (hbase : ProperNames base)
    (hfront : ProperNames front) {content : ByteArray}
    (hentry : d.entryAt? (front ++ base) = some (.file content)) {libraries : List String}
    {f : ScannedFile}
    (h : scanPath d (pathOf base) libraries (pathOf (front ++ base)) = .ok (some f))
    (horigin : f.origin = .project) :
    f = fileBelow (pathOf base) .project (front.reverse.map Component.normal) content := by
  have hfind := (hd.find_pathOf_iff (hfront.append hbase)).mpr ⟨rfl, hentry⟩
  have hpath : pathBelow (pathOf base) (front.reverse.map Component.normal) =
      pathOf (front ++ base) := by
    rw [pathBelow_pathOf hbase hfront.reverse, List.reverse_reverse]
  have hbelow := below?_pathOf_append (hfront.append hbase)
  unfold scanPath at h
  rw [hfind] at h
  cases hlocate : locate (pathOf base) libraries (pathOf (front ++ base)) with
  | none =>
    rw [hlocate] at h
    cases h
  | some place =>
    obtain ⟨stored, origin⟩ := place
    rw [hlocate] at h
    dsimp only at h
    split at h
    next =>
      cases h
      obtain rfl : origin = .project := horigin
      -- the place is none of a library
      unfold locate relative at hlocate
      rw [hbelow] at hlocate
      split at hlocate
      next => cases hlocate
      next =>
        cases hlocate
        unfold fileBelow
        rw [hpath]
        rfl
    next => cases h

/-- A changed file that counts is one of those that a scan finds, and what a look at its path finds
is the same, if the rules on its way are of those that the watcher reads and none of them brings it
back below something that is left out. -/
theorem scanned_of_passes (hd : d.WellFormed) (hbase : ProperNames base)
    (hfront : ProperNames front) {content : ByteArray}
    (hentry : d.entryAt? (front ++ base) = some (.file content))
    (hrules : noIgnore = false → Loadable d base front ∧ ¬ BroughtBack d base front)
    (hpasses : (load d (pathOf base) noIgnore).passes d (pathOf (front ++ base)) = true)
    {files : List ScannedFile} (hscan : scan d noIgnore (pathOf base) .project = .ok files) :
    ∃ f ∈ files, f.path = pathOf (front ++ base) ∧ f.content = content ∧
      ∀ libraries g, scanPath d (pathOf base) libraries (pathOf (front ++ base)) = .ok (some g) →
        g.origin = .project → g = f := by
  have hreach := reaches_of_passes hd hbase hfront hentry rfl hrules hpasses
  obtain ⟨hsource, -, -⟩ := (passes_file_iff hd hbase hfront hentry rfl).mp hpasses
  have hpath : pathBelow (pathOf base) (front.reverse.map Component.normal) =
      pathOf (front ++ base) := by
    rw [pathBelow_pathOf hbase hfront.reverse, List.reverse_reverse]
  have hbelow : (front.reverse.map Component.normal, .file content) ∈
      filesBelow d noIgnore (pathOf base) := by
    refine (mem_filesBelow_pathOf_iff hd hbase hfront.reverse).mpr ⟨?_, rfl, hreach⟩
    rw [List.reverse_reverse]
    exact hentry
  refine ⟨fileBelow (pathOf base) .project (front.reverse.map Component.normal) content, ?_, hpath,
    rfl, ?_⟩
  · exact (mem_scan_iff hscan).mpr ⟨_, content, hbelow, by rw [hpath]; exact hsource, rfl⟩
  · intro libraries g hg horigin
    exact eq_of_scanPath_eq_some hd hbase hfront hentry hg horigin

/-- Rules that are come to by their depth are read in this order. -/
theorem load_eq_of_pairwise {root : String}
    (h : ((root, join root ".git/info/exclude") :: ruleFiles d root).Pairwise fun a b =>
      decide (depth a.1 ≤ depth b.1) = true) :
    load d root false =
      { root
        enabled := true
        sets := ((root, join root ".git/info/exclude") :: ruleFiles d root).map fun found =>
          .read d found.1 found.2 } := by
  unfold load
  rw [if_neg Bool.false_ne_true]
  dsimp only
  rw [List.mergeSort_of_pairwise h]

/-- A project with one file of rules and one source file. -/
def oneRuleFile (directories : List String) (rulesFile rules source : String) : Disk where
  entries := directories.map (·, .directory) ++
    [(rulesFile, .file rules.toUTF8), (source, .file "class A \x7b\x7d".toUTF8)]

/-- All source files are left out but for one. -/
def oneKept : Disk := oneRuleFile ["/p"] "/p/.gitignore" "*.java\n!A.java\n" "/p/A.java"

/-- A file that the rules keep is in the scan, and looked at alone it is the same. -/
theorem scanned_oneKept :
    (load oneKept (pathOf ["p"]) false).passes oneKept (pathOf (["A.java"] ++ ["p"])) = true ∧
      ∃ files, scan oneKept false (pathOf ["p"]) .project = .ok files ∧
        ∃ f ∈ files, f.path = pathOf (["A.java"] ++ ["p"]) ∧
          f.content = "class A \x7b\x7d".toUTF8 ∧
          ∀ libraries g, scanPath oneKept (pathOf ["p"]) libraries
            (pathOf (["A.java"] ++ ["p"])) = .ok (some g) → g.origin = .project → g = f := by
  have hrules : ruleFiles oneKept (pathOf ["p"]) = [("/p", "/p/.gitignore")] ∧
      scan oneKept false (pathOf ["p"]) .project =
        .ok [⟨"A.java", "/p/A.java", "class A \x7b\x7d".toUTF8, .project⟩] := by
    decide +kernel
  have hpasses : (load oneKept (pathOf ["p"]) false).passes oneKept
      (pathOf (["A.java"] ++ ["p"])) = true := by
    rw [load_eq_of_pairwise (by rw [hrules.1]; decide +kernel), hrules.1]
    decide +kernel
  have hloadable : Loadable oneKept ["p"] ["A.java"] :=
    ⟨by decide +kernel, by decide +kernel, by decide +kernel, by unfold Reached; decide +kernel⟩
  have hnot : ¬ BroughtBack oneKept ["p"] ["A.java"] := by
    unfold BroughtBack
    decide +kernel
  exact ⟨hpasses, _, hrules.2, scanned_of_passes (by decide +kernel) (by decide +kernel)
    (by decide +kernel) (by decide +kernel) (fun _ => ⟨hloadable, hnot⟩) hpasses hrules.2⟩

/-- Disks on which the watcher does not ask the rules that a scan from the top asks, with the files
of those that it reads: the rules are for all tools; they are for a deeper place only; they leave
out the file that they stand in; they keep a file in a directory that they leave out. -/
def differing : List (Disk × List (String × String)) :=
  [(oneRuleFile ["/p"] "/.ignore" "p/\n" "/p/A.java", []),
    (oneRuleFile ["/p", "/p/.git", "/p/.git/info"] "/p/.git/info/exclude" "*.java\n" "/p/A.java",
      []),
    (oneRuleFile ["/p"] "/p/.gitignore" "*\n" "/p/A.java", []),
    (oneRuleFile ["/p"] "/.gitignore" "p/\n!A.java\n" "/p/A.java", [("/", "/.gitignore")])]

/-- There a changed source file counts that a scan leaves out. -/
theorem passes_of_differing : differing.Forall fun x => x.1.WellFormed ∧
    x.1.entryAt? ["A.java", "p"] = some (.file "class A \x7b\x7d".toUTF8) ∧
    (load x.1 "/" false).passes x.1 "/p/A.java" = true ∧
      scan x.1 false "/" .project = .ok [] := by
  have hsorted : ∀ x ∈ differing, (("/", join "/" ".git/info/exclude") :: x.2).Pairwise
      fun a b => decide (depth a.1 ≤ depth b.1) = true := by decide +kernel
  -- Everything is run but the sorting, which the kernel does not get through.
  have hall : ∀ x ∈ differing, x.1.WellFormed ∧
      x.1.entryAt? ["A.java", "p"] = some (.file "class A \x7b\x7d".toUTF8) ∧
      ruleFiles x.1 "/" = x.2 ∧ scan x.1 false "/" .project = .ok [] ∧
      passes ⟨"/", true, (("/", join "/" ".git/info/exclude") :: x.2).map
        fun found => .read x.1 found.1 found.2⟩ x.1 "/p/A.java" = true := by decide +kernel
  refine List.forall_iff_forall_mem.mpr fun x hx => ?_
  obtain ⟨hd, hentry, hrules, hscan, hpasses⟩ := hall x hx
  have hload := load_eq_of_pairwise (hrules ▸ hsorted x hx)
  rw [hrules] at hload
  rw [hload]
  exact ⟨hd, hentry, hpasses, hscan⟩

end Passes

end JavaAtlas.Watch.Filter
