import JavaAtlas.Proofs.ClassFile.Reading
import JavaAtlas.Proofs.Outcome

namespace JavaAtlas.ClassFile

/-! # Class files that are cut off or continued

A reader is frugal if, whenever it succeeds, it has looked at no bytes but those that it took, and
asks for all of them before it judges what it read. Then every cut through these bytes is noticed as
such and never taken for another fault, and what follows them does not matter.

Attributes are read from bytes that have been taken as a whole, so nothing is asked of the readers
of what stands in them.

* `Frugal.bind`: frugal steps one after the other are frugal;
* `frugal_pool`, `frugal_memberParts`, `frugal_classFile`: the parts of a class and the class;
* `parse_cut_or_continued`: the same said of the bytes of a class.
-/

/-- A reader takes exactly these bytes, and if it finds only the first of them it says that bytes
are missing. -/
structure Needs {α : Type} (read : Reader α) (bs : List UInt8) (a : α) : Prop where
  reads : Reads read bs a
  cut : ∀ k < bs.length, read (bs.take k) = .error .unexpectedEof

/-- Whenever a reader succeeds it needs what it took off. -/
def Frugal {α : Type} (read : Reader α) : Prop :=
  ∀ ⦃input : List UInt8⦄ ⦃a : α⦄ ⦃rest : List UInt8⦄, read input = .ok (a, rest) →
    ∃ bs, input = bs ++ rest ∧ Needs read bs a

/-! ## Steps -/

section Steps

variable {α β : Type} {read : Reader α} {bs cs : List UInt8} {a : α} {b : β}

/-- What takes no bytes cannot be cut. -/
theorem Needs.pure (a : α) : Needs (pure a) [] a where
  reads := Reads.pure a
  cut := by
    intro k hk
    exact absurd hk (Nat.not_lt_zero k)

/-- Two steps need the bytes of both. -/
theorem Needs.bind {next : α → Reader β} (h : Needs read bs a) (hnext : Needs (next a) cs b) :
    Needs (read >>= next) (bs ++ cs) b where
  reads := h.reads.bind hnext.reads
  cut := by
    intro k hk
    have hbind : ∀ input, (read >>= next) input = read input >>= fun p => next p.1 p.2 :=
      fun _ => rfl
    rw [hbind]
    -- the cut goes through the bytes of the first step or through those of the second
    by_cases hfirst : k < bs.length
    · rw [List.take_append_of_le_length (Nat.le_of_lt hfirst), h.cut k hfirst]
      rfl
    · have hsecond : k - bs.length < cs.length := by
        rw [List.length_append] at hk
        omega
      rw [List.take_append, List.take_of_length_le (Nat.le_of_not_lt hfirst), h.reads]
      exact hnext.cut _ hsecond

/-- A reader that reads nothing is frugal. -/
theorem Frugal.pure (a : α) : Frugal (pure a : Reader α) := by
  rintro input _ rest ⟨⟩
  exact ⟨[], rfl, .pure a⟩

/-- Frugal steps one after the other are frugal. -/
theorem Frugal.bind {next : α → Reader β} (h : Frugal read) (hnext : ∀ a, Frugal (next a)) :
    Frugal (read >>= next) := by
  intro input b rest hread
  have hbind : (read >>= next) input = read input >>= fun p => next p.1 p.2 := rfl
  rw [hbind, bind_eq_ok_iff] at hread
  -- the second step starts where the first one stopped
  obtain ⟨⟨a, middle⟩, hfirst, hsecond⟩ := hread
  obtain ⟨bs, rfl, hbs⟩ := h hfirst
  obtain ⟨cs, rfl, hcs⟩ := hnext a hsecond
  exact ⟨bs ++ cs, (List.append_assoc bs cs rest).symm, hbs.bind hcs⟩

/-- What is made of a value afterwards needs no bytes. -/
theorem Frugal.map (f : α → β) (h : Frugal read) : Frugal (f <$> read) := by
  rw [← bind_pure_comp]
  exact h.bind fun a => .pure (f a)

/-- A reader that never succeeds is frugal. -/
theorem frugal_fail (e : ClassError) : Frugal (fail e : Reader α) := by
  intro input a rest hread
  cases hread

/-- A check takes no bytes. -/
theorem frugal_require (x : Except ClassError α) : Frugal (require x) := by
  cases x with
  | ok a => exact .pure a
  | error e => exact frugal_fail e

/-- So many bytes as are asked for stand at the front. -/
theorem takeBytes?_eq_some {count : Nat} {input taken rest : List UInt8}
    (h : takeBytes? count input = some (taken, rest)) :
    input = taken ++ rest ∧ taken.length = count := by
  induction count generalizing input taken with
  | zero =>
    cases h
    exact ⟨rfl, rfl⟩
  | succ count ih =>
    -- one byte is taken, and the rest by induction
    cases input with
    | nil => cases h
    | cons b input =>
      obtain ⟨⟨more, left⟩, hmore, heq⟩ := Option.map_eq_some_iff.mp h
      cases heq
      obtain ⟨rfl, rfl⟩ := ih hmore
      exact ⟨rfl, rfl⟩

/-- More bytes than there are cannot be taken. -/
theorem takeBytes?_of_length_lt {count : Nat} {input : List UInt8} (h : input.length < count) :
    takeBytes? count input = none := by
  induction count generalizing input with
  | zero => exact absurd h (Nat.not_lt_zero _)
  | succ count ih =>
    cases input with
    | nil => rfl
    | cons b input =>
      rw [takeBytes?, ih (Nat.lt_of_succ_lt_succ h)]
      rfl

/-- Bytes are all asked for at once, so that it is seen when some are missing. -/
theorem frugal_bytes (count : Nat) : Frugal (bytes count) := by
  intro input taken rest hread
  have htake : takeBytes? count input = some (taken, rest) := by
    unfold bytes at hread
    split at hread
    · rename_i r hr
      cases hread
      exact hr
    · cases hread
  obtain ⟨rfl, rfl⟩ := takeBytes?_eq_some htake
  refine ⟨taken, rfl, reads_bytes taken, ?_⟩
  -- cut short, there are fewer bytes than are asked for
  intro k hk
  have hshort : (taken.take k).length < taken.length := by
    rw [List.length_take]
    omega
  unfold bytes
  rw [takeBytes?_of_length_lt hshort]

/-- A number is judged when all its bytes are there. -/
theorem frugal_number (count : Nat) : Frugal (number count) :=
  (frugal_bytes count).bind fun _ => .pure _

theorem frugal_u1 : Frugal u1 := frugal_number 1

theorem frugal_u2 : Frugal u2 := frugal_number 2

theorem frugal_u4 : Frugal u4 := frugal_number 4

/-- Bytes that are passed over have to be there. -/
theorem frugal_skip (count : Nat) : Frugal (skip count) :=
  (frugal_bytes count).bind fun _ => .pure ()

/-- A frugal reader may be repeated. -/
theorem Frugal.times (h : Frugal read) (count : Nat) : Frugal (times read count) := by
  induction count with
  | zero => exact .pure []
  | succ count ih => exact h.bind fun _ => ih.bind fun _ => .pure _

/-- The count comes before what it counts. -/
theorem Frugal.counted (h : Frugal read) : Frugal (counted read) :=
  frugal_u2.bind fun count => h.times count

/-- Reading other bytes takes none, so any reader will do for them. -/
theorem frugal_within (body : List UInt8) (read : Reader α) : Frugal (within body read) := by
  intro input a rest hread
  unfold within at hread
  split at hread
  · rename_i value left hbody
    cases hread
    exact ⟨[], rfl, reads_within hbody, fun k hk => absurd hk (Nat.not_lt_zero k)⟩
  · cases hread

end Steps

/-! ## The constant pool -/

/-- A text is judged when all its bytes are there. -/
theorem frugal_utf8Text : Frugal utf8Text := by
  refine frugal_u2.bind fun count => (frugal_bytes count).bind fun body => ?_
  split
  · exact .pure _
  · exact frugal_fail _

/-- Each constant asks for the bytes that its tag announces. -/
theorem frugal_constant : Frugal constant := by
  refine frugal_u1.bind fun tag => ?_
  split
  · exact frugal_utf8Text.bind fun _ => .pure _
  · exact frugal_u2.bind fun _ => .pure _
  -- of all other constants that are known, so many bytes are passed over
  all_goals first
    | exact (frugal_skip _).bind fun _ => .pure _
    | exact frugal_fail _

/-- Constants are read one after the other, until all numbers are taken. -/
theorem frugal_constants (count fuel : Nat) (found : Array Constant) :
    Frugal (constants count fuel found) := by
  induction fuel generalizing found with
  | zero => exact .pure found
  | succ fuel ih =>
    unfold constants
    split
    · exact frugal_constant.bind fun more => ih _
    · exact .pure found

theorem frugal_pool : Frugal pool :=
  frugal_u2.bind fun count => (frugal_constants count count _).bind fun _ => .pure _

/-! ## Members -/

section Members

variable (p : Pool)

/-- The bytes of an attribute are asked for before any of them is looked at. -/
theorem frugal_namedBody : Frugal (namedBody p) :=
  frugal_u2.bind fun _ => (frugal_require _).bind fun _ =>
    frugal_u4.bind fun length => (frugal_bytes length).bind fun _ => .pure _

/-- What is read in an attribute takes nothing more from the input. -/
theorem frugal_memberAttributes (count : Nat) (m : MemberAttributes) :
    Frugal (memberAttributes p count m) := by
  induction count generalizing m with
  | zero => exact .pure m
  | succ count ih =>
    exact (frugal_namedBody p).bind fun _ => (frugal_within _ _).bind fun m => ih m

/-- The parts of a member stand one after the other. -/
theorem frugal_memberParts : Frugal (memberParts p) := by
  refine frugal_u2.bind fun _ => ?_
  refine frugal_u2.bind fun _ => (frugal_require _).bind fun _ => ?_
  refine frugal_u2.bind fun _ => (frugal_require _).bind fun _ => ?_
  exact frugal_u2.bind fun count => (frugal_memberAttributes p count _).bind fun _ => .pure _

/-- The bytes of a field are taken whether or not it is left out. -/
theorem frugal_field : Frugal (field? p) := by
  refine (frugal_memberParts p).bind fun parts => ?_
  dsimp only
  split
  · exact .pure none
  · exact (frugal_require _).bind fun _ => .pure _

/-- The bytes of a method are taken whether or not it is left out. -/
theorem frugal_method : Frugal (method? p) := by
  refine (frugal_memberParts p).bind fun parts => ?_
  dsimp only
  split
  · exact .pure none
  · exact (frugal_require _).bind fun _ => .pure _

end Members

/-! ## Classes -/

/-- The attributes of a class are read like those of a member. -/
theorem frugal_classAttributes (p : Pool) (count : Nat) (a : ClassAttributes) :
    Frugal (classAttributes p count a) := by
  induction count generalizing a with
  | zero => exact .pure a
  | succ count ih =>
    exact (frugal_namedBody p).bind fun _ => (frugal_within _ _).bind fun a => ih a

/-- The name of a class stands under a number that is asked for first. -/
theorem frugal_className (p : Pool) :
    Frugal (do return javaName (← require (p.className (← u2)))) :=
  frugal_u2.bind fun _ => (frugal_require _).bind fun _ => .pure _

/-- A class that may be missing is looked up if there is a number for it. -/
theorem frugal_optionalClass {β : Type} (p : Pool) (index : Nat) {next : Option String → Reader β}
    (hnext : ∀ name, Frugal (next name)) :
    Frugal (if index = 0 then pure none >>= next
      else some <$> require (p.className index) >>= next) := by
  split
  · exact (Frugal.pure none).bind hnext
  · exact ((frugal_require _).map some).bind hnext

/-- All parts of a class are frugal, and a wrong magic number is never a success. -/
theorem frugal_classFile : Frugal classFile := by
  refine frugal_u4.bind fun magic => ?_
  split
  · exact frugal_fail _
  · refine (frugal_skip 2).bind fun _ => (frugal_skip 2).bind fun _ => frugal_pool.bind fun p => ?_
    refine frugal_u2.bind fun _ => frugal_u2.bind fun _ => frugal_u2.bind fun superIndex => ?_
    refine (frugal_require _).bind fun _ => ?_
    refine frugal_optionalClass p superIndex fun _ => ?_
    refine (frugal_className p).counted.bind fun _ => ?_
    refine (frugal_field p).counted.bind fun _ => (frugal_method p).counted.bind fun _ => ?_
    exact frugal_u2.bind fun count => (frugal_classAttributes p count _).bind fun _ => .pure _

/-- The bytes of a class have a beginning that is all the class needs: cut off anywhere in it they
are found to end too early, and whatever follows it the class is the same. -/
theorem parse_cut_or_continued {bytes : List UInt8} {c : ParsedClass} (h : parse bytes = .ok c) :
    ∃ n ≤ bytes.length,
      (∀ k < n, parse (bytes.take k) = .error .unexpectedEof) ∧
        ∀ more, parse (bytes.take n ++ more) = .ok c := by
  have hparse : ∀ input, parse input = (classFile input).map (·.1) := fun _ => rfl
  -- what is left behind the class is dropped, so it is to be found first
  obtain ⟨rest, hread⟩ : ∃ rest, classFile bytes = .ok (c, rest) := by
    rw [hparse] at h
    cases hclass : classFile bytes with
    | error e =>
      rw [hclass] at h
      cases h
    | ok p =>
      rw [hclass] at h
      cases h
      exact ⟨p.2, rfl⟩
  obtain ⟨taken, rfl, hneeds⟩ := frugal_classFile hread
  refine ⟨taken.length, by simp, ?_, ?_⟩
  · intro k hk
    rw [hparse, List.take_append_of_le_length (Nat.le_of_lt hk), hneeds.cut k hk]
    rfl
  · intro more
    rw [hparse, List.take_left, hneeds.reads more]
    rfl

/-- A class with one constant, and two bytes behind it. -/
def continuedBytes : List UInt8 :=
  [0xCA, 0xFE, 0xBA, 0xBE, 0, 0, 0, 61,
    -- the pool: `A`, its class, a number that takes up two places, `n`, `J` and an attribute's name
    0, 8, 1, 0, 1, 65, 7, 0, 1, 5, 0, 0, 0, 0, 0, 0, 0, 9, 1, 0, 1, 110, 1, 0, 1, 74,
    1, 0, 13, 67, 111, 110, 115, 116, 97, 110, 116, 86, 97, 108, 117, 101,
    0, 0x21, 0, 2, 0, 0, 0, 0,
    0, 1, 0, 0x19, 0, 5, 0, 6, 0, 1, 0, 7, 0, 0, 0, 2, 0, 3,
    0, 0, 0, 0,
    1, 2]

/-- The class that these bytes stand for. -/
def continuedClass : ParsedClass :=
  { binaryName := "A"
    accessFlags := 0x21
    superClass := none
    interfaces := []
    fields :=
      [{  name := "n"
          type := "long"
          modifiers := ⟨[.isPublic, .isStatic, .isFinal]⟩
          annotations := []
          hasConstant := true }]
    methods := []
    annotations := []
    innerClasses := [] }

/-- The bytes that follow the last attribute of the class do not belong to it. -/
theorem parse_cut_or_continued_constant :
    parse continuedBytes = .ok continuedClass ∧
      ∃ n ≤ continuedBytes.length,
        (∀ k < n, parse (continuedBytes.take k) = .error .unexpectedEof) ∧
          ∀ more, parse (continuedBytes.take n ++ more) = .ok continuedClass := by
  have h : parse continuedBytes = .ok continuedClass := by decide +kernel
  exact ⟨h, parse_cut_or_continued h⟩

end JavaAtlas.ClassFile
