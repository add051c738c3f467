import JavaAtlas.Proofs.ClassFile.Encoding
import JavaAtlas.Proofs.Outcome

namespace JavaAtlas.ClassFile

/-! # Reading what was written, step by step

`Reads` says that a reader takes exactly some bytes off the front, whatever follows. It goes through
the ways in which readers are put together, so that a reader is checked in the order in which it
reads.

* `Reads.bind`, `reads_times`, `reads_counted`, `reads_within`: readers one after the other;
* `reads_number`, `reads_skip`: numbers and bytes that are passed over;
* `reads_utf8Text`, `reads_pool`: texts and the constant pool.
-/

/-- A reader takes exactly these bytes off the front, and gives a value. -/
def Reads {α : Type} (read : Reader α) (bytes : List UInt8) (a : α) : Prop :=
  ∀ rest, read (bytes ++ rest) = .ok (a, rest)

section Steps

variable {α β : Type} {read : Reader α} {bs cs : List UInt8} {a : α} {b : β}

/-- A reader that gives a value without reading takes nothing. -/
theorem Reads.pure (a : α) : Reads (pure a) [] a := fun _ => rfl

/-- One reader after the other takes the bytes of both. -/
theorem Reads.bind {next : α → Reader β} (h : Reads read bs a) (hnext : Reads (next a) cs b) :
    Reads (read >>= next) (bs ++ cs) b := by
  intro rest
  have hbind : (read >>= next) (bs ++ cs ++ rest) =
      read (bs ++ cs ++ rest) >>= fun p => next p.1 p.2 := rfl
  rw [hbind, List.append_assoc, h]
  exact hnext rest

/-- The next step goes on behind the bytes, whatever comes of it. -/
theorem Reads.run_bind (h : Reads read bs a) (next : α → Reader β) (rest : List UInt8) :
    (read >>= next) (bs ++ rest) = next a rest := by
  have hbind : (read >>= next) (bs ++ rest) = read (bs ++ rest) >>= fun p => next p.1 p.2 := rfl
  rw [hbind, h]
  rfl

/-- Two steps that went well, one after the other. -/
theorem exists_of_run_bind {next : α → Reader β} {input rest : List UInt8}
    (h : (read >>= next) input = .ok (b, rest)) :
    ∃ a left, read input = .ok (a, left) ∧ next a left = .ok (b, rest) := by
  obtain ⟨⟨a, left⟩, hfirst, hsecond⟩ := bind_eq_ok_iff.mp
    (show read input >>= (fun p => next p.1 p.2) = .ok (b, rest) from h)
  exact ⟨a, left, hfirst, hsecond⟩

/-- A step that takes no bytes. -/
theorem Reads.bind_nil {next : α → Reader β} (h : Reads read [] a) (hnext : Reads (next a) cs b) :
    Reads (read >>= next) cs b :=
  h.bind hnext

/-- The last step that takes bytes. -/
theorem Reads.bind_last {next : α → Reader β} (h : Reads read bs a) (hnext : Reads (next a) [] b) :
    Reads (read >>= next) bs b := by
  have := h.bind hnext
  rwa [List.append_nil] at this

/-- What is made of a value afterwards takes no bytes. -/
theorem Reads.map (f : α → β) (h : Reads read bs a) : Reads (f <$> read) bs (f a) := by
  intro rest
  have hmap : (f <$> read) (bs ++ rest) = read (bs ++ rest) >>= fun p => .ok (f p.1, p.2) := rfl
  rw [hmap, h]
  rfl

/-- A check that succeeds takes no bytes. -/
theorem reads_require {x : Except ClassError α} (h : x = .ok a) : Reads (require x) [] a := by
  rw [h]
  exact Reads.pure a

/-- So many bytes as stand there are taken as they are. -/
theorem reads_bytes (bs : List UInt8) : Reads (bytes bs.length) bs bs := by
  intro rest
  have htake : takeBytes? bs.length (bs ++ rest) = some (bs, rest) := by
    induction bs with
    | nil => rfl
    | cons b bs ih => simp [takeBytes?, ih]
  unfold bytes
  rw [htake]

/-- Bytes that are passed over are taken, too. -/
theorem reads_skip {count : Nat} (h : bs.length = count) : Reads (skip count) bs () := by
  subst h
  exact (reads_bytes bs).bind_last (.pure ())

/-- Values one after the other. -/
theorem reads_times {encode : α → List UInt8} {value : α → β} {read : Reader β} {xs : List α}
    (h : ∀ x ∈ xs, Reads read (encode x) (value x)) :
    Reads (times read xs.length) (xs.flatMap encode) (xs.map value) := by
  induction xs with
  | nil => exact Reads.pure []
  | cons x xs ih =>
    have hrest := ih fun y hy => h y (List.mem_cons_of_mem x hy)
    rw [List.length_cons, List.flatMap_cons, List.map_cons]
    exact (h x List.mem_cons_self).bind (hrest.bind_last (.pure _))

/-- A reader of other bytes takes none. -/
theorem reads_within {body left : List UInt8} (h : read body = .ok (a, left)) :
    Reads (within body read) [] a := by
  intro rest
  unfold within
  rw [h]
  rfl

/-- With nothing behind its bytes, a reader leaves nothing. -/
theorem Reads.eq_ok (h : Reads read bs a) : read bs = .ok (a, []) := by
  have := h []
  rwa [List.append_nil] at this

end Steps

/-! ## Numbers -/

/-- A number of so many bytes has that length. -/
@[simp] theorem length_numberBytes (count n : Nat) : (numberBytes count n).length = count := by
  induction count with
  | zero => rfl
  | succ count ih => rw [numberBytes, List.length_cons, ih]

/-- Read byte by byte behind what stands in front, a number comes out up to the width that it has.
-/
theorem foldl_numberBytes (count n front : Nat) :
    (numberBytes count n).foldl (fun m b => m * 256 + b.toNat) front =
      front * 256 ^ count + n % 256 ^ count := by
  induction count generalizing front with
  | zero => simp [numberBytes, Nat.mod_one]
  | succ count ih =>
    -- the first byte holds the digit of the highest place, the rest all others
    have hbyte : (UInt8.ofNat (n / 256 ^ count)).toNat = n / 256 ^ count % 256 :=
      UInt8.toNat_ofNat'
    have hsplit : n % 256 ^ (count + 1) =
        n / 256 ^ count % 256 * 256 ^ count + n % 256 ^ count := by
      rw [Nat.pow_succ, Nat.mod_mul, Nat.mul_comm (n / 256 ^ count % 256), Nat.add_comm]
    rw [numberBytes, List.foldl_cons, ih, hbyte, hsplit, Nat.pow_succ, Nat.add_mul, Nat.mul_assoc,
      Nat.mul_comm 256, Nat.add_assoc]

/-- A number that fits is that of its bytes. -/
theorem bigEndian_numberBytes {count n : Nat} (h : n < 256 ^ count) :
    bigEndian (numberBytes count n) = n := by
  unfold bigEndian
  rw [foldl_numberBytes, Nat.zero_mul, Nat.zero_add, Nat.mod_eq_of_lt h]

/-- A number that fits is read from its bytes. -/
theorem reads_number {count n : Nat} (h : n < 256 ^ count) :
    Reads (number count) (numberBytes count n) n := by
  have hbytes := reads_bytes (numberBytes count n)
  rw [length_numberBytes] at hbytes
  refine hbytes.bind_last ?_
  rw [bigEndian_numberBytes h]
  exact .pure n

theorem reads_u1 {n : Nat} (h : n < 2 ^ 8) : Reads u1 (numberBytes 1 n) n := reads_number h

theorem reads_u2 {n : Nat} (h : n < 2 ^ 16) : Reads u2 (numberBytes 2 n) n := reads_number h

theorem reads_u4 {n : Nat} (h : n < 2 ^ 32) : Reads u4 (numberBytes 4 n) n := reads_number h

/-- A number of the pool is read, since it has two bytes by its type. -/
theorem reads_index (index : UInt16) : Reads u2 (numberBytes 2 index.toNat) index.toNat :=
  reads_u2 index.toNat_lt

theorem reads_skip_index (n : Nat) : Reads (skip 2) (numberBytes 2 n) () :=
  reads_skip (length_numberBytes 2 n)

/-- A byte that stands for itself. -/
theorem reads_tag (b : UInt8) : Reads u1 [b] b.toNat := by
  intro rest
  show Except.ok (0 * 256 + b.toNat, rest) = .ok (b.toNat, rest)
  rw [Nat.zero_mul, Nat.zero_add]

/-- Values with their count in front. -/
theorem reads_counted {α β : Type} {encode : α → List UInt8} {value : α → β} {read : Reader β}
    {xs : List α} (hcount : xs.length < 2 ^ 16)
    (h : ∀ x ∈ xs, Reads read (encode x) (value x)) :
    Reads (counted read) (countedBytes encode xs) (xs.map value) :=
  (reads_u2 hcount).bind (reads_times h)

/-! ## The constant pool -/

/-- A text is read from its bytes with their count in front. -/
theorem reads_utf8Text {text : String} (h : (Utf8.utf8Bytes text).length < 2 ^ 16) :
    Reads utf8Text (numberBytes 2 (Utf8.utf8Bytes text).length ++ Utf8.utf8Bytes text) text := by
  refine (reads_u2 h).bind ((reads_bytes _).bind_last ?_)
  rw [Utf8.decode_utf8Bytes]
  exact .pure text

/-- What a reader keeps of what stands under a number. -/
def constantOf : Option PoolItem → Constant
  | none => .unusable
  | some (.utf8 text) => .utf8 text
  | some (.classRef nameIndex) => .classRef nameIndex.toNat
  | some (.other _ _) => .other

/-- The pool that a reader makes of a layout. -/
def Layout.pool (l : Layout) : Pool := ⟨(l.slots.map constantOf).toArray⟩

/-- A constant is read from its bytes, as what a reader keeps of it for each number that it takes
up. -/
theorem reads_constant {item : PoolItem} (h : item.Fits) :
    Reads constant item.encode (item.slots.map constantOf) := by
  cases item with
  | utf8 text => exact (reads_tag 1).bind ((reads_utf8Text h).bind_last (.pure _))
  | classRef nameIndex => exact (reads_tag 7).bind ((reads_index nameIndex).bind_last (.pure _))
  | other kind payload =>
    have hlength : payload.toList.length = kind.size := by simp
    -- the tag of each kind decides how many bytes are passed over
    cases kind <;> exact (reads_tag _).bind ((reads_skip hlength).bind_last (.pure _))

/-- Each constant takes up some number. -/
theorem slots_ne_nil (item : PoolItem) : item.slots ≠ [] := by
  cases item with
  | utf8 text => exact List.cons_ne_nil _ _
  | classRef nameIndex => exact List.cons_ne_nil _ _
  | other kind payload =>
    cases kind <;> exact List.cons_ne_nil _ _

/-- Constants are read until all numbers are taken. -/
theorem reads_constants {l : Layout} {count fuel : Nat} {found : Array Constant}
    (hitems : ∀ item ∈ l, item.Fits)
    (hcount : count = found.size + (l.flatMap PoolItem.slots).length) (hfuel : l.length ≤ fuel) :
    Reads (constants count fuel found) (l.flatMap PoolItem.encode)
      (found ++ ((l.flatMap PoolItem.slots).map constantOf).toArray) := by
  induction l generalizing fuel found with
  | nil =>
    -- all numbers are taken, so that the loop ends whatever fuel is left
    have hdone : ¬ found.size < count := by simp [hcount]
    have hsame : found ++ (([] : List (Option PoolItem)).map constantOf).toArray = found := by simp
    rw [List.flatMap_nil, List.flatMap_nil, hsame]
    cases fuel with
    | zero => exact .pure found
    | succ fuel =>
      unfold constants
      rw [if_neg hdone]
      exact .pure found
  | cons item l ih =>
    -- a constant takes up a number or two, so that there are numbers left to read for
    have hpos := List.length_pos_iff.mpr (slots_ne_nil item)
    rw [List.flatMap_cons, List.length_append] at hcount
    rw [List.length_cons] at hfuel
    obtain ⟨fuel, rfl⟩ : ∃ k, fuel = k + 1 := ⟨fuel - 1, by omega⟩
    have hitem := reads_constant (hitems item List.mem_cons_self)
    have hrest : Reads (constants count fuel (found ++ (item.slots.map constantOf).toArray))
        (l.flatMap PoolItem.encode) _ :=
      ih (fun other hmem => hitems other (List.mem_cons_of_mem item hmem))
        (by simp [hcount, Nat.add_assoc]) (by omega)
    rw [List.flatMap_cons, List.flatMap_cons, List.map_append, ← List.append_toArray,
      ← Array.append_assoc]
    unfold constants
    rw [if_pos (by omega)]
    exact hitem.bind hrest

/-- A constant pool that fits is read from its bytes, and nothing that stands behind it. -/
theorem reads_pool {l : Layout} (h : l.Fits) : Reads pool l.encode l.pool := by
  -- each constant takes up a number, so there is fuel for all of them
  have hlength : l.length ≤ l.slots.length := by
    unfold Layout.slots
    rw [List.length_cons, List.length_flatMap]
    have hle : l.length ≤ (l.map fun item => item.slots.length).sum := by
      clear h
      induction l with
      | nil => exact Nat.le_refl _
      | cons item l ih =>
        have hpos := List.length_pos_iff.mpr (slots_ne_nil item)
        rw [List.map_cons, List.sum_cons, List.length_cons]
        omega
    omega
  have hconstants : Reads (constants l.slots.length l.slots.length #[.unusable])
      (l.flatMap PoolItem.encode) _ :=
    reads_constants h.items (by simp [Layout.slots, Nat.add_comm]) hlength
  have hpool : #[Constant.unusable] ++ ((l.flatMap PoolItem.slots).map constantOf).toArray =
      l.pool.entries := by
    simp [Layout.pool, Layout.slots, constantOf]
  rw [hpool] at hconstants
  exact (reads_u2 h.slots).bind (hconstants.bind_last (.pure _))

/-! ## Looking up constants -/

section Lookup

variable {l : Layout} {index : UInt16} {text : String}

/-- The text under a number is found in the pool that was read. -/
theorem Layout.HasText.utf8_eq (h : l.HasText index text) : l.pool.utf8 index.toNat = .ok text := by
  have hentry : l.pool.entries[index.toNat]? = some (.utf8 text) := by
    unfold Layout.HasText at h
    simp [Layout.pool, h, constantOf]
  unfold Pool.utf8
  rw [hentry]

/-- The name of the class under a number is found in the pool that was read. -/
theorem Layout.HasClass.className_eq (h : l.HasClass index text) :
    l.pool.className index.toNat = .ok text := by
  obtain ⟨nameIndex, hclass, htext⟩ := h
  have hentry : l.pool.entries[index.toNat]? = some (.classRef nameIndex.toNat) := by
    simp [Layout.pool, hclass, constantOf]
  unfold Pool.className
  rw [hentry]
  exact htext.utf8_eq

/-- Nothing stands under zero. -/
theorem Layout.toNat_ne_zero {item : PoolItem} (h : l.slots[index.toNat]? = some (some item)) :
    index.toNat ≠ 0 := by
  intro hzero
  rw [hzero] at h
  cases h

/-- A text that stands under a number is found, and its number is not the one for none. -/
theorem Layout.HasText.lookup (h : l.HasText index text) :
    index.toNat ≠ 0 ∧ l.pool.utf8 index.toNat = .ok text :=
  ⟨Layout.toNat_ne_zero h, h.utf8_eq⟩

/-- The name of a class is found, and its number is not the one for none. -/
theorem Layout.HasClass.lookup (h : l.HasClass index text) :
    index.toNat ≠ 0 ∧ l.pool.className index.toNat = .ok text :=
  ⟨Layout.toNat_ne_zero h.choose_spec.1, h.className_eq⟩

theorem reads_optionalIndex (n : Option Named) :
    Reads u2 (numberBytes 2 (optionalIndex n)) (optionalIndex n) := by
  cases n with
  | none => exact reads_index 0
  | some n => exact reads_index n.index

/-- A text that may be missing is looked up if there is a number for it. -/
theorem reads_optional {β : Type} {n : Option Named} {lookup : Nat → Except ClassError String}
    {next : Option String → Reader β} {bs : List UInt8} {b : β}
    (h : ∀ m ∈ n, m.index.toNat ≠ 0 ∧ lookup m.index.toNat = .ok m.text)
    (hnext : Reads (next (n.map (·.text))) bs b) :
    Reads (if optionalIndex n = 0 then pure none >>= next
      else some <$> require (lookup (optionalIndex n)) >>= next) bs b := by
  -- a reader tells a missing text by the number zero, which no text has
  cases n with
  | none => exact (Reads.pure none).bind_nil hnext
  | some n =>
    obtain ⟨hindex, hlookup⟩ := h n rfl
    show Reads (if n.index.toNat = 0 then _ else _) _ _
    rw [if_neg hindex]
    exact ((reads_require hlookup).map some).bind_nil hnext

end Lookup

end JavaAtlas.ClassFile
