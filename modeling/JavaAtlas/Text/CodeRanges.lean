namespace JavaAtlas

/-! # Sets of code points

A Unicode property is a set of code points, kept as sorted, disjoint, inclusive ranges and
written down in hexadecimal: `41-5a aa b5` is the set of the capital letters A to Z and two
single characters.
-/

/-- Code points as sorted, disjoint, inclusive ranges. -/
structure CodeRanges where
  /-- The ranges, each as its first and its last member. -/
  ranges : Array (Nat × Nat)
deriving Inhabited, BEq, Repr

namespace CodeRanges

/-- The value of a hexadecimal digit; anything else counts as zero. -/
def hexDigit (c : Char) : Nat :=
  if '0' ≤ c ∧ c ≤ '9' then c.toNat - '0'.toNat
  else if 'a' ≤ c ∧ c ≤ 'f' then c.toNat - 'a'.toNat + 10
  else if 'A' ≤ c ∧ c ≤ 'F' then c.toNat - 'A'.toNat + 10
  else 0

/-- The number that a run of hexadecimal digits stands for. -/
def hexValue (digits : List Char) : Nat :=
  digits.foldl (fun n c => 16 * n + hexDigit c) 0

/-- The words of a table: runs of characters other than spaces and line ends. -/
def wordsOf : List Char → List (List Char)
  | [] => [[]]
  | c :: rest =>
    match wordsOf rest with
    | [] => [[c]]
    | w :: ws => if c = ' ' ∨ c = '\n' then [] :: w :: ws else (c :: w) :: ws

/-- One entry of a table: `41-5a`, or `aa` for a single code point. -/
def entry (word : List Char) : Nat × Nat :=
  let low := word.takeWhile (· != '-')
  match word.drop low.length with
  | [] => (hexValue low, hexValue low)
  | _ :: high => (hexValue low, hexValue high)

/-- Reads a table of ranges written in hexadecimal. -/
def ofHex (text : String) : CodeRanges :=
  ⟨((wordsOf text.toList).filter (· ≠ [])).map entry |>.toArray⟩

/-- Joins ranges that overlap or touch; they are sorted by first member, and `first` to `last` is
the one before them. -/
def joinFrom (first last : Nat) : List (Nat × Nat) → List (Nat × Nat)
  | [] => [(first, last)]
  | (next, stop) :: rest =>
    if next ≤ last + 1 then joinFrom first (max last stop) rest
    else (first, last) :: joinFrom next stop rest

/-- The set that holds the code points of some ranges. -/
def ofRanges (ranges : List (Nat × Nat)) : CodeRanges :=
  match ranges.mergeSort fun x y => x.1 ≤ y.1 with
  | [] => ⟨#[]⟩
  | (first, last) :: rest => ⟨(joinFrom first last rest).toArray⟩

/-- The set that holds the characters of `text`. -/
def ofChars (text : String) : CodeRanges :=
  ofRanges (text.toList.map fun c => (c.toNat, c.toNat))

/-- The set of the code points from `first` to `last`. -/
def between (first last : Char) : CodeRanges :=
  ⟨#[(first.toNat, last.toNat)]⟩

/-- The code points of either set. -/
def union (a b : CodeRanges) : CodeRanges :=
  ofRanges (a.ranges ++ b.ranges).toList

/-- The gaps between sorted ranges from `low` up to the last code point. -/
def gaps (low : Nat) : List (Nat × Nat) → List (Nat × Nat)
  | [] => if low ≤ 0x10FFFF then [(low, 0x10FFFF)] else []
  | (first, last) :: rest =>
    if low < first then (low, first - 1) :: gaps (last + 1) rest else gaps (last + 1) rest

/-- The code points that are not in the set. -/
def complement (t : CodeRanges) : CodeRanges :=
  ⟨(gaps 0 t.ranges.toList).toArray⟩

/-- Whether some range of `ranges` at or above `low` and below `low + width` holds `c`, found by
halving; `fuel` bounds the number of halvings. -/
def search (ranges : Array (Nat × Nat)) (c : Nat) : Nat → Nat → Nat → Bool
  | 0, _, _ => false
  | fuel + 1, low, width =>
    if width = 0 then false
    else
      let mid := low + width / 2
      match ranges[mid]? with
      | none => false
      | some (first, last) =>
        if c < first then search ranges c fuel low (width / 2)
        else if last < c then search ranges c fuel (mid + 1) (width - width / 2 - 1)
        else true

/-- Whether the set holds the code point `c`. -/
def contains (t : CodeRanges) (c : Nat) : Bool :=
  search t.ranges c (t.ranges.size + 1) 0 t.ranges.size

end CodeRanges

end JavaAtlas
