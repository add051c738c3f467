namespace JavaAtlas

/-! # White space

The property White_Space, and the operations that cut text at it: trimming, splitting into words,
and squeezing every run of white space to one space.
-/

/-- Whether `c` is white space: twenty-five code points have the property. -/
def isBlank (c : Char) : Bool :=
  let n := c.toNat
  (0x9 ≤ n && n ≤ 0xd) || n == 0x20 || n == 0x85 || n == 0xa0 || n == 0x1680 ||
    (0x2000 ≤ n && n ≤ 0x200a) || n == 0x2028 || n == 0x2029 || n == 0x202f || n == 0x205f ||
    n == 0x3000

/-- Drops white space at the start. -/
def trimStart (s : String) : String :=
  String.ofList (s.toList.dropWhile isBlank)

/-- Drops white space at the end. -/
def trimEnd (s : String) : String :=
  String.ofList (s.toList.reverse.dropWhile isBlank).reverse

/-- Drops white space at both ends. -/
def trim (s : String) : String :=
  trimEnd (trimStart s)

/-- The words of a character list, given the letters of the word being read, last first. -/
def blankWords (word : List Char) : List Char → List (List Char)
  | [] => if word.isEmpty then [] else [word.reverse]
  | c :: rest =>
    if isBlank c then
      if word.isEmpty then blankWords [] rest else word.reverse :: blankWords [] rest
    else blankWords (c :: word) rest

/-- The maximal runs of characters that are not white space. -/
def words (s : String) : List String :=
  (blankWords [] s.toList).map String.ofList

/-- The words of `s` with one space between them. -/
def squeeze (s : String) : String :=
  String.intercalate " " (words s)

end JavaAtlas
