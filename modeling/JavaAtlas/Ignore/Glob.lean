namespace JavaAtlas.Ignore

/-! # Patterns for paths

A pattern is matched against a path relative to the directory that it belongs to, byte by byte.
`?` and `*` stay within one name, `**` between slashes stands for any number of directories,
brackets for one of some characters, and braces for one of some patterns. Braces are spread out
when a pattern is read, so that a pattern is a choice between plain sequences.
-/

/-- A part of a plain sequence. -/
inductive GlobPart where
  | byte (b : UInt8)
  /-- One byte that is no slash. -/
  | anyByte
  /-- Any number of bytes that are no slashes. -/
  | anyBytes
  /-- One byte in one of the ranges, or in none of them. -/
  | oneOf (negated : Bool) (ranges : List (UInt8 × UInt8))
  /-- Any number of directories at the start. -/
  | leading
  /-- A slash, and any number of directories behind it. -/
  | between
  /-- A slash and all that follows. -/
  | below
deriving DecidableEq, Inhabited, Repr

/-- A pattern: a choice between sequences. -/
structure Glob where
  choices : List (List GlobPart)
deriving DecidableEq, Inhabited, Repr

/-- The byte of a slash. -/
def slash : UInt8 := 47

mutual

/-- Whether the bytes are as the parts say. -/
def matchParts : List GlobPart → List UInt8 → Bool
  | [], bytes => bytes.isEmpty
  | .byte b :: parts, c :: bytes => b == c && matchParts parts bytes
  | .byte _ :: _, [] => false
  | .anyByte :: parts, c :: bytes => c != slash && matchParts parts bytes
  | .anyByte :: _, [] => false
  | .anyBytes :: parts, bytes =>
    matchParts parts bytes ||
      match bytes with
      | c :: rest => c != slash && matchParts (.anyBytes :: parts) rest
      | [] => false
  | .oneOf negated ranges :: parts, c :: bytes =>
    (ranges.any fun (lo, hi) => lo ≤ c && c ≤ hi) != negated && matchParts parts bytes
  | .oneOf _ _ :: _, [] => false
  | .leading :: parts, bytes => matchParts parts bytes || matchAfterSlash parts bytes
  | .between :: parts, c :: bytes =>
    c == slash && (matchParts parts bytes || matchAfterSlash parts bytes)
  | .between :: _, [] => false
  | .below :: parts, c :: bytes => c == slash && matchAnywhere parts bytes
  | .below :: _, [] => false
termination_by parts bytes => parts.length + bytes.length

/-- Whether what follows some slash is as the parts say. -/
def matchAfterSlash (parts : List GlobPart) : List UInt8 → Bool
  | [] => false
  | c :: rest => (c == slash && matchParts parts rest) || matchAfterSlash parts rest
termination_by bytes => parts.length + bytes.length

/-- Whether some end of the bytes is as the parts say. -/
def matchAnywhere (parts : List GlobPart) : List UInt8 → Bool
  | [] => matchParts parts []
  | c :: rest => matchParts parts (c :: rest) || matchAnywhere parts rest
termination_by bytes => parts.length + bytes.length + 1

end

/-- Whether a path matches. A pattern that is nothing but `**` matches every path. -/
def Glob.test (g : Glob) (path : String) : Bool :=
  g.choices == [[.leading]] || g.choices.any (matchParts · path.toUTF8.toList)

/-! ## Reading -/

/-- The bytes of a character. -/
def charBytes (c : Char) : List UInt8 := (String.singleton c).toUTF8.toList

/-- A group in braces that is being read: the choices of its alternatives that are complete, and
those of the one being read. Sequences are kept with the last part first. -/
structure OpenGroup where
  done : List (List GlobPart) := []
  current : List (List GlobPart) := [[]]

/-- What has been read of a pattern. -/
structure GlobReader where
  /-- What is being read: the whole pattern, or the innermost group. -/
  group : OpenGroup := {}
  /-- The groups around it, innermost first, the whole pattern last. -/
  around : List OpenGroup := []
  /-- A bracket was found that is not closed, so that brackets stand for themselves. -/
  plainBrackets : Bool := false

namespace GlobReader

/-- Adds parts at the end. -/
def push (r : GlobReader) (parts : List GlobPart) : GlobReader :=
  { r with group := { r.group with current := r.group.current.map (parts.reverse ++ ·) } }

/-- Adds a character that stands for itself. -/
def pushChar (r : GlobReader) (c : Char) : GlobReader := r.push ((charBytes c).map .byte)

/-- Whether nothing has been read of the present alternative. -/
def isEmpty (r : GlobReader) : Bool := r.group.current == [[]]

/-- Replaces the last part by `part`, unless it says the same already. -/
def replaceLast (r : GlobReader) (part : GlobPart) : GlobReader :=
  let change : List GlobPart → List GlobPart
    | .leading :: rest => .leading :: rest
    | .below :: rest => .below :: rest
    | _ :: rest => part :: rest
    | [] => []
  { r with group := { r.group with current := r.group.current.map change } }

/-- The choices of an alternative; one that is empty is none. -/
def alternatives (current : List (List GlobPart)) : List (List GlobPart) :=
  if current == [[]] then [] else current

/-- Opens a group. -/
def openGroup (r : GlobReader) : GlobReader :=
  { r with group := {}, around := r.group :: r.around }

/-- Begins the next alternative of a group. -/
def nextAlternative (r : GlobReader) : GlobReader :=
  { r with group := { done := r.group.done ++ alternatives r.group.current } }

/-- Closes a group. None if none is open. -/
def closeGroup (r : GlobReader) : Option GlobReader :=
  match r.around with
  | [] => none
  | outer :: around =>
    let choices := r.group.done ++ alternatives r.group.current
    let current :=
      if choices.isEmpty then outer.current
      else outer.current.flatMap fun before => choices.map (· ++ before)
    some { r with group := { outer with current }, around }

end GlobReader

/-- The ranges of bytes that a range of characters is. -/
def byteRanges : Char × Char → List (UInt8 × UInt8)
  | (lo, hi) =>
    if lo = hi then (charBytes lo).map fun b => (b, b)
    else
      let low := charBytes lo
      let high := charBytes hi
      (low.dropLast.map fun b => (b, b)) ++
        [(low.getLast?.getD 0, high.head?.getD 0)] ++ (high.tail.map fun b => (b, b))

/-- What reading a class in brackets comes to. -/
inductive ClassResult where
  /-- The ranges, and what follows the closing bracket. -/
  | ranges (found : List (Char × Char)) (rest : List Char)
  /-- There is no closing bracket. -/
  | unclosed
  /-- A range is upside down. -/
  | invalid

/-- Reads a class up to its closing bracket. `first` tells that nothing has been read of it,
`inRange` that the last character was a dash behind a character. Ranges are kept last first. -/
def readClass (first inRange : Bool) (found : List (Char × Char)) : List Char → ClassResult
  | [] => .unclosed
  | c :: rest =>
    if c = ']' ∧ !first then
      .ranges (if inRange then ( '-', '-') :: found else found) rest
    else if c = '-' ∧ !first ∧ !inRange then readClass false true found rest
    else if inRange then
      match found with
      | (lo, _) :: more => if c < lo then .invalid else readClass false false ((lo, c) :: more) rest
      | [] => .invalid
    else readClass false false ((c, c) :: found) rest

/-- Reads on behind a star: what has been read then, its last character, and the rest. Two stars
between slashes stand for directories, anywhere else they are as one. -/
def readStar (r : GlobReader) (before : Option Char) (rest : List Char) :
    GlobReader × Char × List Char :=
  match rest with
  | '*' :: rest =>
    let plain := (r.push [.anyBytes, .anyBytes], '*', rest)
    let inGroup := !r.around.isEmpty
    if r.isEmpty then
      match rest with
      | [] => (r.push [.leading], '*', [])
      | '/' :: rest => (r.push [.leading], '/', rest)
      | _ => plain
    else if before ≠ some '/' ∧ !(inGroup ∧ (before = some ',' ∨ before = some '\x7b')) then plain
    else
      match rest with
      | [] => (r.replaceLast .below, '*', [])
      | '/' :: rest => (r.replaceLast .between, '/', rest)
      | c :: _ =>
        if inGroup ∧ (c = ',' ∨ c = '\x7d') then (r.replaceLast .below, '*', rest) else plain
  | _ => (r.push [.anyBytes], '*', rest)

/-- Reads the rest of a pattern; `before` is the character in front of it. Every turn takes at
least one character, so `fuel` need not be more than their number. -/
def readGlob (r : GlobReader) (before : Option Char) : Nat → List Char → Option GlobReader
  | _, [] => some r
  | 0, _ :: _ => none
  | fuel + 1, c :: rest =>
    match c with
    | '?' => readGlob (r.push [.anyByte]) (some c) fuel rest
    | '*' =>
      let (r, last, rest) := readStar r before rest
      readGlob r (some last) fuel rest
    | '[' =>
      if r.plainBrackets then readGlob (r.pushChar c) (some c) fuel rest
      else
        let (negated, body) := match rest with
          | '!' :: body | '^' :: body => (true, body)
          | body => (false, body)
        match readClass true false [] body with
        | .ranges found rest =>
          readGlob (r.push [.oneOf negated (found.flatMap byteRanges)]) (some ']') fuel rest
        | .unclosed =>
          readGlob { r.pushChar c with plainBrackets := true } (some c) fuel rest
        | .invalid => none
    | '\x7b' => readGlob r.openGroup (some c) fuel rest
    | '\x7d' => r.closeGroup.bind fun r => readGlob r (some c) fuel rest
    | ',' =>
      if r.around.isEmpty then readGlob (r.pushChar c) (some c) fuel rest
      else readGlob r.nextAlternative (some c) fuel rest
    | '\\' =>
      match rest with
      | [] => none
      | d :: rest => readGlob (r.pushChar d) (some d) fuel rest
    | _ => readGlob (r.pushChar c) (some c) fuel rest

/-- The pattern that a text stands for; none if it is not well formed. -/
def Glob.parse? (text : String) : Option Glob :=
  match readGlob {} none text.length text.toList with
  | some r => if r.around.isEmpty then some ⟨r.group.current.map List.reverse⟩ else none
  | none => none

end JavaAtlas.Ignore
