import JavaAtlas.Json.Basic

namespace JavaAtlas

/-! # Reading JSON

A text is one value with white space around it. Errors tell the line and the column, in bytes,
up to which the text was read.
-/

namespace Json

/-- What is wrong with a text. -/
inductive Fault where
  | eofInList
  | eofInObject
  | eofInString
  | eofInValue
  | expectedColon
  | expectedListEnd
  | expectedObjectEnd
  | expectedIdent
  | expectedValue
  | keyNotString
  | invalidEscape
  | invalidNumber
  | numberOutOfRange
  | loneSurrogate
  | brokenSurrogate
  | controlCharacter
  | trailingComma
  | trailingCharacters
  | tooDeep
deriving DecidableEq, Inhabited, Repr

/-- The wording of a fault. -/
def Fault.text : Fault → String
  | .eofInList => "EOF while parsing a list"
  | .eofInObject => "EOF while parsing an object"
  | .eofInString => "EOF while parsing a string"
  | .eofInValue => "EOF while parsing a value"
  | .expectedColon => "expected `:`"
  | .expectedListEnd => "expected `,` or `]`"
  | .expectedObjectEnd => "expected `,` or `\x7d`"
  | .expectedIdent => "expected ident"
  | .expectedValue => "expected value"
  | .keyNotString => "key must be a string"
  | .invalidEscape => "invalid escape"
  | .invalidNumber => "invalid number"
  | .numberOutOfRange => "number out of range"
  | .loneSurrogate => "lone leading surrogate in hex escape"
  | .brokenSurrogate => "unexpected end of hex escape"
  | .controlCharacter => "control character (\\u0000-\\u001F) found while parsing a string"
  | .trailingComma => "trailing comma"
  | .trailingCharacters => "trailing characters"
  | .tooDeep => "recursion limit exceeded"

/-- A fault with its place. -/
structure ParseError where
  fault : Fault
  line : Nat
  column : Nat
deriving DecidableEq, Inhabited, Repr

/-- The wording of an error. -/
def ParseError.message (e : ParseError) : String :=
  s!"{e.fault.text} at line {e.line} column {e.column}"

/-- What is left of a text, and how much of it has been read. -/
structure Cursor where
  rest : List Char
  line : Nat := 1
  column : Nat := 0

namespace Cursor

/-- The cursor behind its first character. -/
def advance (c : Cursor) : Cursor :=
  match c.rest with
  | [] => c
  | '\n' :: rest => { rest, line := c.line + 1 }
  | x :: rest => { c with rest, column := c.column + x.utf8Size }

/-- An error at what has been read. -/
def fail {α : Type} (c : Cursor) (fault : Fault) : Except ParseError α :=
  .error ⟨fault, c.line, c.column⟩

/-- An error that counts the first byte of the next character too. -/
def failAhead {α : Type} (c : Cursor) (fault : Fault) : Except ParseError α :=
  match c.rest with
  | [] => c.fail fault
  | '\n' :: _ => .error ⟨fault, c.line + 1, 0⟩
  | _ :: _ => .error ⟨fault, c.line, c.column + 1⟩

/-- The cursor behind white space. -/
def skipBlanks (c : Cursor) : Cursor :=
  go c.line c.column c.rest
where
  /-- Skips white space from a place on. -/
  go (line column : Nat) : List Char → Cursor
    | ' ' :: rest | '\t' :: rest | '\r' :: rest => go line (column + 1) rest
    | '\n' :: rest => go (line + 1) 0 rest
    | rest => { rest, line, column }

end Cursor

/-- Reads the rest of a literal name. -/
def expectIdent (value : Json) : List Char → Cursor → Except ParseError (Json × Cursor)
  | [], c => .ok (value, c)
  | x :: rest, c =>
    match c.rest with
    | [] => c.fail .eofInValue
    | y :: _ => if x = y then expectIdent value rest c.advance else c.failAhead .expectedIdent

/-! ## Numbers -/

/-- The largest number of 64 bits. -/
def maxUnsigned : Nat := 18446744073709551615

/-- The largest exponent that is read. -/
def maxExponent : Nat := 2147483647

/-- Reads digits as long as the number they form, behind `acc`, is at most `limit`; gives it and
how many they are. -/
def readDigits (limit acc count line column : Nat) : List Char → Nat × Nat × Cursor
  | [] => (acc, count, { rest := [], line, column })
  | x :: rest =>
    let next := acc * 10 + (x.toNat - '0'.toNat)
    if x.isDigit && next ≤ limit then readDigits limit next (count + 1) line (column + 1) rest
    else (acc, count, { rest := x :: rest, line, column })

/-- Passes over digits; gives how many they are. -/
def skipDigits (count line column : Nat) : List Char → Nat × Cursor
  | [] => (count, { rest := [], line, column })
  | x :: rest =>
    if x.isDigit then skipDigits (count + 1) line (column + 1) rest
    else (count, { rest := x :: rest, line, column })

/-- Whether a digit comes next. -/
def Cursor.atDigit (c : Cursor) : Bool := ((c.rest.head?).map Char.isDigit).getD false

/-- A floating-point number, unless it is out of range. -/
def makeFloat (negative : Bool) (digits : Nat) (exponent : Int) (c : Cursor) :
    Except ParseError (Json × Cursor) :=
  match Binary64.ofDigits? negative digits exponent with
  | some x => .ok (.float x, c)
  | none => c.fail .numberOutOfRange

/-- Reads an exponent, the cursor being at its letter. One that is too large makes a number
infinite, which is refused, or zero. -/
def readExponent (negative : Bool) (digits : Nat) (exponent : Int) (c : Cursor) :
    Except ParseError (Json × Cursor) :=
  let c := c.advance
  let (minus, c) := match c.rest with
    | '+' :: _ => (false, c.advance)
    | '-' :: _ => (true, c.advance)
    | _ => (false, c)
  if c.rest.isEmpty then c.fail .eofInValue
  else if !c.atDigit then c.failAhead .invalidNumber
  else
    let (e, _, c) := readDigits maxExponent 0 0 c.line c.column c.rest
    if !c.atDigit then
      makeFloat negative digits (exponent + (if minus then -(e : Int) else e)) c
    else if digits != 0 && !minus then c.failAhead .numberOutOfRange
    else
      .ok (.float { negative, mantissa := 0, exponent := 0 }, (skipDigits 0 c.line c.column c.rest).2)

/-- Reads what follows the digits of a number that is not whole. -/
def endFloat (negative : Bool) (digits : Nat) (exponent : Int) (c : Cursor) :
    Except ParseError (Json × Cursor) :=
  match c.rest with
  | 'e' :: _ | 'E' :: _ => readExponent negative digits exponent c
  | _ => makeFloat negative digits exponent c

/-- Reads the places behind the point, the cursor being at the point. Those behind the first 64
bits do not count. -/
def readPlaces (negative : Bool) (whole : Nat) (exponent : Int) (c : Cursor) :
    Except ParseError (Json × Cursor) :=
  let c := c.advance
  if !c.atDigit then c.failAhead (if c.rest.isEmpty then .eofInValue else .invalidNumber)
  else
    let (digits, places, c) := readDigits maxUnsigned whole 0 c.line c.column c.rest
    let (_, c) := skipDigits 0 c.line c.column c.rest
    endFloat negative digits (exponent - places) c

/-- Reads what may follow the whole part of a number. Digits of it that do not fit into 64 bits
count only by their number. -/
def readTail (negative : Bool) (whole : Nat) (c : Cursor) : Except ParseError (Json × Cursor) :=
  let (more, c) := skipDigits 0 c.line c.column c.rest
  match c.rest with
  | '.' :: _ => readPlaces negative whole more c
  | 'e' :: _ | 'E' :: _ => readExponent negative whole more c
  | _ =>
    if more > 0 then makeFloat negative whole more c
    else if !negative then .ok (.int whole, c)
    else if whole = 0 ∨ whole > 9223372036854775808 then makeFloat true whole 0 c
    else .ok (.int (-(whole : Int)), c)

/-- Reads a number, the cursor being at its first digit. -/
def readNumber (negative : Bool) (c : Cursor) : Except ParseError (Json × Cursor) :=
  match c.rest with
  | [] => c.fail .eofInValue
  | '0' :: _ =>
    let c := c.advance
    if c.atDigit then c.failAhead .invalidNumber else readTail negative 0 c
  | _ =>
    if c.atDigit then
      let (whole, _, c) := readDigits maxUnsigned 0 0 c.line c.column c.rest
      readTail negative whole c
    else c.failAhead .invalidNumber

/-! ## Strings -/

/-- The value of a hexadecimal digit. -/
def hexDigit? (c : Char) : Option Nat :=
  if '0' ≤ c ∧ c ≤ '9' then some (c.toNat - '0'.toNat)
  else if 'a' ≤ c ∧ c ≤ 'f' then some (c.toNat - 'a'.toNat + 10)
  else if 'A' ≤ c ∧ c ≤ 'F' then some (c.toNat - 'A'.toNat + 10)
  else none

/-- The cursor at the end of the text. -/
def Cursor.atEnd (c : Cursor) : Cursor := c.rest.foldl (fun c _ => c.advance) c

/-- An error behind the next `count` bytes, which may end inside of a character. -/
def Cursor.failBehind {α : Type} (fault : Fault) : Nat → Cursor → Except ParseError α
  | 0, c => c.fail fault
  | count + 1, c =>
    match c.rest with
    | [] => c.fail fault
    | x :: _ =>
      if x.utf8Size > count + 1 then .error ⟨fault, c.line, c.column + (count + 1)⟩
      else failBehind fault (count + 1 - max 1 x.utf8Size) c.advance

/-- Reads four hexadecimal digits. -/
def readHex (c : Cursor) : Except ParseError (Nat × Cursor) :=
  let next := c.rest.take 4
  if (next.map Char.utf8Size).foldl (· + ·) 0 < 4 then c.atEnd.fail .eofInString
  else match next.map hexDigit? with
    | [some x, some y, some z, some w] =>
      .ok (((x * 16 + y) * 16 + z) * 16 + w, c.advance.advance.advance.advance)
    | _ => Cursor.failBehind .invalidEscape 4 c

/-- Reads the second half of a character that is written as two escapes. -/
def readLowSurrogate (high : Nat) (c : Cursor) : Except ParseError (Char × Cursor) :=
  match c.rest with
  | [] => c.fail .eofInString
  | '\\' :: rest =>
    match rest with
    | [] => c.advance.fail .eofInString
    | 'u' :: _ => do
      let (low, c) ← readHex c.advance.advance
      if low < 0xDC00 ∨ low > 0xDFFF then c.fail .loneSurrogate
      else return (Char.ofNat (0x10000 + (high - 0xD800) * 0x400 + (low - 0xDC00)), c)
    | _ :: _ => c.advance.failAhead .brokenSurrogate
  | _ :: _ => c.failAhead .brokenSurrogate

/-- Reads an escape, the cursor being behind the backslash. -/
def readEscape (c : Cursor) : Except ParseError (Char × Cursor) :=
  match c.rest with
  | [] => c.fail .eofInString
  | x :: _ =>
    let after := c.advance
    match x with
    | '"' => .ok ( '"', after)
    | '\\' => .ok ( '\\', after)
    | '/' => .ok ( '/', after)
    | 'b' => .ok (Char.ofNat 8, after)
    | 'f' => .ok (Char.ofNat 12, after)
    | 'n' => .ok ( '\n', after)
    | 'r' => .ok ( '\r', after)
    | 't' => .ok ( '\t', after)
    | 'u' => do
      let (n, c) ← readHex after
      if 0xDC00 ≤ n ∧ n ≤ 0xDFFF then c.fail .loneSurrogate
      else if 0xD800 ≤ n ∧ n ≤ 0xDBFF then readLowSurrogate n c
      else return (Char.ofNat n, c)
    | _ => c.failAhead .invalidEscape

/-- Reads plain characters of a string in front of an escape, the closing quote or the end. -/
def readPlain (found : List Char) (line column : Nat) : List Char → List Char × Cursor
  | [] => (found, { rest := [], line, column })
  | x :: rest =>
    if x = '"' ∨ x = '\\' ∨ x.toNat < 32 then (found, { rest := x :: rest, line, column })
    else readPlain (x :: found) line (column + x.utf8Size) rest

/-- Reads a string up to its closing quote; `found` is what has been read, last first. -/
def readString : Nat → List Char → Cursor → Except ParseError (String × Cursor)
  | 0, _, c => c.fail .eofInString
  | fuel + 1, found, c =>
    let (found, c) := readPlain found c.line c.column c.rest
    match c.rest with
    | [] => c.fail .eofInString
    | '"' :: _ => .ok (String.ofList found.reverse, c.advance)
    | '\\' :: _ => do
      let (x, c) ← readEscape c.advance
      readString fuel (x :: found) c
    | _ :: _ => c.advance.fail .controlCharacter

/-! ## Values -/

/-- How deep arrays and objects may be nested. -/
def maxDepth : Nat := 128

mutual

/-- Reads a value; `depth` levels of nesting are left. -/
def readValue : Nat → Nat → Cursor → Except ParseError (Json × Cursor)
  | 0, _, c => c.fail .eofInValue
  | fuel + 1, depth, c =>
    let c := c.skipBlanks
    match c.rest with
    | [] => c.failAhead .eofInValue
    | x :: _ =>
      match x with
      | 'n' => expectIdent .null "ull".toList c.advance
      | 't' => expectIdent (.bool true) "rue".toList c.advance
      | 'f' => expectIdent (.bool false) "alse".toList c.advance
      | '-' => readNumber true c.advance
      | '"' => do
        let (s, c) ← readString c.rest.length [] c.advance
        return (.str s, c)
      | '[' =>
        if depth ≤ 1 then c.failAhead .tooDeep
        else do
          let (items, c) ← readItems fuel (depth - 1) true [] c.advance
          return (.arr items, c)
      | '\x7b' =>
        if depth ≤ 1 then c.failAhead .tooDeep
        else do
          let (fields, c) ← readFields fuel (depth - 1) true [] c.advance
          return (.obj fields, c)
      | x => if x.isDigit then readNumber false c else c.failAhead .expectedValue

/-- Reads the items of an array up to its end; `found` are those before, last first. -/
def readItems : Nat → Nat → Bool → List Json → Cursor → Except ParseError (List Json × Cursor)
  | 0, _, _, _, c => c.fail .eofInList
  | fuel + 1, depth, first, found, c =>
    let c := c.skipBlanks
    match c.rest with
    | [] => c.failAhead .eofInList
    | ']' :: _ => .ok (found.reverse, c.advance)
    | x :: _ =>
      if first then do
        let (v, c) ← readValue fuel depth c
        readItems fuel depth false (v :: found) c
      else if x = ',' then
        let c := c.advance.skipBlanks
        match c.rest with
        | [] => c.failAhead .eofInValue
        | ']' :: _ => c.failAhead .trailingComma
        | _ => do
          let (v, c) ← readValue fuel depth c
          readItems fuel depth false (v :: found) c
      else c.failAhead .expectedListEnd

/-- Reads a field, the cursor being at its key. -/
def readField : Nat → Nat → Cursor → Except ParseError ((String × Json) × Cursor)
  | 0, _, c => c.fail .eofInObject
  | fuel + 1, depth, c => do
    let (key, c) ← readString c.rest.length [] c.advance
    let c := c.skipBlanks
    match c.rest with
    | ':' :: _ => do
      let (v, c) ← readValue fuel depth c.advance
      return ((key, v), c)
    | [] => c.failAhead .eofInObject
    | _ => c.failAhead .expectedColon

/-- Reads the fields of an object up to its end. -/
def readFields : Nat → Nat → Bool → List (String × Json) → Cursor →
    Except ParseError (List (String × Json) × Cursor)
  | 0, _, _, _, c => c.fail .eofInObject
  | fuel + 1, depth, first, found, c =>
    let c := c.skipBlanks
    match c.rest with
    | [] => c.failAhead .eofInObject
    | '\x7d' :: _ => .ok (found, c.advance)
    | x :: _ =>
      if first then
        if x = '"' then do
          let ((k, v), c) ← readField fuel depth c
          readFields fuel depth false (insertField k v found) c
        else c.failAhead .keyNotString
      else if x = ',' then
        let c := c.advance.skipBlanks
        match c.rest with
        | [] => c.failAhead .eofInValue
        | '"' :: _ => do
          let ((k, v), c) ← readField fuel depth c
          readFields fuel depth false (insertField k v found) c
        | '\x7d' :: _ => c.failAhead .trailingComma
        | _ => c.failAhead .keyNotString
      else c.failAhead .expectedObjectEnd

end

/-- Reads a text that is one value. -/
def parse (text : String) : Except ParseError Json := do
  let chars := text.toList
  let (value, c) ← readValue (2 * chars.length + 2) maxDepth { rest := chars }
  let c := c.skipBlanks
  if c.rest.isEmpty then return value else c.failAhead .trailingCharacters

end Json

end JavaAtlas
