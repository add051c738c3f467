import JavaAtlas.Json.Parser

namespace JavaAtlas

/-! # Passing over JSON

A value of which nothing is needed is passed over without being built. It may be nested to any
depth, and its numbers and its escaped characters are checked for their form only.
-/

namespace Json

/-- The letter of an exponent is next; passes over the exponent. -/
def skipExponent (c : Cursor) : Except ParseError Cursor :=
  let c := c.advance
  let c := match c.rest with
    | '+' :: _ | '-' :: _ => c.advance
    | _ => c
  if c.atDigit then .ok (skipDigits 0 c.line c.column c.rest).2 else c.failAhead .invalidNumber

/-- Passes over what may follow the digits of a number. -/
def skipNumberEnd (c : Cursor) : Except ParseError Cursor :=
  match c.rest with
  | 'e' :: _ | 'E' :: _ => skipExponent c
  | _ => .ok c

/-- Passes over a number, the cursor being at its first digit. -/
def skipNumber (c : Cursor) : Except ParseError Cursor :=
  if !c.atDigit then c.failAhead .invalidNumber
  else if c.rest.head? = some '0' && c.advance.atDigit then c.advance.failAhead .invalidNumber
  else
    let (_, c) := skipDigits 0 c.line c.column c.rest
    match c.rest with
    | '.' :: _ =>
      let c := c.advance
      if c.atDigit then skipNumberEnd (skipDigits 0 c.line c.column c.rest).2
      else c.failAhead .invalidNumber
    | _ => skipNumberEnd c

/-- Passes over an escape, the cursor being behind the backslash. -/
def skipEscape (c : Cursor) : Except ParseError Cursor :=
  match c.rest with
  | [] => c.fail .eofInString
  | 'u' :: _ => do return (← readHex c.advance).2
  | x :: _ =>
    if [ '"', '\\', '/', 'b', 'f', 'n', 'r', 't'].contains x then .ok c.advance
    else c.failAhead .invalidEscape

/-- Passes over a string up to its closing quote. Each round takes characters, so `fuel` need not
be more than there are. -/
def skipString : Nat → Cursor → Except ParseError Cursor
  | 0, c => c.fail .eofInString
  | fuel + 1, c =>
    let (_, c) := readPlain [] c.line c.column c.rest
    match c.rest with
    | [] => c.fail .eofInString
    | '"' :: _ => .ok c.advance
    | '\\' :: _ => do skipString fuel (← skipEscape c.advance)
    | _ :: _ => c.fail .controlCharacter

/-- What a value may be nested in. -/
inductive Frame where
  | list
  | object
deriving DecidableEq, Inhabited, Repr

/-- The character that ends it. -/
def Frame.closing : Frame → Char
  | .list => ']'
  | .object => '\x7d'

/-- The text ends inside of it. -/
def Frame.unfinished : Frame → Fault
  | .list => .eofInList
  | .object => .eofInObject

/-- Something else follows a value in it. -/
def Frame.unexpected : Frame → Fault
  | .list => .expectedListEnd
  | .object => .expectedObjectEnd

/-- Passes over a key and its colon. -/
def skipKey (c : Cursor) : Except ParseError Cursor := do
  let c := c.skipBlanks
  match c.rest with
  | [] => c.failAhead .eofInObject
  | '"' :: _ =>
    let c := (← skipString c.rest.length c.advance).skipBlanks
    match c.rest with
    | [] => c.failAhead .eofInObject
    | ':' :: _ => return c.advance
    | _ => c.failAhead .expectedColon
  | _ => c.failAhead .keyNotString

/-- Passes over the start of a value: all of it, or the bracket with which it begins, which then
is given too. -/
def skipStart (c : Cursor) : Except ParseError (Option Frame × Cursor) := do
  let c := c.skipBlanks
  let literal (rest : String) : Except ParseError (Option Frame × Cursor) := do
    let (_, c) ← expectIdent .null rest.toList c.advance
    return (none, c)
  match c.rest with
  | [] => c.failAhead .eofInValue
  | 'n' :: _ => literal "ull"
  | 't' :: _ => literal "rue"
  | 'f' :: _ => literal "alse"
  | '"' :: _ => return (none, ← skipString c.rest.length c.advance)
  | '[' :: _ => return (some .list, c.advance)
  | '\x7b' :: _ => return (some .object, c.advance)
  | '-' :: _ => return (none, ← skipNumber c.advance)
  | _ => if c.atDigit then return (none, ← skipNumber c) else c.failAhead .expectedValue

/-- Passes over ends of frames, innermost first, up to where the next value is to start; gives the
frames around that, none when all have ended. In a frame that has just begun (`fresh`) a value
comes without a comma. -/
def skipEnds : Bool → List Frame → Cursor → Except ParseError (List Frame × Cursor)
  | _, [], c => .ok ([], c)
  | fresh, f :: outer, c =>
    let c := c.skipBlanks
    match c.rest with
    | [] => c.failAhead f.unfinished
    | x :: _ =>
      if x = f.closing then skipEnds false outer c.advance
      else if fresh then .ok (f :: outer, c)
      else if x = ',' then .ok (f :: outer, c.advance)
      else c.failAhead f.unexpected

/-- Passes over a value and what follows it in the frames around it. Each round takes characters,
so `fuel` need not be more than there are. -/
def skipFrom : Nat → List Frame → Cursor → Except ParseError Cursor
  | 0, _, c => .ok c
  | fuel + 1, frames, c => do
    let (entered, c) ← skipStart c
    let (frames, c) ← skipEnds entered.isSome (entered.toList ++ frames) c
    match frames with
    | [] => return c
    | .list :: _ => skipFrom fuel frames c
    | .object :: _ => skipFrom fuel frames (← skipKey c)

/-- Passes over a value. -/
def skipValue (c : Cursor) : Except ParseError Cursor := skipFrom (c.rest.length + 1) [] c

end Json

end JavaAtlas
