import JavaAtlas.Json.Basic

namespace JavaAtlas

/-! # Writing JSON -/

namespace Json

/-- A hexadecimal digit. -/
def hexChar (n : Nat) : Char :=
  if n < 10 then Char.ofNat ('0'.toNat + n) else Char.ofNat ('a'.toNat + (n - 10))

/-- A character as it stands in a quoted text: quotes, backslashes and control characters are
escaped. -/
def escapeChar (c : Char) : List Char :=
  match c with
  | '"' => [ '\\', '"']
  | '\\' => [ '\\', '\\']
  | '\n' => [ '\\', 'n']
  | '\r' => [ '\\', 'r']
  | '\t' => [ '\\', 't']
  | c =>
    if c.toNat = 8 then [ '\\', 'b']
    else if c.toNat = 12 then [ '\\', 'f']
    else if c.toNat < 32 then
      [ '\\', 'u', '0', '0', hexChar (c.toNat / 16), hexChar (c.toNat % 16)]
    else [c]

/-- Appends a quoted text to `out`. -/
def quoteOnto (out : String) (s : String) : String :=
  (s.toList.foldl (fun (out : String) c => (escapeChar c).foldl String.push out)
    (out.push '"')).push '"'

mutual

/-- Appends a value to `out`, without white space. -/
def writeOnto (out : String) : Json → String
  | .null => out ++ "null"
  | .bool true => out ++ "true"
  | .bool false => out ++ "false"
  | .int n => out ++ toString n
  | .float x => out ++ x.text
  | .str s => quoteOnto out s
  | .arr items => (writeItems (out.push '[') true items).push ']'
  | .obj fields => (writeFields (out ++ "\x7b") true fields) ++ "\x7d"

/-- Appends items with commas between them. -/
def writeItems (out : String) (first : Bool) : List Json → String
  | [] => out
  | x :: rest => writeItems (writeOnto (if first then out else out.push ',') x) false rest

/-- Appends fields with commas between them. -/
def writeFields (out : String) (first : Bool) : List (String × Json) → String
  | [] => out
  | (k, v) :: rest =>
    let out := quoteOnto (if first then out else out.push ',') k
    writeFields (writeOnto (out.push ':') v) false rest

end

/-- The text of a value on one line. -/
def compress (j : Json) : String := writeOnto "" j

mutual

/-- Appends a value to `out` over several lines, each level indented by two spaces. -/
def prettyOnto (indent : String) (out : String) : Json → String
  | .arr [] => out ++ "[]"
  | .obj [] => out ++ "\x7b\x7d"
  | .arr (x :: rest) =>
    let inner := indent ++ "  "
    let out := prettyItems inner (prettyOnto inner (out ++ "[\n" ++ inner) x) rest
    out ++ "\n" ++ indent ++ "]"
  | .obj ((k, v) :: rest) =>
    let inner := indent ++ "  "
    let first := quoteOnto (out ++ "\x7b\n" ++ inner) k ++ ": "
    let out := prettyFields inner (prettyOnto inner first v) rest
    out ++ "\n" ++ indent ++ "\x7d"
  | .null => out ++ "null"
  | .bool true => out ++ "true"
  | .bool false => out ++ "false"
  | .int n => out ++ toString n
  | .float x => out ++ x.text
  | .str s => quoteOnto out s

/-- Appends further items, each on a line of its own. -/
def prettyItems (indent : String) (out : String) : List Json → String
  | [] => out
  | x :: rest => prettyItems indent (prettyOnto indent (out ++ ",\n" ++ indent) x) rest

/-- Appends further fields, each on a line of its own. -/
def prettyFields (indent : String) (out : String) : List (String × Json) → String
  | [] => out
  | (k, v) :: rest =>
    let out := quoteOnto (out ++ ",\n" ++ indent) k ++ ": "
    prettyFields indent (prettyOnto indent out v) rest

end

/-- The text of a value over several lines. -/
def pretty (j : Json) : String := prettyOnto "" "" j

end Json

end JavaAtlas
