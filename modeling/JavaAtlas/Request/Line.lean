import JavaAtlas.Json.Skip
import JavaAtlas.Request.Dispatch

namespace JavaAtlas.Request

/-! # Requests on lines

A line is an object with the method, and if need be an identity and parameters, or an array of
these three in the order identity, method, parameters. What is wrong with a line is told with the
place up to which it was read.
-/

/-- What is wrong with a line. -/
inductive LineError where
  | json (error : Json.ParseError)
  | shape (error : ParamError) (line column : Nat)

/-- The wording of an error. -/
def LineError.text : LineError → String
  | .json error => error.message
  | .shape error line column => s!"{error.text} at line {line} column {column}"

/-- An error in the form of a line, at what has been read. -/
def wrongShape {α : Type} (c : Json.Cursor) (error : ParamError) : Except LineError α :=
  .error (.shape error c.line c.column)

/-- Reads a value, inside of one array or object. -/
def readJson (c : Json.Cursor) : Except LineError (Json × Json.Cursor) :=
  (Json.readValue (2 * c.rest.length + 2) (Json.maxDepth - 1) c).mapError .json

/-- A value where something else is expected. Arrays and objects are not read for that. -/
def mismatch {α : Type} (c : Json.Cursor) (expected : String) : Except LineError α :=
  match c.rest with
  | '[' :: _ => wrongShape c (.invalidType (.arr []) expected)
  | '\x7b' :: _ => wrongShape c (.invalidType (.obj []) expected)
  | _ => do
    let (found, c) ← readJson c
    wrongShape c (.invalidType found expected)

/-- Reads a text. -/
def readText (c : Json.Cursor) : Except LineError (String × Json.Cursor) :=
  let c := c.skipBlanks
  match c.rest with
  | [] => (c.failAhead .eofInValue).mapError .json
  | '"' :: _ => (Json.readString c.rest.length [] c.advance).mapError .json
  | _ => mismatch c "a string"

/-- What has been read of a request. -/
structure Parts where
  id : Option Json := none
  method : Option String := none
  params : Option Json := none

/-- The request with these parts, if none is missing. -/
def Parts.request? (p : Parts) : Option Message :=
  p.method.map fun method =>
    { id := p.id.getD .null, method, params := p.params.getD .null }

/-! ## Objects -/

/-- Reads the colon behind a key. -/
def readColon (c : Json.Cursor) : Except LineError Json.Cursor :=
  let c := c.skipBlanks
  match c.rest with
  | ':' :: _ => .ok c.advance
  | [] => (c.failAhead .eofInObject).mapError .json
  | _ => (c.failAhead .expectedColon).mapError .json

/-- Reads the value of a field. Unknown fields are passed over. -/
def readPart (p : Parts) (key : String) (c : Json.Cursor) : Except LineError (Parts × Json.Cursor) :=
  let again {α : Type} : Except LineError α := wrongShape c.skipBlanks (.duplicateField key)
  match key with
  | "id" => do
    if p.id.isSome then again
    let (v, c) ← readJson (← readColon c)
    return ({ p with id := some v }, c)
  | "method" => do
    if p.method.isSome then again
    let (v, c) ← readText (← readColon c)
    return ({ p with method := some v }, c)
  | "params" => do
    if p.params.isSome then again
    let (v, c) ← readJson (← readColon c)
    return ({ p with params := some v }, c)
  | _ => do
    let c ← (Json.skipValue (← readColon c)).mapError .json
    return (p, c)

/-- Goes to the next key of an object; none at its end. -/
def nextKey (first : Bool) (c : Json.Cursor) : Except LineError (Option Json.Cursor × Json.Cursor) :=
  let c := c.skipBlanks
  match c.rest with
  | [] => (c.failAhead .eofInObject).mapError .json
  | '\x7d' :: _ => .ok (none, c.advance)
  | x :: _ =>
    if first then
      if x = '"' then .ok (some c, c) else (c.failAhead .keyNotString).mapError .json
    else if x = ',' then
      let c := c.advance.skipBlanks
      match c.rest with
      | [] => (c.failAhead .eofInValue).mapError .json
      | '"' :: _ => .ok (some c, c)
      | '\x7d' :: _ => (c.failAhead .trailingComma).mapError .json
      | _ => (c.failAhead .keyNotString).mapError .json
    else (c.failAhead .expectedObjectEnd).mapError .json

/-- Reads the fields of an object up to its end. Each takes characters, so `fuel` need not be more
than there are. -/
def readObject : Nat → Bool → Parts → Json.Cursor → Except LineError (Parts × Json.Cursor)
  | 0, _, p, c => .ok (p, c)
  | fuel + 1, first, p, c => do
    match ← nextKey first c with
    | (none, c) => return (p, c)
    | (some key, _) =>
      let (name, c) ← (Json.readString key.rest.length [] key.advance).mapError .json
      let (p, c) ← readPart p name c
      readObject fuel false p c

/-! ## Arrays -/

/-- Goes to the next item of an array; none at its end, which is not passed. -/
def nextItem (first : Bool) (c : Json.Cursor) : Except LineError (Option Json.Cursor × Json.Cursor) :=
  let c := c.skipBlanks
  match c.rest with
  | [] => (c.failAhead .eofInList).mapError .json
  | ']' :: _ => .ok (none, c)
  | x :: _ =>
    if first then .ok (some c, c)
    else if x = ',' then
      let c := c.advance.skipBlanks
      match c.rest with
      | [] => (c.failAhead .eofInValue).mapError .json
      | ']' :: _ => (c.failAhead .trailingComma).mapError .json
      | _ => .ok (some c, c)
    else (c.failAhead .expectedListEnd).mapError .json

/-- Reads the end of an array. -/
def endItems (c : Json.Cursor) : Except LineError Json.Cursor :=
  let c := c.skipBlanks
  match c.rest with
  | [] => (c.failAhead .eofInList).mapError .json
  | ']' :: _ => .ok c.advance
  | ',' :: _ =>
    let c := c.advance.skipBlanks
    (c.failAhead (if c.rest.head? = some ']' then .trailingComma
      else .trailingCharacters)).mapError .json
  | _ => (c.failAhead .trailingCharacters).mapError .json

/-- The shape of a request, for messages. -/
def requestShape : String := "struct RpcRequest"

/-- Reads the items of an array. -/
def readArray (c : Json.Cursor) : Except LineError (Parts × Json.Cursor) := do
  let (item, c) ← nextItem true c
  let (id, c) ← match item with
    | some c => do
      let (v, c) ← readJson c
      pure (some v, c)
    | none => pure (none, c)
  let (item, c) ← nextItem id.isNone c
  match item with
  | none => do
    let c ← endItems c
    wrongShape c (.invalidLength 1 s!"{requestShape} with 3 elements")
  | some c =>
    let (method, c) ← readText c
    let (item, c) ← nextItem false c
    let (params, c) ← match item with
      | some c => do
        let (v, c) ← readJson c
        pure (some v, c)
      | none => pure (none, c)
    return ({ id, method := some method, params }, ← endItems c)

/-! ## Lines -/

/-- Reads a request. -/
def readLine (text : String) : Except LineError Message := do
  let c := Json.Cursor.skipBlanks { rest := text.toList }
  let (parts, c) ← match c.rest with
    | [] => (c.failAhead .eofInValue).mapError .json
    | '\x7b' :: _ => readObject text.length true {} c.advance
    | '[' :: _ => readArray c.advance
    | _ => mismatch c requestShape
  match parts.request? with
  | none => wrongShape c (.missingField "method")
  | some request =>
    let c := c.skipBlanks
    if c.rest.isEmpty then return request else (c.failAhead .trailingCharacters).mapError .json

/-- Answers a line; none if it is blank. -/
def answerLine (s : Service) (line : String) : Option Json × Service :=
  if (trim line).isEmpty then (none, s)
  else
    match readLine line with
    | .ok request =>
      let (response, s) := request.handle s
      (some response, s)
    | .error e => (some (respond .null (.error (.invalidRequest e.text))), s)

/-- Answers lines one after the other. -/
def answerLines (s : Service) : List String → List Json
  | [] => []
  | line :: rest =>
    let (response, s) := answerLine s line
    response.toList ++ answerLines (s.settled 0) rest

end JavaAtlas.Request
