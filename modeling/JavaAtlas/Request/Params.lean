import JavaAtlas.Json.Printer
import JavaAtlas.Text.Blank
import JavaAtlas.Text.Quoted

namespace JavaAtlas.Request

/-! # Parameters of requests

A request's parameters are an object with named fields, or an array with the values of all fields
in order. The shape of the parameters of each method is data: reading checks a value against it,
and the same data describes the method to clients.
-/

/-- The type of a parameter. -/
inductive ParamType where
  | text
  /-- A number of 64 bits that is not negative. -/
  | count
deriving DecidableEq, Inhabited, Repr

/-- The type in a description. -/
def ParamType.schemaName : ParamType → String
  | .text => "string"
  | .count => "integer"

/-- The type as it is expected. -/
def ParamType.expected : ParamType → String
  | .text => "a string"
  | .count => "u64"

/-- A parameter. -/
structure ParamField where
  name : String
  /-- Other names under which it is accepted. -/
  aliases : List String := []
  type : ParamType := .text
  optional : Bool := false
  /-- What is said about it. -/
  note : Option String := none
deriving DecidableEq, Inhabited, Repr

/-- The parameters of a method. -/
structure ParamShape where
  name : String
  fields : List ParamField
deriving DecidableEq, Inhabited, Repr

/-! ## What is wrong with a value -/

/-- A value as it is shown in messages. -/
def showValue : Json → String
  | .null => "null"
  | .bool true => "boolean `true`"
  | .bool false => "boolean `false`"
  | .int n => s!"integer `{n}`"
  | .float x => s!"floating point `{x.text}`"
  | .str s => "string " ++ showText s
  | .arr _ => "sequence"
  | .obj _ => "map"

/-- What is wrong with parameters. -/
inductive ParamError where
  | invalidType (found : Json) (expected : String)
  | invalidValue (found : Json) (expected : String)
  | invalidLength (length : Nat) (expected : String)
  | missingField (name : String)
  | duplicateField (name : String)
deriving Inhabited

/-- The wording of an error. -/
def ParamError.text : ParamError → String
  | .invalidType found expected => s!"invalid type: {showValue found}, expected {expected}"
  | .invalidValue found expected => s!"invalid value: {showValue found}, expected {expected}"
  | .invalidLength length expected => s!"invalid length {length}, expected {expected}"
  | .missingField name => s!"missing field `{name}`"
  | .duplicateField name => s!"duplicate field `{name}`"

/-! ## Reading -/

/-- Checks a value against a type. -/
def ParamType.check (t : ParamType) (v : Json) : Except ParamError Json :=
  match t, v with
  | .text, .str s => .ok (.str s)
  | .count, .int (.ofNat n) => .ok (.int n)
  | .count, .int n => .error (.invalidValue (.int n) t.expected)
  | t, v => .error (.invalidType v t.expected)

/-- Checks the value of a field; null stands for an optional value that is absent. -/
def ParamField.check (f : ParamField) (v : Json) : Except ParamError Json :=
  match f.optional, v with
  | true, .null => .ok .null
  | _, v => f.type.check v

/-- The values of fields by name. -/
abbrev Values := List (String × Json)

/-- Reads the fields of an object in order; unknown ones are passed over. -/
def readFields (shape : ParamShape) : List (String × Json) → Values → Except ParamError Values
  | [], found => .ok found
  | (key, value) :: rest, found =>
    match shape.fields.find? (fun f => f.name == key || f.aliases.contains key) with
    | none => readFields shape rest found
    | some f =>
      if (found.lookup f.name).isSome then .error (.duplicateField f.name)
      else do
        let v ← f.check value
        readFields shape rest ((f.name, v) :: found)

/-- Checks that no field is missing. -/
def requireFields (found : Values) : List ParamField → Except ParamError Values
  | [] => .ok found
  | f :: rest =>
    if f.optional || (found.lookup f.name).isSome then requireFields found rest
    else .error (.missingField f.name)

/-- The wording of how many elements a shape has. -/
def ParamShape.elements (shape : ParamShape) : String :=
  let count := shape.fields.length
  s!"struct {shape.name} with {count} " ++ (if count = 1 then "element" else "elements")

/-- Reads the items of an array as fields in order. -/
def readItems (shape : ParamShape) (index : Nat) :
    List ParamField → List Json → Except ParamError (Values × List Json)
  | [], rest => .ok ([], rest)
  | _ :: _, [] => .error (.invalidLength index shape.elements)
  | f :: fields, v :: rest => do
    let v ← f.check v
    let (values, rest) ← readItems shape (index + 1) fields rest
    return ((f.name, v) :: values, rest)

/-- Reads parameters. -/
def ParamShape.read (shape : ParamShape) : Json → Except ParamError Values
  | .obj fields => do
    let found ← readFields shape fields []
    requireFields found shape.fields
  | .arr items => do
    let (values, rest) ← readItems shape 0 shape.fields items
    if rest.isEmpty then return values
    else throw (.invalidLength items.length "fewer elements in array")
  | v => .error (.invalidType v s!"struct {shape.name}")

/-- A text among the values. -/
def Values.text? (vs : Values) (name : String) : Option String := (vs.lookup name).bind Json.str?

/-- A text among the values that has been checked to be there. -/
def Values.text (vs : Values) (name : String) : String := (Values.text? vs name).getD ""

/-- A number among the values. -/
def Values.count? (vs : Values) (name : String) : Option Nat := (vs.lookup name).bind Json.nat?

/-! ## Describing -/

/-- The description of the parameters. -/
def ParamShape.schema (shape : ParamShape) : Json :=
  let required := (shape.fields.filter (!·.optional)).map (·.name)
  Json.ofPresent [
    ("type", some (.str "object")),
    ("properties", some (Json.ofFields (shape.fields.map fun f =>
      (f.name, Json.ofPresent [
        ("type", some (.str f.type.schemaName)),
        ("description", f.note.map .str)])))),
    ("required", if required.isEmpty then none else some (Json.ofStrs required))]

end JavaAtlas.Request
