import JavaAtlas.Json.Binary64

namespace JavaAtlas

/-! # JSON values

Objects keep their fields sorted by key, each key once: of repeated keys the last one counts.
Whole numbers that fit into 64 bits are integers; all other numbers are floating-point numbers.
-/

/-- A JSON value. -/
inductive Json where
  | null
  | bool (value : Bool)
  | int (value : Int)
  | float (value : Binary64)
  | str (value : String)
  | arr (items : List Json)
  | obj (fields : List (String × Json))
deriving BEq, Inhabited

namespace Json

/-- Puts a field in its place among sorted fields, replacing one of the same key. -/
def insertField (key : String) (value : Json) : List (String × Json) → List (String × Json)
  | [] => [(key, value)]
  | (k, v) :: rest =>
    if key = k then (key, value) :: rest
    else if key < k then (key, value) :: (k, v) :: rest
    else (k, v) :: insertField key value rest

/-- The object with these fields. -/
def ofFields (fields : List (String × Json)) : Json :=
  .obj (fields.foldl (fun sorted (k, v) => insertField k v sorted) [])

/-- The object with those of the fields that are there. -/
def ofPresent (fields : List (String × Option Json)) : Json :=
  ofFields (fields.filterMap fun (k, v) => v.map (k, ·))

/-- The field of an object; none for other values. -/
def field? : Json → String → Option Json
  | .obj fields, key => fields.lookup key
  | _, _ => none

/-- The field of an object, where null counts as absent. -/
def get? (j : Json) (key : String) : Option Json :=
  match j.field? key with
  | some .null => none
  | v => v

/-- The text of a string. -/
def str? : Json → Option String
  | .str s => some s
  | _ => none

/-- The value of an integer. -/
def int? : Json → Option Int
  | .int n => some n
  | _ => none

/-- The value of an integer that is not negative. -/
def nat? : Json → Option Nat
  | .int (.ofNat n) => some n
  | _ => none

/-- The value of a boolean. -/
def bool? : Json → Option Bool
  | .bool b => some b
  | _ => none

/-- The items of an array. -/
def arr? : Json → Option (List Json)
  | .arr xs => some xs
  | _ => none

/-- A text in a field; none if there is none. -/
def getStr? (j : Json) (key : String) : Option String := (j.get? key).bind str?

/-- A text in a field, `default` if there is none. -/
def getStr (j : Json) (key : String) (default : String := "") : String :=
  (j.getStr? key).getD default

/-- An integer in a field, `default` if there is none. -/
def getInt (j : Json) (key : String) (default : Int := 0) : Int :=
  ((j.get? key).bind int?).getD default

/-- A boolean in a field, false if there is none. -/
def getBool (j : Json) (key : String) (default : Bool := false) : Bool :=
  ((j.get? key).bind bool?).getD default

/-- The items of a field, none if there is no such field. -/
def getArr (j : Json) (key : String) : List Json := ((j.get? key).bind arr?).getD []

/-- The texts among the items of a field. -/
def getStrs (j : Json) (key : String) : List String := (j.getArr key).filterMap str?

/-- The fields of an object in a field. -/
def getFields (j : Json) (key : String) : List (String × Json) :=
  match j.get? key with
  | some (.obj fields) => fields
  | _ => []

/-- A text, or null. -/
def ofStr? : Option String → Json
  | some s => .str s
  | none => .null

/-- An array of texts. -/
def ofStrs (xs : List String) : Json := .arr (xs.map .str)

/-- A natural number. -/
def ofNat (n : Nat) : Json := .int n

end Json

end JavaAtlas
