import JavaAtlas.Text.Letters
import JavaAtlas.Text.Blank

namespace JavaAtlas.Java

/-! # Types as text -/

/-- Drops the package in front of every dotted name. `segment` is the name being read, last
character first. -/
def dropQualifiers (segment : List Char) : List Char → List Char
  | [] => segment.reverse
  | c :: rest =>
    if isNameChar c then dropQualifiers (c :: segment) rest
    else if c = '.' ∧ segment ≠ [] then dropQualifiers [] rest
    else segment.reverse ++ c :: dropQualifiers [] rest

/-- A type without the packages of its names. -/
def presentableType (text : String) : String := String.ofList (dropQualifiers [] text.toList)

/-- The types that are not declared anywhere. -/
def primitives : List String :=
  ["void", "boolean", "byte", "short", "char", "int", "long", "float", "double"]

/-- Whether a type is primitive. -/
def isPrimitive (text : String) : Bool := primitives.contains text

/-- A type without its arguments and array brackets. -/
def erase (text : String) : String :=
  trim (String.ofList (text.toList.takeWhile fun c => c != '<' && c != '['))

/-- Splits at the commas that are not inside angle brackets. `arg` is the argument being read,
last character first. -/
def splitArgs (arg : List Char) (depth : Nat) : List Char → List (List Char)
  | [] => [arg.reverse]
  | c :: rest =>
    if c = ',' ∧ depth = 0 then arg.reverse :: splitArgs [] 0 rest
    else
      let depth := if c = '<' then depth + 1 else if c = '>' then depth - 1 else depth
      splitArgs (c :: arg) depth rest

/-- The type arguments of a type. -/
def typeArgs (text : String) : List String :=
  let chars := text.toList
  match chars.dropWhile (· != '<') with
  | [] => []
  | _ :: inner =>
    match inner.reverse.dropWhile (· != '>') with
    | [] => []
    | _ :: body =>
      ((splitArgs [] 0 body.reverse).map fun a => trim (String.ofList a)).filter (· ≠ "")

/-- A text without a beginning, or as it is. -/
def dropFront (front text : String) : String :=
  if front.toList.isPrefixOf text.toList then
    String.ofList (text.toList.drop front.length)
  else text

/-- The type for which a type argument stands; none for a wildcard without bound. -/
def boundOf? (arg : String) : Option String :=
  let arg := trim arg
  let bound :=
    if arg.startsWith "? extends " then dropFront "? extends " arg
    else dropFront "? super " arg
  let bound := trim bound
  if bound = "?" ∨ bound = "" then none else some bound

/-- The last part of a full name. -/
def simpleName (qualname : String) : String :=
  String.ofList (qualname.toList.reverse.takeWhile (· != '.')).reverse

/-- A full name as what stands before its last dot and what stands behind it. -/
def splitQualname (qualname : String) : String × String :=
  let name := simpleName qualname
  (String.ofList (qualname.toList.take (qualname.length - name.length - 1)), name)

end JavaAtlas.Java
