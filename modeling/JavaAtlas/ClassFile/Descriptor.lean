import JavaAtlas.ClassFile.Reader

namespace JavaAtlas.ClassFile

/-! # Descriptors

The types of fields and methods are written with one letter per primitive type, `L name ;` for a
class and `[` in front of the type of an array's elements.
-/

/-- An internal name with dots for slashes. -/
def binaryName (internal : String) : String :=
  String.ofList (internal.toList.map fun c => if c = '/' then '.' else c)

/-- An internal name as it is written in source: nested classes too have dots. -/
def javaName (internal : String) : String :=
  String.ofList (internal.toList.map fun c => if c = '/' ∨ c = '$' then '.' else c)

/-- The type of a letter. -/
def primitive? : Char → Option String
  | 'B' => some "byte"
  | 'C' => some "char"
  | 'D' => some "double"
  | 'F' => some "float"
  | 'I' => some "int"
  | 'J' => some "long"
  | 'S' => some "short"
  | 'Z' => some "boolean"
  | _ => none

/-- A byte, shown as a character. -/
def byteChar (b : UInt8) : Char := Char.ofNat b.toNat

/-- The byte that ends the name of a class. -/
def semicolon : UInt8 := 0x3B

/-- Reads the name of a class and the semicolon behind it. -/
def readClassName (bytes : List UInt8) : Except ClassError (String × List UInt8) :=
  match bytes.dropWhile (· != semicolon) with
  | [] => .error (.invalidDescriptor "unterminated reference descriptor")
  | _ :: after =>
    match Utf8.decode (bytes.takeWhile (· != semicolon)) with
    | .ok internal => .ok (javaName internal, after)
    | .error fault => .error (.utf8 fault)

/-- Reads a type off the front of the bytes of a descriptor. -/
def readType : List UInt8 → Except ClassError (String × List UInt8)
  | [] => .error (.invalidDescriptor "truncated descriptor")
  | b :: rest =>
    match byteChar b with
    | '[' => do
      let (element, rest) ← readType rest
      return (element ++ "[]", rest)
    | 'L' => readClassName rest
    | tag =>
      match primitive? tag with
      | some name => .ok (name, rest)
      | none =>
        .error (.invalidDescriptor
          ("unexpected descriptor tag '" ++ String.singleton tag ++ "'"))

/-- The type of a field. -/
def fieldType (descriptor : String) : Except ClassError String := do
  match ← readType (Utf8.utf8Bytes descriptor) with
  | (type, []) => return type
  | (_, _ :: _) => throw (.invalidDescriptor descriptor)

/-- The name of a class takes at least the semicolon behind it. -/
theorem length_lt_of_readClassName {bytes rest : List UInt8} {type : String}
    (h : readClassName bytes = .ok (type, rest)) : rest.length < bytes.length := by
  unfold readClassName at h
  have hle := (List.dropWhile_suffix (· != semicolon) (l := bytes)).length_le
  split at h
  · cases h
  next b after heq =>
    rw [heq, List.length_cons] at hle
    split at h
    · cases h
      omega
    · cases h

/-- A type takes at least one byte, so that reading types one after the other comes to an end. -/
theorem length_lt_of_readType {bytes rest : List UInt8} {type : String}
    (h : readType bytes = .ok (type, rest)) : rest.length < bytes.length := by
  induction bytes generalizing type with
  | nil => cases h
  | cons b more ih =>
    rw [List.length_cons]
    unfold readType at h
    split at h
    · cases hread : readType more with
      | error e =>
        rw [hread] at h
        cases h
      | ok r =>
        rw [hread] at h
        cases h
        exact Nat.lt_succ_of_lt (ih hread)
    · exact Nat.lt_succ_of_lt (length_lt_of_readClassName h)
    · split at h
      · cases h
        exact Nat.lt_succ_self _
      · cases h

/-- Reads types up to a closing parenthesis. -/
def readParams (bytes : List UInt8) : Except ClassError (List String × List UInt8) :=
  match bytes with
  | [] => .error (.invalidDescriptor "truncated descriptor")
  | b :: rest =>
    if byteChar b = ')' then .ok ([], rest)
    else
      match _h : readType (b :: rest) with
      | .error e => .error e
      | .ok (type, rest) => do
        let (types, rest) ← readParams rest
        return (type :: types, rest)
termination_by bytes.length
decreasing_by exact length_lt_of_readType _h

/-- Reads what a method gives back: a type, or a letter for nothing. -/
def readResult (bytes : List UInt8) : Except ClassError (String × List UInt8) :=
  match bytes with
  | [] => .error (.invalidDescriptor "truncated descriptor")
  | b :: rest => if byteChar b = 'V' then .ok ("void", rest) else readType (b :: rest)

/-- The parameters and the result of a method. -/
def methodType (descriptor : String) : Except ClassError (List String × String) :=
  match Utf8.utf8Bytes descriptor with
  | [] => .error (.invalidDescriptor "truncated descriptor")
  | b :: rest =>
    if byteChar b = '(' then do
      let (params, rest) ← readParams rest
      let (result, rest) ← readResult rest
      if rest.isEmpty then return (params, result) else throw (.invalidDescriptor descriptor)
    else .error (ClassError.invalidDescriptor "expected '(' in descriptor")

end JavaAtlas.ClassFile
