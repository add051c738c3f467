import JavaAtlas.ClassFile.Reader

namespace JavaAtlas.ClassFile

/-! # The constant pool

Constants are numbered from one. Those of eight bytes take up two numbers.
-/

/-- A constant, as far as it matters. -/
inductive Constant where
  | utf8 (text : String)
  | classRef (nameIndex : Nat)
  /-- Some other constant. -/
  | other
  /-- A number under which there is no constant. -/
  | unusable
deriving DecidableEq, Inhabited, Repr

/-- The constants by number. -/
structure Pool where
  entries : Array Constant
deriving Inhabited

namespace Pool

/-- The text with a number. -/
def utf8 (p : Pool) (index : Nat) : Except ClassError String :=
  match p.entries[index]? with
  | some (.utf8 text) => .ok text
  | _ => .error (.invalidConstantIndex index)

/-- The name of the class with a number. -/
def className (p : Pool) (index : Nat) : Except ClassError String :=
  match p.entries[index]? with
  | some (.classRef nameIndex) => p.utf8 nameIndex
  | _ => .error (.invalidConstantIndex index)

end Pool

/-- Reads a text of a constant. -/
def utf8Text : Reader String := do
  let body ← bytes (← u2)
  match Utf8.decode body with
  | .ok text => return text
  | .error fault => fail (.utf8 fault)

/-- Reads one constant; gives what stands under its number, and under the next if it takes up
two. -/
def constant : Reader (List Constant) := do
  let tag ← u1
  match tag with
  | 1 => return [.utf8 (← utf8Text)]
  | 7 => return [.classRef (← u2)]
  | 5 | 6 =>
    skip 8
    return [.other, .unusable]
  | 3 | 4 | 9 | 10 | 11 | 12 | 17 | 18 =>
    skip 4
    return [.other]
  | 8 | 16 | 19 | 20 =>
    skip 2
    return [.other]
  | 15 =>
    skip 3
    return [.other]
  | _ => fail (.unsupportedConstant tag)

/-- Reads constants until `count` numbers are taken; `fuel` is at least the numbers left. -/
def constants (count : Nat) : Nat → Array Constant → Reader (Array Constant)
  | 0, found => pure found
  | fuel + 1, found => do
    if found.size < count then
      let more ← constant
      constants count fuel (found ++ more.toArray)
    else return found

/-- Reads the constant pool. -/
def pool : Reader Pool := do
  let count ← u2
  return ⟨← constants count count #[.unusable]⟩

end JavaAtlas.ClassFile
