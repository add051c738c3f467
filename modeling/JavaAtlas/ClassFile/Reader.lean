import JavaAtlas.Text.Utf8

namespace JavaAtlas.ClassFile

/-! # Reading bytes

A reader takes bytes off the front of a list. Numbers are big-endian.
-/

/-- Why bytes are no class file. -/
inductive ClassError where
  | unexpectedEof
  | invalidMagic
  | unsupportedConstant (tag : Nat)
  | invalidConstantIndex (index : Nat)
  | utf8 (fault : Utf8Fault)
  | invalidDescriptor (reason : String)
  | invalidElementTag (tag : Nat)
deriving DecidableEq, Inhabited, Repr

namespace ClassError

/-- The name of the error. -/
def code : ClassError → String
  | .unexpectedEof => "UnexpectedEof"
  | .invalidMagic => "InvalidMagic"
  | .unsupportedConstant _ => "UnsupportedConstant"
  | .invalidConstantIndex _ => "InvalidConstantIndex"
  | .utf8 _ => "Utf8Decode"
  | .invalidDescriptor _ => "InvalidDescriptor"
  | .invalidElementTag _ => "InvalidElementTag"

/-- The wording of the error. -/
def message : ClassError → String
  | .unexpectedEof => "unexpected end of class file"
  | .invalidMagic => "invalid class file magic header"
  | .unsupportedConstant tag => s!"unsupported constant pool tag {tag}"
  | .invalidConstantIndex index => s!"invalid constant pool index {index}"
  | .utf8 fault => "invalid UTF-8 string in constant pool: " ++ fault.text
  | .invalidDescriptor reason => s!"malformed descriptor: {reason}"
  | .invalidElementTag tag =>
    "unknown annotation element tag '" ++ String.singleton (Char.ofNat tag) ++ "'"

end ClassError

/-- A reader of bytes. -/
abbrev Reader := StateT (List UInt8) (Except ClassError)

/-- Gives up. -/
def fail {α : Type} (e : ClassError) : Reader α := fun _ => .error e

/-- Takes a value that may be missing. -/
def require {α : Type} : Except ClassError α → Reader α
  | .ok a => pure a
  | .error e => fail e

/-- The number that big-endian bytes stand for. -/
def bigEndian (bytes : List UInt8) : Nat := bytes.foldl (fun n b => n * 256 + b.toNat) 0

/-- Takes `count` bytes off a list; none if there are fewer. -/
def takeBytes? : Nat → List UInt8 → Option (List UInt8 × List UInt8)
  | 0, rest => some ([], rest)
  | _ + 1, [] => none
  | count + 1, b :: rest => (takeBytes? count rest).map fun (taken, rest) => (b :: taken, rest)

/-- Reads `count` bytes. -/
def bytes (count : Nat) : Reader (List UInt8) := fun rest =>
  match takeBytes? count rest with
  | some r => .ok r
  | none => .error .unexpectedEof

/-- Reads a number of `count` bytes. -/
def number (count : Nat) : Reader Nat := do return bigEndian (← bytes count)

/-- Reads a number of one byte. -/
def u1 : Reader Nat := number 1

/-- Reads a number of two bytes. -/
def u2 : Reader Nat := number 2

/-- Reads a number of four bytes. -/
def u4 : Reader Nat := number 4

/-- Passes over `count` bytes. -/
def skip (count : Nat) : Reader Unit := do
  let _ ← bytes count
  return ()

/-- Reads `count` values one after the other. -/
def times {α : Type} (read : Reader α) : Nat → Reader (List α)
  | 0 => pure []
  | count + 1 => do
    let a ← read
    let rest ← times read count
    return a :: rest

/-- Reads a count of two bytes and so many values. -/
def counted {α : Type} (read : Reader α) : Reader (List α) := do times read (← u2)

/-- Reads from the beginning of other bytes; what is left of them does not matter. -/
def within {α : Type} (body : List UInt8) (read : Reader α) : Reader α := fun rest =>
  match read body with
  | .ok (a, _) => .ok (a, rest)
  | .error e => .error e

end JavaAtlas.ClassFile
