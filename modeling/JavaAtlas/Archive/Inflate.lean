import JavaAtlas.Archive.Bits

namespace JavaAtlas.Archive

/-! # Inflating

Bytes that were packed by replacing repetitions with references back and writing everything with
variable-length codes. References may go back behind the first byte; what lies there is zero.
-/

/-- Why packed bytes cannot be unpacked. -/
inductive InflateError where
  /-- They end too early. -/
  | incomplete
  /-- They mean nothing. -/
  | corrupt
deriving DecidableEq, Inhabited, Repr

/-- The wording of an error. -/
def InflateError.text : InflateError → String
  | .incomplete => "incomplete deflate stream"
  | .corrupt => "corrupt deflate stream"

/-- What unpacking keeps: the bits to come and the bytes so far. -/
structure Inflater where
  bits : List Bool
  output : Array UInt8 := #[]

/-- A step of unpacking. -/
abbrev Inflate := StateT Inflater (Except InflateError)

namespace Inflate

/-- Reads one bit. -/
def bit : Inflate Nat := do
  match (← get).bits with
  | [] => throw .incomplete
  | b :: rest =>
    modify fun s => { s with bits := rest }
    return b.toNat

/-- Reads a number of `count` bits, low bits first. -/
def number : Nat → Inflate Nat
  | 0 => return 0
  | count + 1 => do
    let low ← bit
    return low + 2 * (← number count)

/-- Writes a byte. -/
def emit (b : UInt8) : Inflate Unit := modify fun s => { s with output := s.output.push b }

/-- Writes again `count` bytes from `distance` bytes back. -/
def copy (distance : Nat) : Nat → Inflate Unit
  | 0 => return ()
  | count + 1 => do
    let out := (← get).output
    emit (if out.size < distance then 0 else out[out.size - distance]?.getD 0)
    copy distance count

/-! ## Codes -/

/-- A prefix code. -/
inductive Code where
  /-- No symbol has a code. -/
  | empty
  /-- One symbol has a code, which is so many zeros. -/
  | single (length symbol : Nat)
  /-- For every length, shortest first, the symbols with codes of that length. -/
  | full (byLength : List (List Nat))

/-- The longest codes have so many bits. -/
def maxLength : Nat := 15

/-- The code in which symbol `i` has the `i`-th length; symbols of length zero do not occur. -/
def codeOf (lengths : List Nat) : Code :=
  match lengths.zipIdx.filter (·.1 ≠ 0) with
  | [] => .empty
  | [(length, symbol)] => .single length symbol
  | used =>
    .full ((List.range maxLength).map fun l =>
      used.filterMap fun (length, symbol) => if length = l + 1 then some symbol else none)

/-- Whether every sequence of bits begins with exactly one code. -/
def isFull (lengths : List Nat) : Bool :=
  let total := (lengths.filter (· ≠ 0)).foldl (fun sum l => sum + 1 <<< (maxLength - l)) 0
  total = 1 <<< maxLength

/-- Whether a code can be used: it is full, or has at most one symbol. -/
def isUsable (lengths : List Nat) : Bool :=
  isFull lengths || (lengths.filter (· ≠ 0)).length ≤ 1

/-- Reads so many zeros. -/
def expectZeros : Nat → Inflate Unit
  | 0 => return ()
  | count + 1 => do
    if (← bit) = 0 then expectZeros count else throw .corrupt

/-- Reads a symbol. `value` is the number of the code read so far, and `first` that of the first
code of this length, which is never greater. -/
def symbolIn (value first : Nat) : List (List Nat) → Inflate Nat
  | [] => throw .corrupt
  | symbols :: longer => do
    let value := value + (← bit)
    match symbols[value - first]? with
    | some symbol => return symbol
    | none => symbolIn (2 * value) (2 * (first + symbols.length)) longer

/-- Reads a symbol of a code. -/
def symbol : Code → Inflate Nat
  | .empty => do
    let _ ← bit
    throw .corrupt
  | .single length symbol => do
    expectZeros length
    return symbol
  | .full byLength => symbolIn 0 0 byLength

/-! ## Blocks -/

/-- The shortest length of each length symbol, and how many bits say how much longer it is. -/
def lengthTable : List (Nat × Nat) :=
  [(3, 0), (4, 0), (5, 0), (6, 0), (7, 0), (8, 0), (9, 0), (10, 0), (11, 1), (13, 1), (15, 1),
    (17, 1), (19, 2), (23, 2), (27, 2), (31, 2), (35, 3), (43, 3), (51, 3), (59, 3), (67, 4),
    (83, 4), (99, 4), (115, 4), (131, 5), (163, 5), (195, 5), (227, 5), (258, 0)]

/-- The shortest distance of each distance symbol, and how many bits say how much longer it is. -/
def distanceTable : List (Nat × Nat) :=
  [(1, 0), (2, 0), (3, 0), (4, 0), (5, 1), (7, 1), (9, 2), (13, 2), (17, 3), (25, 3), (33, 4),
    (49, 4), (65, 5), (97, 5), (129, 6), (193, 6), (257, 7), (385, 7), (513, 8), (769, 8),
    (1025, 9), (1537, 9), (2049, 10), (3073, 10), (4097, 11), (6145, 11), (8193, 12), (12289, 12),
    (16385, 13), (24577, 13)]

/-- Reads the rest of a value whose symbol has been read. -/
def extended (table : List (Nat × Nat)) (symbol : Nat) : Inflate Nat := do
  match table[symbol]? with
  | some (base, bits) => return base + (← number bits)
  | none => throw .corrupt

/-- Reads literal bytes and references back up to the end of the block. Every turn takes at least
one bit, so `fuel` need not be more than the number of bits. -/
def codedBlock (literals distances : Code) : Nat → Inflate Unit
  | 0 => throw .incomplete
  | fuel + 1 => do
    let s ← symbol literals
    if s < 256 then
      emit (UInt8.ofNat s)
      codedBlock literals distances fuel
    else if s = 256 then return ()
    else
      let length ← extended lengthTable (s - 257)
      let distance ← extended distanceTable (← symbol distances)
      copy distance length
      codedBlock literals distances fuel

/-- Drops the bits up to the next whole byte. -/
def alignByte : Inflate Unit :=
  modify fun s => { s with bits := s.bits.drop (s.bits.length % 8) }

/-- Writes `count` bytes as they are. -/
def plainBytes : Nat → Inflate Unit
  | 0 => return ()
  | count + 1 => do
    emit (UInt8.ofNat (← number 8))
    plainBytes count

/-- Reads a block of bytes that are not packed. -/
def plainBlock : Inflate Unit := do
  alignByte
  let length ← number 16
  let check ← number 16
  if length + check = 65535 then plainBytes length else throw .corrupt

/-- The order in which the lengths of the codes for lengths are written. -/
def lengthOrder : List Nat := [16, 17, 18, 0, 8, 7, 9, 6, 10, 5, 11, 4, 12, 3, 13, 2, 14, 1, 15]

/-- Reads `count` values. -/
def times (read : Inflate Nat) : Nat → Inflate (List Nat)
  | 0 => return []
  | count + 1 => do
    let value ← read
    return value :: (← times read count)

/-- Reads `count` lengths of codes, in which runs are shortened. -/
def codeLengths (code : Code) (count : Nat) : Nat → List Nat → Inflate (List Nat)
  | 0, _ => throw .incomplete
  | fuel + 1, found => do
    if found.length = count then return found
    else if found.length > count then throw .corrupt
    else
      let s ← symbol code
      if s < 16 then codeLengths code count fuel (found ++ [s])
      else if s = 16 then
        match found.getLast? with
        | none => throw .corrupt
        | some last =>
          codeLengths code count fuel (found ++ List.replicate (3 + (← number 2)) last)
      else if s = 17 then
        codeLengths code count fuel (found ++ List.replicate (3 + (← number 3)) 0)
      else codeLengths code count fuel (found ++ List.replicate (11 + (← number 7)) 0)

/-- Reads a block that brings its own codes. -/
def ownCodesBlock : Inflate Unit := do
  let literalCount := 257 + (← number 5)
  let distanceCount := 1 + (← number 5)
  let lengthCount := 4 + (← number 4)
  if literalCount > 286 ∨ distanceCount > 30 then throw .corrupt
  else
    let written ← times (number 3) lengthCount
    let lengths := (List.range 19).map fun s =>
      ((lengthOrder.zip written).lookup s).getD 0
    if !isFull lengths then throw .corrupt
    else
      let count := literalCount + distanceCount
      let all ← codeLengths (codeOf lengths) count (count + 1) []
      let literals := all.take literalCount
      let distances := all.drop literalCount
      if !isUsable literals || !isUsable distances then throw .corrupt
      else codedBlock (codeOf literals) (codeOf distances) ((← get).bits.length + 1)

/-- The lengths of the codes for literals in a block without codes of its own. -/
def fixedLiterals : List Nat :=
  List.replicate 144 8 ++ List.replicate 112 9 ++ List.replicate 24 7 ++ List.replicate 8 8

/-- The lengths of the codes for distances in a block without codes of its own. -/
def fixedDistances : List Nat := List.replicate 32 5

/-- Reads blocks up to the last one. Every block takes at least three bits. -/
def blocks : Nat → Inflate Unit
  | 0 => throw .incomplete
  | fuel + 1 => do
    let last ← bit
    match ← number 2 with
    | 0 => plainBlock
    | 1 => codedBlock (codeOf fixedLiterals) (codeOf fixedDistances) ((← get).bits.length + 1)
    | 2 => ownCodesBlock
    | _ => throw .corrupt
    if last = 1 then return () else blocks fuel

end Inflate

/-- What packed bytes stand for. Bytes behind the last block do not count. -/
def inflate (packed : List UInt8) : Except InflateError (List UInt8) :=
  let bits := lowBitsFirst packed
  match (Inflate.blocks (bits.length + 1)).run { bits } with
  | .ok ((), state) => .ok state.output.toList
  | .error e => .error e

end JavaAtlas.Archive
