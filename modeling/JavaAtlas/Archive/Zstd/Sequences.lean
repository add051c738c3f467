import JavaAtlas.Archive.Zstd.Transition

namespace JavaAtlas.Archive.Zstd

/-! # Sequences

Behind the literals of a block stand its sequences. Each one says how many literals to write, and
how many bytes from how far back to write again. The three numbers have codes of their own.
-/

/-! ## Bits

The bits of sequences may be used up before the last sequence, which shows only at the end. Until
then reading goes round in the first eight bytes.
-/

/-- The bits of sequences: those to come, the number of the first eight bytes, and how many bits
were read that are not there. -/
structure RoundBits where
  left : List Bool
  first : Nat
  missing : Nat := 0

/-- The bits of bytes. -/
def RoundBits.of (bytes : List UInt8) : Except ZstdError RoundBits := do
  return { left := ← backwardBits bytes, first := littleEndian (bytes.take 8) }

/-- Whether exactly the bits that are there were read. -/
def RoundBits.isDone (b : RoundBits) : Bool := b.left.isEmpty && b.missing = 0

/-- The bits behind the next `count` bits. -/
def RoundBits.drop (b : RoundBits) (count : Nat) : RoundBits :=
  { b with left := b.left.drop count, missing := b.missing + (count - (b.left.take count).length) }

/-- How many of the last 64 bits were read. -/
def RoundBits.read (b : RoundBits) : Nat := 64 + b.missing - b.left.length

/-- A step of reading sequences. -/
abbrev SequenceReader := StateT RoundBits (Except ZstdError)

/-- Reads a number of `count` bits that is added to another one. -/
def addedNumber (count : Nat) : SequenceReader Nat := do
  let b ← get
  set (b.drop count)
  if hasBits count b.left then return peek 0 count b.left
  else return ((b.first <<< (b.read % 64)) % (1 <<< 64)) >>> (64 - count)

/-- Reads a number of `count` bits that leads to a state. -/
def stateNumber (count : Nat) : SequenceReader Nat := do
  let b ← get
  set (b.drop count)
  if hasBits count b.left then return peek 0 count b.left
  else return (b.first >>> ((64 * (count + 2) - b.read % 64 - count) % 64)) % (1 <<< count)

/-- Reads the state of a code to start with. -/
def StateCode.startState (code : StateCode) : SequenceReader Transition := do
  return code.states[← stateNumber code.log]?.getD default

/-- Reads the state of a code behind a state. -/
def StateCode.nextState (code : StateCode) (state : Transition) : SequenceReader Transition := do
  return code.states[state.base + (← stateNumber state.bits)]?.getD default

/-! ## Numbers -/

/-- The numbers that symbols stand for: the number of a symbol, and how many bits say how much is
added to it. -/
structure NumberTable where
  numbers : Array (Nat × Nat)

/-- The table in which each symbol has so many bits, and the numbers follow each other without a
gap. -/
def NumberTable.from (start : Nat) (bits : List Nat) : NumberTable :=
  { numbers := (bits.foldl (fun (found, number) b => (found.push (number, b), number + 1 <<< b))
      (#[], start)).1 }

/-- Reads the number of a symbol. -/
def NumberTable.read (table : NumberTable) (symbol : Nat) : SequenceReader Nat := do
  let (number, bits) := table.numbers[symbol]?.getD (0, 0)
  return number + (← addedNumber bits)

/-- The number of symbols. -/
def NumberTable.size (table : NumberTable) : Nat := table.numbers.size

/-- How many literals are written. -/
def literalLengths : NumberTable :=
  .from 0 (List.replicate 16 0 ++
    [1, 1, 1, 1, 2, 2, 3, 3, 4, 6, 7, 8, 9, 10, 11, 12, 13, 14, 15, 16])

/-- How many bytes are written again. -/
def matchLengths : NumberTable :=
  .from 3 (List.replicate 32 0 ++
    [1, 1, 1, 1, 2, 2, 3, 3, 4, 4, 5, 7, 8, 9, 10, 11, 12, 13, 14, 15, 16])

/-- How far back: three more than the distance, or the place among the last distances. -/
def distances : NumberTable := .from 1 (List.range 32)

/-! ## Codes -/

/-- The codes of the three numbers. -/
structure SequenceCodes where
  literal : StateCode
  distance : StateCode
  matching : StateCode
deriving Inhabited

/-- The codes of a block that brings none. -/
def usualCodes : SequenceCodes :=
  { literal := stateCode 6 (sharesOf
      [4, 3, 2, 2, 2, 2, 2, 2, 2, 2, 2, 2, 2, 1, 1, 1, 2, 2, 2, 2, 2, 2, 2, 2, 2, 3, 2, 1, 1, 1, 1,
        1, -1, -1, -1, -1])
    distance := stateCode 5 (sharesOf
      [1, 1, 1, 1, 1, 1, 2, 2, 2, 1, 1, 1, 1, 1, 1, 1, 1, 1, 1, 1, 1, 1, 1, 1, -1, -1, -1, -1, -1])
    matching := stateCode 6 (sharesOf
      [1, 4, 3, 2, 2, 2, 2, 2, 2, 1, 1, 1, 1, 1, 1, 1, 1, 1, 1, 1, 1, 1, 1, 1, 1, 1, 1, 1, 1, 1, 1,
        1, 1, 1, 1, 1, 1, 1, 1, 1, 1, 1, 1, 1, 1, 1, -1, -1, -1, -1, -1, -1, -1]) }

/-- Reads the code of a number at the start of bytes, and gives the bytes behind it. `form` says
whether it is the usual one, means one symbol, is written out, or is that of the block before. -/
def numberCode (table : NumberTable) (maxLog form : Nat) (usual : StateCode)
    (last : Option StateCode) (bytes : List UInt8) : Except ZstdError (StateCode × List UInt8) :=
  match form with
  | 0 => .ok (usual, bytes)
  | 1 =>
    match bytes with
    | [] => .error .corrupt
    | b :: rest => if b.toNat < table.size then .ok (.always b.toNat, rest) else .error .corrupt
  | 2 => readStateCode table.size maxLog bytes
  | _ =>
    match last with
    | none => .error .corrupt
    | some code => .ok (code, bytes)

/-- Reads how many sequences there are, and gives the bytes behind. -/
def sequenceCount : List UInt8 → Except ZstdError (Nat × List UInt8)
  | [] => .error .wrongSize
  | head :: rest =>
    if head < 128 then .ok (head.toNat, rest)
    else if head = 255 then
      if rest.length < 2 then .error .wrongSize
      else .ok (littleEndian (rest.take 2) + 0x7F00, rest.drop 2)
    else
      match rest with
      | [] => .error .wrongSize
      | low :: rest => .ok ((head.toNat - 128) * 256 + low.toNat, rest)

/-- Reads the codes of the sequences, and gives the bytes behind them. -/
def sequenceCodes (last : Option SequenceCodes) : List UInt8 →
    Except ZstdError (SequenceCodes × List UInt8)
  | [] => .error .wrongSize
  | forms :: rest => do
    let forms := forms.toNat
    if forms % 4 ≠ 0 then .error .corrupt
    else
      let (literal, rest) ← numberCode literalLengths 9 (forms / 64) usualCodes.literal
        (last.map (·.literal)) rest
      let (distance, rest) ← numberCode distances 8 (forms / 16 % 4) usualCodes.distance
        (last.map (·.distance)) rest
      let (matching, rest) ← numberCode matchLengths 9 (forms / 4 % 4) usualCodes.matching
        (last.map (·.matching)) rest
      return ({ literal, distance, matching }, rest)

/-! ## Distances -/

/-- The last three distances. -/
structure Recent where
  first : Nat := 1
  second : Nat := 4
  third : Nat := 8
deriving DecidableEq, Inhabited, Repr

/-- The distance that a number stands for, and the last distances then. The first three numbers
mean the last distances; behind no literals they mean one later, and the third then the first one
less 1. -/
def Recent.distance (r : Recent) (number literalLength : Nat) : Nat × Recent :=
  if number > 3 then (number - 3, { first := number - 3, second := r.first, third := r.second })
  else
    match if literalLength = 0 then number + 1 else number with
    | 1 => (r.first, r)
    | 2 => (r.second, { r with first := r.second, second := r.first })
    | 3 => (r.third, { first := r.third, second := r.first, third := r.second })
    | _ => (r.first - 1, { first := r.first - 1, second := r.first, third := r.second })

/-! ## Writing -/

/-- What is written of a block: the bytes of the frame so far, the literals to come, and how many
bytes there is room for. -/
structure Writing where
  output : Array UInt8
  literals : List UInt8
  room : Nat
  recent : Recent

/-- Writes again `count` bytes from `distance` bytes back. -/
def copyBack (distance : Nat) : Nat → Array UInt8 → Array UInt8
  | 0, output => output
  | count + 1, output =>
    copyBack distance count (output.push (output[output.size - distance]?.getD 0))

/-- Writes literals, and then bytes again. -/
def Writing.sequence (w : Writing) (literalLength distance matchLength : Nat) :
    Except ZstdError Writing :=
  if literalLength + matchLength > w.room then .error .noRoom
  else
    let taken := w.literals.take literalLength
    if taken.length < literalLength then .error .corrupt
    else
      let output := w.output ++ taken.toArray
      if distance = 0 ∨ distance > output.size then .error .corrupt
      else .ok { w with
        output := copyBack distance matchLength output
        literals := w.literals.drop literalLength
        room := w.room - (literalLength + matchLength) }

/-- Writes the literals that are left. -/
def Writing.finish (w : Writing) : Except ZstdError Writing :=
  if w.literals.length > w.room then .error .noRoom
  else .ok { w with
    output := w.output ++ w.literals.toArray
    literals := []
    room := w.room - w.literals.length }

/-- The states of the three codes. -/
structure States where
  literal : Transition
  distance : Transition
  matching : Transition

/-- Reads and writes `count` sequences. Behind the last one no states are read. -/
def sequencesFrom (codes : SequenceCodes) : Nat → States → Writing → SequenceReader Writing
  | 0, _, w => return w
  | count + 1, s, w => do
    let number ← distances.read s.distance.symbol
    let matchLength ← matchLengths.read s.matching.symbol
    let literalLength ← literalLengths.read s.literal.symbol
    let (distance, recent) := w.recent.distance number literalLength
    let w := { w with recent }
    if count = 0 then w.sequence literalLength distance matchLength
    else
      let literal ← codes.literal.nextState s.literal
      let matching ← codes.matching.nextState s.matching
      let next ← codes.distance.nextState s.distance
      let w ← w.sequence literalLength distance matchLength
      sequencesFrom codes count { literal, matching, distance := next } w

/-- Reads and writes all sequences. -/
def sequences (codes : SequenceCodes) (count : Nat) (w : Writing) : SequenceReader Writing := do
  let literal ← codes.literal.startState
  let distance ← codes.distance.startState
  let matching ← codes.matching.startState
  let w ← sequencesFrom codes count { literal, distance, matching } w
  if (← get).isDone then return w else throw .corrupt

end JavaAtlas.Archive.Zstd
