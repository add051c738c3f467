import JavaAtlas.Archive.Zstd.Transition

namespace JavaAtlas.Archive.Zstd

/-! # Literals

A block begins with its literal bytes: as they are, one byte repeated, or written with a prefix
code. The code is given by weights: a greater weight is a shorter code.
-/

/-- A prefix code: for every sequence of `log` bits the byte with whose code it begins, and the
length of that code. -/
structure ByteCode where
  log : Nat
  entries : Array (UInt8 × Nat)

/-! ## Weights -/

/-- The longest codes have so many bits. -/
def maxCodeLog : Nat := 12

/-- So many weights are written at most; one more follows from them. -/
def maxWeights : Nat := 255

/-- Reads weights with two states in turn until the bits end; then the other state gives the last
weight. -/
def weightsFrom (code : StateCode) : Nat → Transition → Transition → List Nat →
    BitReader (List Nat)
  | 0, _, _, _ => throw .corrupt
  | fuel + 1, state, other, found => do
    if found.length + 2 > maxWeights then throw .corrupt
    else
      let found := found ++ [state.symbol]
      if (← get).length < state.bits then return found ++ [other.symbol]
      else weightsFrom code fuel other (← code.next state) found

/-- The weights of codes with states have at most these symbols. -/
def maxWeightSymbols (log : Nat) : Nat := if log < 6 then 92 else 12

/-- The weights that packed bytes stand for. -/
def packedWeights (bytes : List UInt8) : Except ZstdError (List Nat) := do
  let ((log, shares), rest) ← (shares 256).run (lowBitsFirst bytes)
  if log > 6 ∨ shares.length > maxWeightSymbols log then .error .corrupt
  else
    let code := stateCode log shares
    let bits ← backwardBits (bytes.drop (bytes.length - rest.length / 8))
    let read : BitReader (List Nat) := do
      let state ← code.start
      let other ← code.start
      weightsFrom code maxWeights state other []
    return (← read.run bits).1

/-- Reads the weights at the start of bytes, and gives the bytes behind them. -/
def writtenWeights : List UInt8 → Except ZstdError (List Nat × List UInt8)
  | [] => .error .corrupt
  | head :: rest =>
    if head < 128 then do
      let size := head.toNat
      if rest.length < size then .error .corrupt
      else return (← packedWeights (rest.take size), rest.drop size)
    else
      let count := head.toNat - 127
      let size := (count + 1) / 2
      if rest.length < size then .error .corrupt
      else
        let halves := (rest.take size).flatMap fun b => [b.toNat / 16, b.toNat % 16]
        .ok (halves.take count, rest.drop size)

/-- How many sequences of bits a weight stands for. -/
def weightCells (weight : Nat) : Nat := (1 <<< weight) / 2

/-- The code of bytes with these weights. The last weight is not written: it is the one that
fills the code. -/
def byteCode (weights : List Nat) : Except ZstdError ByteCode :=
  let total := weights.foldl (fun sum w => sum + weightCells w) 0
  let log := total.log2 + 1
  let left := (1 <<< log) - total
  if weights.any (· > maxCodeLog) ∨ total = 0 ∨ log > maxCodeLog ∨ 1 <<< left.log2 ≠ left then
    .error .corrupt
  else
    let weights := weights ++ [left.log2 + 1]
    let longest := weights.countP (· == 1)
    if longest < 2 ∨ longest % 2 = 1 then .error .corrupt
    else
      .ok { log
            entries := ((List.range log).flatMap fun w =>
              (weights.zipIdx.filter (·.1 = w + 1)).flatMap fun (_, byte) =>
                List.replicate (weightCells (w + 1)) (UInt8.ofNat byte, log - w)).toArray }

/-- Reads the code at the start of bytes, and gives the bytes behind it, of which there must be
some. -/
def readByteCode (bytes : List UInt8) : Except ZstdError (ByteCode × List UInt8) := do
  let (weights, rest) ← writtenWeights bytes
  let code ← byteCode weights
  if rest.isEmpty then .error .corrupt else return (code, rest)

/-! ## Coded bytes -/

/-- Reads so many bytes behind those that were found. -/
def codedBytes (code : ByteCode) : Nat → Array UInt8 → BitReader (Array UInt8)
  | 0, found => return found
  | count + 1, found => do
    let bits ← get
    let (byte, length) := code.entries[peek 0 code.log bits]?.getD (0, 0)
    if hasBits length bits then
      set (bits.drop length)
      codedBytes code count (found.push byte)
    else throw .corrupt

/-- The `size` bytes that one stream stands for. -/
def oneStream (code : ByteCode) (size : Nat) (bytes : List UInt8) :
    Except ZstdError (Array UInt8) := do
  readAll (codedBytes code size #[]) (← backwardBits bytes)

/-! Four long streams are read together. None of them is checked at its end: it may use fewer bits
than it has, or go on with the bytes in front of it as long as it does not get too far, and with
zeros in front of all bytes. -/

/-- A long stream: where it starts, the bits to come down to the first byte in front of all
streams, how many bytes it stands for, and the bytes found. -/
structure LongStream where
  start : Nat
  bits : List Bool
  size : Nat
  found : Array UInt8 := #[]

/-- A stream that starts and stops at these places. -/
def LongStream.at (bytes : List UInt8) (size start stop : Nat) : LongStream :=
  let bits := highBitsFirst (bytes.take stop).reverse
  let isMarked := (bits.take 8).any id
  { start, size, bits := if isMarked then (bits.dropWhile (!·)).tail else bits }

/-- The place of the eight bytes that hold the next bits. -/
def LongStream.place (s : LongStream) : Int := (s.bits.length + 7 : Int) / 8 - 8

/-- Reads so many bytes. -/
def LongStream.read (code : ByteCode) : Nat → LongStream → LongStream
  | 0, s => s
  | count + 1, s =>
    let (byte, length) := code.entries[peek 0 code.log s.bits]?.getD (0, 0)
    LongStream.read code count { s with found := s.found.push byte, bits := s.bits.drop length }

/-- Reads streams together, five bytes of each at a time, while the last one has `left` bytes to
come and no stream has passed the one in front of it. -/
def readTogether (code : ByteCode) : Nat → Nat → List LongStream → List LongStream
  | 0, _, streams => streams
  | fuel + 1, left, streams =>
    let places := streams.map LongStream.place
    let rounds := min (left / 5) ((places.headD 0).toNat / 7)
    if rounds = 0 || (places.zip places.tail).any (fun (p, q) => q < p) then streams
    else readTogether code fuel (left - 5 * rounds) (streams.map (·.read code (5 * rounds)))

/-- Reads the rest of a stream. -/
def LongStream.finish (code : ByteCode) (s : LongStream) : Except ZstdError (Array UInt8) :=
  if s.place + 8 < s.start then .error .corrupt
  else .ok (s.read code (s.size - s.found.size)).found

/-- Streams of so many bytes are long. -/
def longStreamSize : Nat := 8

/-- Codes with more bits are not used for long streams. -/
def longStreamLog : Nat := 11

/-- The `size` bytes that four streams stand for, each of them a quarter. In front of the streams
stand the sizes of the first three. -/
def fourStreams (code : ByteCode) (size : Nat) (bytes : List UInt8) :
    Except ZstdError (Array UInt8) := do
  if bytes.length < 10 then .error .corrupt
  else
    let end1 := 6 + littleEndian (bytes.take 2)
    let end2 := end1 + littleEndian ((bytes.drop 2).take 2)
    let end3 := end2 + littleEndian ((bytes.drop 4).take 2)
    if bytes.length < end3 then .error .corrupt
    else
      let quarter := (size + 3) / 4
      let last := size - 3 * quarter
      let parts := [(quarter, 6, end1), (quarter, end1, end2), (quarter, end2, end3),
        (last, end3, bytes.length)]
      let areLong := code.log ≤ longStreamLog && last > 0 &&
        parts.all fun (_, start, stop) => stop - start ≥ longStreamSize
      let found ← if areLong then do
          let streams := parts.map fun (size, start, stop) => LongStream.at bytes size start stop
          (readTogether code (last + 1) last streams).mapM (·.finish code)
        else parts.mapM fun (size, start, stop) =>
          oneStream code size ((bytes.take stop).drop start)
      return found.foldl (· ++ ·) #[]

/-! ## The literals of a block -/


/-- The literals of a block: their bytes, the code that later blocks may use, and the bytes of the
block behind them. -/
structure Literals where
  bytes : Array UInt8
  code : Option ByteCode
  rest : List UInt8

/-- Literals must fit in a block and in the room that there is. -/
def checkLiteralSize (limit room size : Nat) : Except ZstdError Unit :=
  if size > limit then .error .corrupt
  else if size > room then .error .noRoom
  else .ok ()

/-- Reads literals that are not coded. -/
def uncodedLiterals (limit room : Nat) (code : Option ByteCode) (isRepeated : Bool) (head : Nat)
    (bytes : List UInt8) : Except ZstdError Literals := do
  let (headSize, size) :=
    match head / 4 % 4 with
    | 1 => (2, littleEndian (bytes.take 2) / 16)
    | 3 => (3, littleEndian (bytes.take 3) / 16)
    | _ => (1, head / 8)
  let needed := if isRepeated then headSize + 1 else headSize
  if bytes.length < needed then .error .corrupt
  else
    checkLiteralSize limit room size
    let rest := bytes.drop headSize
    if isRepeated then
      return { bytes := Array.replicate size (rest.headD 0), code, rest := rest.drop 1 }
    else if rest.length < size then .error .corrupt
    else return { bytes := (rest.take size).toArray, code, rest := rest.drop size }

/-- Four streams must have so many literals. -/
def minFourStreams : Nat := 6

/-- Reads literals that are coded. -/
def codedLiterals (limit room : Nat) (code : Option ByteCode) (head : Nat) (bytes : List UInt8) :
    Except ZstdError Literals := do
  if bytes.length < 5 then .error .corrupt
  else
    let form := head / 4 % 4
    let (headSize, width) :=
      match form with
      | 2 => (4, 14)
      | 3 => (5, 18)
      | _ => (3, 10)
    let numbers := littleEndian (bytes.take headSize) / 16
    let size := numbers % (1 <<< width)
    let packedSize := numbers / (1 <<< width)
    if size > limit then .error .corrupt
    else if form ≠ 0 ∧ size < minFourStreams then .error .wrongLiterals
    else if headSize + packedSize > bytes.length then .error .corrupt
    else
      checkLiteralSize limit room size
      let packed := (bytes.drop headSize).take packedSize
      let rest := bytes.drop (headSize + packedSize)
      let (code, packed) ←
        match code with
        | some code => pure (code, packed)
        | none => readByteCode packed
      let literals ← if form = 0 then oneStream code size packed else fourStreams code size packed
      return { bytes := literals, code := some code, rest }

/-- Reads the literals at the start of a block of at most `limit` bytes, for which there is room
for `room` bytes. `last` is the code of the blocks before. -/
def literals (limit room : Nat) (last : Option ByteCode) (bytes : List UInt8) :
    Except ZstdError Literals := do
  if bytes.length < 2 then .error .corrupt
  else
    let head := (bytes.headD 0).toNat
    match head % 4 with
    | 0 => uncodedLiterals limit room last false head bytes
    | 1 => uncodedLiterals limit room last true head bytes
    | 2 => codedLiterals limit room none head bytes
    | _ =>
      match last with
      | none => .error .codeMissing
      | some code => codedLiterals limit room (some code) head bytes

end JavaAtlas.Archive.Zstd
