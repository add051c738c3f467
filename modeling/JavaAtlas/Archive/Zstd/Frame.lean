import JavaAtlas.Archive.Zstd.Hash
import JavaAtlas.Archive.Zstd.Literals
import JavaAtlas.Archive.Zstd.Sequences

namespace JavaAtlas.Archive

namespace Zstd

/-! # Frames

A frame has a head, blocks, and maybe a hash of the bytes. The bytes are taken in portions. A
frame that says how many bytes it has, and fits in the portion with which it begins, is unpacked
at once; another one is unpacked block by block into a buffer, from which the portions are taken.
-/

/-! ## Blocks -/

/-- No block has more bytes. -/
def maxBlockSize : Nat := 131072

/-- What a frame keeps from block to block. -/
structure FrameState where
  output : Array UInt8 := #[]
  literalCode : Option ByteCode := none
  sequenceCodes : Option SequenceCodes := none
  recent : Recent := {}

/-- Unpacks a packed block of at most `limit` bytes into so much room. -/
def packedBlock (limit room : Nat) (state : FrameState) (bytes : List UInt8) :
    Except ZstdError FrameState := do
  if bytes.length > limit then .error .wrongSize
  else
    let found ← literals limit room state.literalCode bytes
    let (count, rest) ← sequenceCount found.rest
    let writing : Writing :=
      { output := state.output, literals := found.bytes.toList, room, recent := state.recent }
    if count = 0 then
      if !rest.isEmpty then .error .corrupt
      else
        let w ← writing.finish
        return { state with output := w.output, literalCode := found.code }
    else
      let (codes, rest) ← Zstd.sequenceCodes state.sequenceCodes rest
      if room = 0 then .error .noRoom
      else
        let (w, _) ← (sequences codes count writing).run (← RoundBits.of rest)
        let w ← w.finish
        return { output := w.output, literalCode := found.code, sequenceCodes := some codes
                 recent := w.recent }

/-- How a block is written. -/
inductive BlockKind where
  | plain
  | repeated
  | packed
deriving DecidableEq, Repr

/-- The head of a block. -/
structure BlockHead where
  isLast : Bool
  kind : BlockKind
  size : Nat

/-- The number of bytes behind the head. -/
def BlockHead.packedSize (h : BlockHead) : Nat :=
  match h.kind with
  | .repeated => 1
  | _ => h.size

/-- Reads the head of a block, and gives the bytes behind it. -/
def blockHead (bytes : List UInt8) : Except ZstdError (BlockHead × List UInt8) :=
  if bytes.length < 3 then .error .incomplete
  else
    let n := littleEndian (bytes.take 3)
    let head (kind : BlockKind) : Except ZstdError (BlockHead × List UInt8) :=
      .ok ({ isLast := n % 2 = 1, kind, size := n / 8 }, bytes.drop 3)
    match n / 2 % 4 with
    | 0 => head .plain
    | 1 => head .repeated
    | 2 => head .packed
    | _ => .error .corrupt

/-- Unpacks a block of at most `limit` bytes into so much room. -/
def block (limit room : Nat) (state : FrameState) (h : BlockHead) (bytes : List UInt8) :
    Except ZstdError FrameState :=
  match h.kind with
  | .plain =>
    if bytes.length > room then .error .noRoom
    else .ok { state with output := state.output ++ bytes.toArray }
  | .repeated =>
    if h.size > room then .error .noRoom
    else .ok { state with output := state.output ++ Array.replicate h.size (bytes.headD 0) }
  | .packed => packedBlock limit room state bytes

/-! ## The head of a frame -/

/-- The head of a frame. -/
structure FrameHead where
  /-- The number of bytes, if the frame says it. -/
  contentSize : Option Nat
  windowSize : Nat
  dictionary : Nat
  isHashed : Bool
deriving DecidableEq, Repr

/-- No block of the frame has more bytes. -/
def FrameHead.blockLimit (h : FrameHead) : Nat := min h.windowSize maxBlockSize

/-- What a frame starts with. -/
def frameStart : List UInt8 := [0x28, 0xB5, 0x2F, 0xFD]

/-- What frames that are passed over start with, but for the low half of the first byte. -/
def skippedStart : List UInt8 := [0x50, 0x2A, 0x4D, 0x18]

/-- What frames of the first formats start with. -/
def firstStarts : List (List UInt8) :=
  [[0xFD, 0x2F, 0xB5, 0x1E], [0x22, 0xB5, 0x2F, 0xFD], [0x23, 0xB5, 0x2F, 0xFD]]

/-- Whether a frame can begin with these bytes. -/
def isStart (bytes : List UInt8) : Bool :=
  bytes.isPrefixOf frameStart ||
    (bytes.zipIdx.map fun (b, i) => if i = 0 then b &&& 0xF0 else b).isPrefixOf skippedStart

/-- A content size that means that none is given. -/
def noContentSize : Nat := 0xFFFFFFFFFFFFFFFF

/-- Windows are at most so large. -/
def maxWindowLog : Nat := 31

/-- Reads the head of a frame behind its start, and gives the bytes behind it. -/
def frameHead (bytes : List UInt8) : Except ZstdError (FrameHead × List UInt8) :=
  match bytes with
  | [] => .error .incomplete
  | marks :: rest =>
    let marks := marks.toNat
    let isSingle := marks.testBit 5
    let windowBytes := if isSingle then 0 else 1
    let dictionaryBytes := [0, 1, 2, 4][marks % 4]?.getD 0
    let sizeBytes := [if isSingle then 1 else 0, 2, 4, 8][marks / 64]?.getD 0
    if rest.length < windowBytes + dictionaryBytes + sizeBytes then .error .incomplete
    else
      let window := (rest.headD 0).toNat
      let rest := rest.drop windowBytes
      let dictionary := littleEndian (rest.take dictionaryBytes)
      let rest := rest.drop dictionaryBytes
      let size := littleEndian (rest.take sizeBytes) + (if sizeBytes = 2 then 256 else 0)
      let windowLog := window / 8 + 10
      if marks.testBit 3 then .error .unknownMark
      else if !isSingle ∧ windowLog > maxWindowLog then .error .windowTooLarge
      else
        .ok ({ contentSize := if sizeBytes = 0 ∨ size = noContentSize then none else some size
               windowSize :=
                 if isSingle then size
                 else (1 <<< windowLog) + (1 <<< windowLog) / 8 * (window % 8)
               dictionary
               isHashed := marks.testBit 2 }, rest.drop sizeBytes)

/-- Reads the hash behind the blocks, if there is one, and gives the bytes behind it. -/
def frameEnd (h : FrameHead) (output : Array UInt8) (bytes : List UInt8) :
    Except ZstdError (List UInt8) :=
  if !h.isHashed then .ok bytes
  else if bytes.length < 4 then .error .incomplete
  else if (hash output.toList).toUInt32.toNat = littleEndian (bytes.take 4) then
    .ok (bytes.drop 4)
  else .error .wrongHash

/-! ## A frame at once -/

/-- Whether all blocks are there, and the hash if there is one. -/
def isWhole (isHashed : Bool) : Nat → List UInt8 → Bool
  | 0, _ => false
  | fuel + 1, bytes =>
    match blockHead bytes with
    | .error _ => false
    | .ok (h, rest) =>
      if rest.length < h.packedSize then false
      else if h.isLast then !isHashed || rest.length - h.packedSize ≥ 4
      else isWhole isHashed fuel (rest.drop h.packedSize)

/-- Unpacks the blocks of a frame into so much room. -/
def wholeBlocks (h : FrameHead) (room : Nat) : Nat → FrameState → List UInt8 →
    Except ZstdError (Array UInt8 × List UInt8)
  | 0, _, _ => .error .incomplete
  | fuel + 1, state, bytes => do
    let (b, rest) ← blockHead bytes
    let state ← block h.blockLimit (room - state.output.size) state b (rest.take b.packedSize)
    let rest := rest.drop b.packedSize
    if b.isLast then
      if h.contentSize = some state.output.size then
        return (state.output, ← frameEnd h state.output rest)
      else .error .corrupt
    else wholeBlocks h room fuel state rest

/-! ## A frame block by block -/

/-- The largest window for a frame that is unpacked block by block. -/
def maxWindowSize : Nat := 134217729

/-- The sizes of the buffers for packed bytes and for bytes. -/
structure Buffers where
  packed : Nat := 0
  bytes : Nat := 0
deriving DecidableEq, Inhabited, Repr

/-- The buffers that a frame needs; if those of the frames before are too small, they are
replaced. -/
def Buffers.for (b : Buffers) (contentSize : Option Nat) (windowSize blockLimit : Nat) : Buffers :=
  let packed := max blockLimit 4
  let window := max windowSize 1024
  let ring := window + 2 * min (min window maxBlockSize) blockLimit + 64
  let bytes := match contentSize with
    | none => ring
    | some size => min size ring
  if b.packed < packed ∨ b.bytes < bytes then { packed, bytes } else b

/-- Unpacks the blocks of a frame one by one into a buffer of `size` bytes, of which `used` are
used. Where the frame does not fit in the buffer, this starts again at its beginning. -/
def blocksInTurn (h : FrameHead) (size : Nat) : Nat → Nat → FrameState → List UInt8 →
    Except ZstdError (Array UInt8 × List UInt8)
  | 0, _, _, _ => .error .incomplete
  | fuel + 1, used, state, bytes => do
    let (b, rest) ← blockHead bytes
    if b.packedSize > h.blockLimit then .error .corrupt
    else if b.packedSize = 0 then
      if b.isLast then return (state.output, ← frameEnd h state.output rest)
      else blocksInTurn h size fuel used state rest
    else
      let room := size - used
      let before := state.output.size
      if rest.length < b.packedSize then
        if b.kind = .plain ∧ rest.length > room then .error .noRoom else .error .incomplete
      else
        let state ← block h.blockLimit room state b (rest.take b.packedSize)
        let rest := rest.drop b.packedSize
        let count := state.output.size - before
        if count > h.blockLimit then .error .corrupt
        else if b.isLast then
          if h.contentSize.any (· ≠ state.output.size) then .error .corrupt
          else return (state.output, ← frameEnd h state.output rest)
        else
          let used := used + count
          let isRing := match h.contentSize with
            | none => true
            | some content => decide (size < content)
          blocksInTurn h size fuel (if isRing && used + h.blockLimit > size then 0 else used)
            state rest

/-! ## Portions -/

/-- The portions in which bytes are taken: how many were taken, how many the taker has room for
before it grows, and the largest portion. -/
structure Portions where
  taken : Nat := 0
  capacity : Nat := 0
  largest : Nat := 8192
deriving DecidableEq, Inhabited, Repr

/-- The first portion. -/
def firstPortion : Nat := 32

/-- The taker with room for the next portion: once full, it takes twice as much. -/
def Portions.grow (p : Portions) : Portions :=
  if p.taken = p.capacity ∧ p.taken ≠ 0 then
    { p with capacity := max (2 * p.capacity) (p.taken + firstPortion) }
  else p

/-- The size of the next portion. -/
def Portions.next (p : Portions) : Nat :=
  if p.taken = 0 then firstPortion
  else
    let p := p.grow
    min (p.capacity - p.taken) p.largest

/-- Takes the bytes of a frame. -/
def Portions.take : Nat → Nat → Portions → Portions
  | 0, _, p => p
  | fuel + 1, count, p =>
    if count = 0 then p
    else
      let portion := p.next
      let n := min portion count
      let grown := p.grow
      take fuel (count - n)
        { taken := p.taken + n
          capacity := if p.taken = 0 then max 8 n else grown.capacity
          largest := if p.taken ≠ 0 ∧ portion ≥ p.largest ∧ n = portion then 2 * p.largest
            else p.largest }

/-! ## Frames one after the other -/

/-- What is kept from frame to frame. -/
structure Unpacking where
  output : Array UInt8 := #[]
  buffers : Buffers := {}
  portions : Portions := {}

/-- Takes the bytes of a frame. -/
def Unpacking.take (u : Unpacking) (bytes : Array UInt8) : Unpacking :=
  { u with
    output := u.output ++ bytes
    portions := u.portions.take bytes.size bytes.size }

/-- Unpacks a frame behind its start, and gives the bytes behind it. -/
def frame (u : Unpacking) (bytes : List UInt8) : Except ZstdError (Unpacking × List UInt8) := do
  let (h, rest) ← frameHead bytes
  let portion := u.portions.next
  if h.contentSize.any (· ≤ portion) && isWhole h.isHashed (rest.length + 1) rest then
    if h.dictionary ≠ 0 then .error .dictionaryNeeded
    else
      let (output, rest) ← wholeBlocks h portion (rest.length + 1) {} rest
      return (u.take output, rest)
  else if h.dictionary ≠ 0 then .error .dictionaryNeeded
  else if h.windowSize > maxWindowSize then .error .windowTooLarge
  else
    let buffers := u.buffers.for h.contentSize h.windowSize h.blockLimit
    let (output, rest) ← blocksInTurn h buffers.bytes (rest.length + 1) 0 {} rest
    return (Unpacking.take { u with buffers } output, rest)

/-- Passes over a frame behind its start, and gives the bytes behind it. -/
def skippedFrame (u : Unpacking) (bytes : List UInt8) :
    Except ZstdError (Unpacking × List UInt8) :=
  let size := littleEndian (bytes.take 4)
  if bytes.length < 4 ∨ bytes.length - 4 < size then .error .incomplete
  else .ok ({ u with buffers := u.buffers.for (some size) 0 0 }, bytes.drop (4 + size))

/-- Unpacks frames up to the end of the bytes. -/
def frames : Nat → Unpacking → List UInt8 → Except ZstdError (Array UInt8)
  | 0, _, _ => .error .incomplete
  | fuel + 1, u, bytes =>
    if bytes.length < 5 then
      if isStart (bytes.take 4) then .error .incomplete else .error .unknownStart
    else
      let next :=
        if bytes.take 4 = frameStart then frame u (bytes.drop 4)
        else if isStart (bytes.take 4) then skippedFrame u (bytes.drop 4)
        else if firstStarts.contains (bytes.take 4) then .error .firstFormats
        else .error .unknownStart
      match next with
      | .error e => .error e
      | .ok (u, []) => .ok u.output
      | .ok (u, rest) => frames fuel u rest

end Zstd

/-- What packed bytes stand for. -/
def unzstd (packed : List UInt8) : Except ZstdError (List UInt8) :=
  (Zstd.frames (packed.length + 1) {} packed).map Array.toList

end JavaAtlas.Archive
