import JavaAtlas.Archive.Bits

namespace JavaAtlas.Archive

/-! # Unpacking sorted blocks

The format that starts with `BZh`. Bytes are packed in blocks: runs are shortened, the block is
sorted by what follows each byte, every byte is replaced by how long ago it last occurred, and
the result is written with variable-length codes. Unpacking undoes that step by step and checks
every block, and then all blocks together.
-/

/-- Why packed bytes cannot be unpacked. -/
inductive BunzipError where
  /-- They end too early. -/
  | incomplete
  /-- They do not start as they should. -/
  | wrongStart
  /-- They mean nothing. -/
  | corrupt
deriving DecidableEq, Inhabited, Repr

/-- The wording of an error. -/
def BunzipError.text : BunzipError → String
  | .incomplete => "decompression not finished but EOF reached"
  | .wrongStart => "bzip2: bz2 header missing"
  | .corrupt => "bzip2: invalid data"

/-- A step of unpacking, with the bits to come. -/
abbrev Bunzip := StateT (List Bool) (Except BunzipError)

namespace Bunzip

/-- Reads one bit. -/
def bit : Bunzip Nat := do
  match ← get with
  | [] => throw .incomplete
  | b :: rest =>
    set rest
    return b.toNat

/-- Reads a number of `count` bits, high bits first, behind those of `high`. -/
def numberFrom (high : Nat) : Nat → Bunzip Nat
  | 0 => return high
  | count + 1 => do numberFrom (2 * high + (← bit)) count

/-- Reads a number of `count` bits, high bits first. -/
def number (count : Nat) : Bunzip Nat := numberFrom 0 count

/-- Reads bytes that must be these. -/
def expect (error : BunzipError) : List Nat → Bunzip Unit
  | [] => return ()
  | b :: rest => do
    if (← number 8) = b then expect error rest else throw error

/-- Reads `count` values. -/
def times {α : Type} (read : Bunzip α) : Nat → Bunzip (List α)
  | 0 => return []
  | count + 1 => do
    let value ← read
    return value :: (← times read count)

/-! ## Checks -/

/-- One bit of the division. -/
def divideBit (r : UInt32) : UInt32 :=
  if r &&& 0x80000000 = 0 then r <<< 1 else (r <<< 1) ^^^ 0x04C11DB7

/-- Takes one byte into the remainder. -/
def checkByte (r : UInt32) (b : UInt8) : UInt32 :=
  divideBit (divideBit (divideBit (divideBit (divideBit (divideBit (divideBit (divideBit
    (r ^^^ (b.toUInt32 <<< 24)))))))))

/-- The check of a block. -/
def blockCheck (bytes : Array UInt8) : UInt32 :=
  bytes.foldl checkByte 0xFFFFFFFF ^^^ 0xFFFFFFFF

/-- Takes the check of a block into that of all blocks. -/
def joinChecks (all block : UInt32) : UInt32 := ((all <<< 1) ||| (all >>> 31)) ^^^ block

/-! ## Codes -/

/-- A prefix code: the symbols by the length of their codes, and for every length from the
shortest on the number of the last code and what to take off a number to get the place of its
symbol. -/
structure Code where
  symbols : Array Nat
  shortest : Nat
  longest : Nat
  limits : List Int
  bases : List Int

/-- The longest codes have so many bits. -/
def maxLength : Nat := 20

/-- The limits and bases of the lengths from `length` on; `next` is the number of the next code
and `place` the place of its symbol. -/
def codeRanges (lengths : List Nat) : Nat → Nat → Int → Int → List (Int × Int)
  | 0, _, _, _ => []
  | fuel + 1, length, next, place =>
    let count : Int := lengths.countP (· == length)
    (next + count - 1, next - place) ::
      codeRanges lengths fuel (length + 1) (2 * (next + count)) (place + count)

/-- The code in which symbol `i` has the `i`-th length. -/
def codeOf (lengths : List Nat) : Code :=
  let shortest := lengths.foldl min 32
  let longest := lengths.foldl max 0
  let ranges := codeRanges lengths (longest + 1 - shortest) shortest 0 0
  { symbols := ((List.range (longest + 1)).flatMap fun length =>
      lengths.zipIdx.filterMap fun (l, symbol) => if l = length then some symbol else none).toArray
    shortest, longest
    limits := ranges.map (·.1)
    bases := ranges.map (·.2) }

/-- Reads the rest of a symbol of which `value` has been read. -/
def symbolFrom (code : Code) (value : Int) : List Int → List Int → Bunzip Nat
  | limit :: limits, base :: bases => do
    if value ≤ limit then
      match code.symbols[(value - base).toNat]? with
      | some symbol => if value < base then throw .corrupt else return symbol
      | none => throw .corrupt
    else if limits.isEmpty then
      let _ ← number (maxLength - code.longest)
      throw .corrupt
    else symbolFrom code (2 * value + (← bit)) limits bases
  | _, _ => throw .corrupt

/-- Reads a symbol. -/
def symbol (code : Code) : Bunzip Nat := do
  symbolFrom code (← number code.shortest) code.limits code.bases

/-! ## The head of a block -/

/-- Reads which bytes occur in a block. -/
def usedBytes : Bunzip (List Nat) := do
  let groups ← times bit 16
  let used ← (groups.zipIdx.filter (·.1 = 1)).mapM fun (_, i) => do
    let members ← times bit 16
    return (members.zipIdx.filter (·.1 = 1)).map fun (_, j) => 16 * i + j
  return used.flatten

/-- Reads how many ones come before a zero; there must be fewer than `limit`. -/
def ones (limit : Nat) : Nat → Bunzip Nat
  | 0 => throw .corrupt
  | fuel + 1 => do
    if (← bit) = 0 then return limit - (fuel + 1) else ones limit fuel

/-- Takes the `i`-th of some values to the front. -/
def toFront (i : Nat) (values : List Nat) : List Nat :=
  match values[i]? with
  | some v => v :: values.eraseIdx i
  | none => values

/-- The values that places in a list, whose members come to the front when used, stand for. -/
def fromPlaces (values : List Nat) : List Nat → List Nat
  | [] => []
  | i :: rest =>
    let values := toFront i values
    values.headD 0 :: fromPlaces values rest

/-- So many selectors of codes are used at most. -/
def maxSelectors : Nat := 18002

/-- Reads the length of a code, starting from the one before. -/
def codeLength (length : Int) : Nat → Bunzip Nat
  | 0 => throw .incomplete
  | fuel + 1 => do
    if length < 1 ∨ length > maxLength then throw .corrupt
    else if (← bit) = 0 then return length.toNat
    else codeLength (if (← bit) = 0 then length + 1 else length - 1) fuel

/-- Reads the lengths of `count` codes. -/
def codeLengths (length : Nat) : Nat → Bunzip (List Nat)
  | 0 => return []
  | count + 1 => do
    let length ← codeLength length ((← get).length + 1)
    return length :: (← codeLengths length count)

/-! ## The symbols of a block -/

/-- So many symbols are written with one code. -/
def groupSize : Nat := 50

/-- The codes in the order of their use, and how many symbols are left of the first group. -/
structure Selection where
  codes : List Code
  left : Nat := groupSize

/-- Reads the next symbol. -/
def nextSymbol (s : Selection) : Bunzip (Nat × Selection) := do
  let s : Selection := if s.left = 0 then { codes := s.codes.drop 1 } else s
  match s.codes with
  | [] => throw .corrupt
  | code :: _ => return (← symbol code, { s with left := s.left - 1 })

/-- Repeats a byte. -/
def repeatByte (limit : Nat) (b : UInt8) : Nat → Array UInt8 → Bunzip (Array UInt8)
  | 0, found => return found
  | count + 1, found =>
    if found.size ≥ limit then throw .corrupt else repeatByte limit b count (found.push b)

/-- Runs longer than this are refused. -/
def maxRunWeight : Nat := 2097152

/-- Reads the symbols of a block up to its end. The first two symbols are the digits of the length
of a run, of which `run` and the weight of the next digit are known; the others are places among
the bytes `recent`. -/
def blockBytes (limit last : Nat) : Nat → Selection → List Nat → Nat → Nat → Array UInt8 →
    Bunzip (Array UInt8)
  | 0, _, _, _, _, _ => throw .incomplete
  | fuel + 1, selection, recent, run, weight, found => do
    let (s, selection) ← nextSymbol selection
    if s < 2 then
      if weight ≥ maxRunWeight then throw .corrupt
      else blockBytes limit last fuel selection recent (run + (s + 1) * weight) (2 * weight) found
    else
      let found ← repeatByte limit (UInt8.ofNat (recent.headD 0)) run found
      if s = last then return found
      else if found.size ≥ limit then throw .corrupt
      else
        let recent := toFront (s - 1) recent
        blockBytes limit last fuel selection recent 0 1
          (found.push (UInt8.ofNat (recent.headD 0)))

/-! ## Undoing the sorting -/

/-- How many bytes of a block are smaller than each byte. -/
def smallerCounts (block : Array UInt8) : Array Nat :=
  let counts := block.foldl (fun (counts : Array Nat) b => counts.modify b.toNat (· + 1))
    (Array.replicate 256 0)
  (counts.foldl (fun (starts, sum) n => (starts.push sum, sum + n)) (#[], 0)).1

/-- For every place in the sorted block, the place from which the byte there came. -/
def successors (block : Array UInt8) : Array Nat :=
  let start := (Array.replicate block.size 0, smallerCounts block)
  (block.foldl (fun (s : (Array Nat × Array Nat) × Nat) b =>
    let ((next, places), i) := s
    let place := places[b.toNat]?.getD 0
    ((next.setIfInBounds place i, places.setIfInBounds b.toNat (place + 1)), i + 1))
    (start, 0)).1.1

/-- The next `count` bytes in the order that they had before sorting. -/
def unsortFrom (block : Array UInt8) (next : Array Nat) : Nat → Nat → Array UInt8 → Array UInt8
  | 0, _, found => found
  | count + 1, place, found =>
    unsortFrom block next count (next[place]?.getD 0) (found.push (block[place]?.getD 0))

/-- The bytes of a block in the order that they had before sorting, `origin` being the place of the
first one. -/
def unsort (block : Array UInt8) (origin : Nat) : Array UInt8 :=
  let next := successors block
  unsortFrom block next block.size (next[origin]?.getD 0) (Array.mkEmpty block.size)

/-- Distances between the bytes that are changed in a block marked so, over and over. -/
def changeDistances : Array Nat :=
  #[619, 720, 127, 481, 931, 816, 813, 233, 566, 247, 985, 724, 205, 454, 863, 491, 741, 242, 949,
    214, 733, 859, 335, 708, 621, 574, 73, 654, 730, 472, 419, 436, 278, 496, 867, 210, 399, 680,
    480, 51, 878, 465, 811, 169, 869, 675, 611, 697, 867, 561, 862, 687, 507, 283, 482, 129, 807,
    591, 733, 623, 150, 238, 59, 379, 684, 877, 625, 169, 643, 105, 170, 607, 520, 932, 727, 476,
    693, 425, 174, 647, 73, 122, 335, 530, 442, 853, 695, 249, 445, 515, 909, 545, 703, 919, 874,
    474, 882, 500, 594, 612, 641, 801, 220, 162, 819, 984, 589, 513, 495, 799, 161, 604, 958, 533,
    221, 400, 386, 867, 600, 782, 382, 596, 414, 171, 516, 375, 682, 485, 911, 276, 98, 553, 163,
    354, 666, 933, 424, 341, 533, 870, 227, 730, 475, 186, 263, 647, 537, 686, 600, 224, 469, 68,
    770, 919, 190, 373, 294, 822, 808, 206, 184, 943, 795, 384, 383, 461, 404, 758, 839, 887, 715,
    67, 618, 276, 204, 918, 873, 777, 604, 560, 951, 160, 578, 722, 79, 804, 96, 409, 713, 940,
    652, 934, 970, 447, 318, 353, 859, 672, 112, 785, 645, 863, 803, 350, 139, 93, 354, 99, 820,
    908, 609, 772, 154, 274, 580, 184, 79, 626, 630, 742, 653, 282, 762, 623, 680, 81, 927, 626,
    789, 125, 411, 521, 938, 300, 821, 78, 343, 175, 128, 250, 170, 774, 972, 275, 999, 639, 495,
    78, 352, 126, 857, 956, 358, 619, 580, 124, 737, 594, 701, 612, 669, 112, 134, 694, 363, 992,
    809, 743, 168, 974, 944, 375, 748, 52, 600, 747, 642, 182, 862, 81, 344, 805, 988, 739, 511,
    655, 814, 334, 249, 515, 897, 955, 664, 981, 649, 113, 974, 459, 893, 228, 433, 837, 553, 268,
    926, 240, 102, 654, 459, 51, 686, 754, 806, 760, 493, 403, 415, 394, 687, 700, 946, 670, 656,
    610, 738, 392, 760, 799, 887, 653, 978, 321, 576, 617, 626, 502, 894, 679, 243, 440, 680, 879,
    194, 572, 640, 724, 926, 56, 204, 700, 707, 151, 457, 449, 797, 195, 791, 558, 945, 679, 297,
    59, 87, 824, 713, 663, 412, 693, 342, 606, 134, 108, 571, 364, 631, 212, 174, 643, 304, 329,
    343, 97, 430, 751, 497, 314, 983, 374, 822, 928, 140, 206, 73, 263, 980, 736, 876, 478, 430,
    305, 170, 514, 364, 692, 829, 82, 855, 953, 676, 246, 369, 970, 294, 750, 807, 827, 150, 790,
    288, 923, 804, 378, 215, 828, 592, 281, 565, 555, 710, 82, 896, 831, 547, 261, 524, 462, 293,
    465, 502, 56, 661, 821, 976, 991, 658, 869, 905, 758, 745, 193, 768, 550, 608, 933, 378, 286,
    215, 979, 792, 961, 61, 688, 793, 644, 986, 403, 106, 366, 905, 644, 372, 567, 466, 434, 645,
    210, 389, 550, 919, 135, 780, 773, 635, 389, 707, 100, 626, 958, 165, 504, 920, 176, 193, 713,
    857, 265, 203, 50, 668, 108, 645, 990, 626, 197, 510, 357, 358, 850, 858, 364, 936, 638]

/-- Changes the last bit of some of the bytes from the `i`-th on; `left` counts down to the next
change and `turn` is the place in the table of distances. -/
def changeFrom : Nat → Nat → Nat → Nat → Array UInt8 → Array UInt8
  | 0, _, _, _, block => block
  | count + 1, i, left, turn, block =>
    let (left, turn) :=
      if left = 0 then (changeDistances[turn]?.getD 0, (turn + 1) % 512) else (left, turn)
    let left := left - 1
    changeFrom count (i + 1) left turn
      (if left = 1 then block.modify i (· ^^^ 1) else block)

/-- Undoes the shortening of runs: behind four equal bytes stands how many more there are.
`equal` is how many equal bytes were last, and `last` is that byte. -/
def lengthenFrom (equal : Nat) (last : UInt8) (found : Array UInt8) : List UInt8 → Array UInt8
  | [] => found
  | b :: rest =>
    if equal = 4 then
      lengthenFrom 0 last (found ++ Array.replicate b.toNat last) rest
    else
      lengthenFrom (if equal > 0 && b = last then equal + 1 else 1) b (found.push b) rest

/-! ## Blocks -/

/-- Reads a block behind its mark; `level` is its largest size in units of 100000. -/
def block (level : Nat) : Bunzip (Array UInt8 × UInt32) := do
  let check := UInt32.ofNat (← number 32)
  let changed ← bit
  let origin ← number 24
  if origin > 10 + 100000 * level then throw .corrupt
  let used ← usedBytes
  if used.isEmpty then throw .corrupt
  let codeCount ← number 3
  if codeCount < 2 ∨ codeCount > 6 then throw .corrupt
  let selectorCount ← number 15
  if selectorCount < 1 then throw .corrupt
  let places ← times (ones codeCount codeCount) selectorCount
  let selectors := fromPlaces (List.range codeCount) (places.take maxSelectors)
  let codes ← times (do return codeOf (← codeLengths (← number 5) (used.length + 2))) codeCount
  let selection : Selection := { codes := selectors.filterMap (codes[·]?) }
  let sorted ← blockBytes (100000 * level) (used.length + 1) ((← get).length + 1) selection used
    0 1 #[]
  if origin ≥ sorted.size then throw .corrupt
  let plain := unsort sorted origin
  let plain := if changed = 1 then changeFrom plain.size 0 0 0 plain else plain
  let bytes := lengthenFrom 0 0 #[] plain.toList
  if blockCheck bytes = check then return (bytes, check) else throw .corrupt

/-- Reads blocks up to the mark of the end; `all` is the check of the blocks before. -/
def blocks (level : Nat) : Nat → UInt32 → Array UInt8 → Bunzip (Array UInt8)
  | 0, _, _ => throw .incomplete
  | fuel + 1, all, found => do
    match ← number 8 with
    | 0x17 =>
      expect .corrupt [0x72, 0x45, 0x38, 0x50, 0x90]
      if (← number 32) = all.toNat then return found else throw .corrupt
    | 0x31 =>
      expect .corrupt [0x41, 0x59, 0x26, 0x53, 0x59]
      let (bytes, check) ← block level
      blocks level fuel (joinChecks all check) (found ++ bytes)
    | _ => throw .corrupt

/-- Reads everything. -/
def stream : Bunzip (Array UInt8) := do
  expect .wrongStart [0x42, 0x5A, 0x68]
  let level ← number 8
  if level < 0x31 ∨ level > 0x39 then throw .wrongStart
  blocks (level - 0x30) ((← get).length + 1) 0 #[]

end Bunzip

/-- What packed bytes stand for. Bytes behind the mark of the end do not count. -/
def bunzip (packed : List UInt8) : Except BunzipError (List UInt8) :=
  match Bunzip.stream.run (highBitsFirst packed) with
  | .ok (bytes, _) => .ok bytes.toList
  | .error e => .error e

end JavaAtlas.Archive
