import JavaAtlas.Archive.Bits

namespace JavaAtlas.Archive

/-! # Errors and bits of the block format

Bytes packed in frames of blocks. Most numbers of a block are written as bits that are read from
the last byte to the first: the highest bit that is set in the last byte only marks where they
begin.
-/

/-- Why packed bytes cannot be unpacked. -/
inductive ZstdError where
  /-- They end too early. -/
  | incomplete
  /-- They do not start as a frame does. -/
  | unknownStart
  /-- They start as a frame of the first formats does. -/
  | firstFormats
  /-- A frame has a mark that means nothing yet. -/
  | unknownMark
  /-- A frame refers too far back. -/
  | windowTooLarge
  /-- A frame needs a dictionary. -/
  | dictionaryNeeded
  /-- A block uses a code that no block brought. -/
  | codeMissing
  /-- The head of the literals of a block cannot be. -/
  | wrongLiterals
  /-- A part has the wrong size. -/
  | wrongSize
  /-- There is no room for the bytes. -/
  | noRoom
  /-- The bytes of a frame do not have the hash that it says. -/
  | wrongHash
  /-- They mean nothing. -/
  | corrupt
deriving DecidableEq, Inhabited, Repr

/-- The wording of an error. -/
def ZstdError.text : ZstdError → String
  | .incomplete => "incomplete frame"
  | .unknownStart => "Unknown frame descriptor"
  | .firstFormats => "Version not supported"
  | .unknownMark => "Unsupported frame parameter"
  | .windowTooLarge => "Frame requires too much memory for decoding"
  | .dictionaryNeeded => "Dictionary mismatch"
  | .codeMissing => "Dictionary is corrupted"
  | .wrongLiterals => "Header of Literals' block doesn't respect format specification"
  | .wrongSize => "Src size is incorrect"
  | .noRoom => "Destination buffer is too small"
  | .wrongHash => "Restored data doesn't match checksum"
  | .corrupt => "Data corruption detected"

namespace Zstd

/-- A step of reading bits. -/
abbrev BitReader := StateT (List Bool) (Except ZstdError)

/-- Reads one bit. -/
def bit : BitReader Nat := do
  match ← get with
  | [] => throw .corrupt
  | b :: rest =>
    set rest
    return b.toNat

/-- Reads a number of `count` bits, low bits first. -/
def lowNumber : Nat → BitReader Nat
  | 0 => return 0
  | count + 1 => do
    let low ← bit
    return low + 2 * (← lowNumber count)

/-- Reads a number of `count` bits, high bits first, behind those of `high`. -/
def highNumberFrom (high : Nat) : Nat → BitReader Nat
  | 0 => return high
  | count + 1 => do highNumberFrom (2 * high + (← bit)) count

/-- Reads a number of `count` bits, high bits first. -/
def highNumber (count : Nat) : BitReader Nat := highNumberFrom 0 count

/-- Whether there are so many bits. -/
def hasBits (count : Nat) (bits : List Bool) : Bool := (bits.take count).length = count

/-- The number of the next `count` bits, high bits first; bits behind the last one are zero. -/
def peek : Nat → Nat → List Bool → Nat
  | high, 0, _ => high
  | high, count + 1, [] => peek (2 * high) count []
  | high, count + 1, b :: rest => peek (2 * high + b.toNat) count rest

/-- The bits of bytes that are read from the end. The last byte must not be zero. -/
def backwardBits (bytes : List UInt8) : Except ZstdError (List Bool) :=
  match bytes.reverse with
  | [] => .error .corrupt
  | last :: before =>
    if last = 0 then .error .corrupt
    else .ok ((highBitsFirst (last :: before)).dropWhile (!·)).tail

/-- Reads something from all of the bits, of which none may be left. -/
def readAll {α : Type} (reader : BitReader α) (bits : List Bool) : Except ZstdError α := do
  match ← reader.run bits with
  | (value, []) => .ok value
  | _ => .error .corrupt

end Zstd

end JavaAtlas.Archive
