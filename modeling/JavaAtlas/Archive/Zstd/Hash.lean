import JavaAtlas.Archive.Bits

namespace JavaAtlas.Archive.Zstd

/-! # The hash of a frame

Bytes are taken in stripes of 32. Each quarter of a stripe goes into a sum of its own, and the
four sums, the number of bytes and the bytes behind the last stripe are mixed.
-/

/-- The multipliers of the hash. -/
def factor1 : UInt64 := 0x9E3779B185EBCA87
@[inherit_doc factor1] def factor2 : UInt64 := 0xC2B2AE3D27D4EB4F
@[inherit_doc factor1] def factor3 : UInt64 := 0x165667B19E3779F9
@[inherit_doc factor1] def factor4 : UInt64 := 0x85EBCA77C2B2AE63
@[inherit_doc factor1] def factor5 : UInt64 := 0x27D4EB2F165667C5

/-- Turns a word to the left. -/
def rotate (x n : UInt64) : UInt64 := (x <<< n) ||| (x >>> (64 - n))

/-- Takes a word into a sum. -/
def addWord (sum word : UInt64) : UInt64 := rotate (sum + word * factor2) 31 * factor1

/-- The word that little-endian bytes stand for. -/
def wordOf (bytes : List UInt8) : UInt64 := UInt64.ofNat (littleEndian bytes)

/-- The four sums. -/
structure Sums where
  a : UInt64 := factor1 + factor2
  b : UInt64 := factor2
  c : UInt64 := 0
  d : UInt64 := 0 - factor1

/-- Takes a stripe into the sums. -/
def Sums.add (s : Sums) (stripe : List UInt8) : Sums :=
  { a := addWord s.a (wordOf (stripe.take 8))
    b := addWord s.b (wordOf ((stripe.drop 8).take 8))
    c := addWord s.c (wordOf ((stripe.drop 16).take 8))
    d := addWord s.d (wordOf ((stripe.drop 24).take 8)) }

/-- Mixes one sum into the hash. -/
def mixSum (hash sum : UInt64) : UInt64 := (hash ^^^ addWord 0 sum) * factor1 + factor4

/-- Mixes the sums. -/
def Sums.mix (s : Sums) : UInt64 :=
  let hash := rotate s.a 1 + rotate s.b 7 + rotate s.c 12 + rotate s.d 18
  mixSum (mixSum (mixSum (mixSum hash s.a) s.b) s.c) s.d

/-- Mixes the bytes behind the last stripe. -/
def mixRest : Nat → UInt64 → List UInt8 → UInt64
  | 0, hash, _ | _, hash, [] => hash
  | fuel + 1, hash, b :: rest =>
    let bytes := b :: rest
    if bytes.length ≥ 8 then
      mixRest fuel (rotate (hash ^^^ addWord 0 (wordOf (bytes.take 8))) 27 * factor1 + factor4)
        (bytes.drop 8)
    else if bytes.length ≥ 4 then
      mixRest fuel (rotate (hash ^^^ (wordOf (bytes.take 4) * factor1)) 23 * factor2 + factor3)
        (bytes.drop 4)
    else
      mixRest fuel (rotate (hash ^^^ (b.toUInt64 * factor5)) 11 * factor1) rest

/-- Spreads every bit over the hash. -/
def spreadBits (hash : UInt64) : UInt64 :=
  let hash := (hash ^^^ (hash >>> 33)) * factor2
  let hash := (hash ^^^ (hash >>> 29)) * factor3
  hash ^^^ (hash >>> 32)

/-- The sums of the next `count` stripes, and the bytes behind them. -/
def sumStripes : Nat → Sums → List UInt8 → Sums × List UInt8
  | 0, sums, bytes => (sums, bytes)
  | count + 1, sums, bytes => sumStripes count (sums.add (bytes.take 32)) (bytes.drop 32)

/-- The hash of bytes. -/
def hash (bytes : List UInt8) : UInt64 :=
  let size := bytes.length
  let (sums, rest) := sumStripes (size / 32) {} bytes
  let start := if size ≥ 32 then sums.mix else factor5
  spreadBits (mixRest 32 (start + UInt64.ofNat size) rest)

end JavaAtlas.Archive.Zstd
