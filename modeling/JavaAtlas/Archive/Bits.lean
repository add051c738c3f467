namespace JavaAtlas.Archive

/-! # Bits

Packed bytes are read bit by bit. Formats differ in which end of a byte comes first.
-/

/-- The bits of bytes, the low bits of every byte first. -/
def lowBitsFirst (bytes : List UInt8) : List Bool :=
  bytes.flatMap fun b => (List.range 8).map fun i => b.toNat.testBit i

/-- The bits of bytes, the high bits of every byte first. -/
def highBitsFirst (bytes : List UInt8) : List Bool :=
  bytes.flatMap fun b => (List.range 8).map fun i => b.toNat.testBit (7 - i)

/-- The number that little-endian bytes stand for. -/
def littleEndian (bytes : List UInt8) : Nat := bytes.foldr (fun b n => b.toNat + 256 * n) 0

end JavaAtlas.Archive
