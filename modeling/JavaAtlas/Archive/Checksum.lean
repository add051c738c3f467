namespace JavaAtlas.Archive

/-! # Cyclic redundancy check

The 32-bit check that archives keep for every entry: the remainder of the bytes, low bits first,
by the polynomial `0xEDB88320`.
-/

/-- One bit of the division. -/
def divideBit (r : UInt32) : UInt32 :=
  if r &&& 1 = 1 then (r >>> 1) ^^^ 0xEDB88320 else r >>> 1

/-- Takes one byte into the remainder. -/
def checkByte (r : UInt32) (b : UInt8) : UInt32 :=
  divideBit (divideBit (divideBit (divideBit (divideBit (divideBit (divideBit (divideBit
    (r ^^^ b.toUInt32))))))))

/-- The check of bytes. -/
def checksum (bytes : List UInt8) : UInt32 :=
  bytes.foldl checkByte 0xFFFFFFFF ^^^ 0xFFFFFFFF

end JavaAtlas.Archive
