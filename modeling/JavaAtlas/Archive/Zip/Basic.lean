import JavaAtlas.Archive.Bits
import JavaAtlas.Failure

namespace JavaAtlas.Archive

/-! # Reading zip archives

What can go wrong while an archive is read, and the numbers at its places.
-/

/-- Why something cannot be read from an archive. -/
inductive ZipError where
  /-- The bytes end inside a record. -/
  | ended
  /-- A place is none that bytes can have. -/
  | outOfReach
  /-- The bytes are no archive. -/
  | invalid (reason : String)
  /-- The archive is not one that can be read. -/
  | unsupported (reason : String)
  /-- The bytes of an entry do not have the check that the directory says. -/
  | wrongChecksum
  /-- The packed bytes of an entry cannot be unpacked. -/
  | packed (reason : String)
deriving DecidableEq, Inhabited, Repr

/-- The failure that an error is. When reading itself fails, that is also its own cause. -/
def ZipError.toFailure : ZipError → Failure
  | .ended => .while "failed to fill whole buffer" (.because "failed to fill whole buffer")
  | .outOfReach =>
    .while "Invalid argument (os error 22)" (.because "Invalid argument (os error 22)")
  | .invalid reason => .because ("invalid Zip archive: " ++ reason)
  | .unsupported reason => .because ("unsupported Zip archive: " ++ reason)
  | .wrongChecksum => .because "Invalid checksum"
  | .packed reason => .because reason

/-- The error of an archive that goes on elsewhere. -/
def ZipError.severalDisks : ZipError :=
  .unsupported "Support for multi-disk files is not implemented"

/-- `count` bytes from a place on. -/
def bytesAt (archive : ByteArray) (place count : Nat) : Except ZipError (List UInt8) :=
  if place + count ≤ archive.size then .ok (archive.extract place (place + count)).toList
  else .error .ended

/-- The number of two bytes at a place. -/
def u16 (archive : ByteArray) (place : Nat) : Except ZipError Nat :=
  (bytesAt archive place 2).map littleEndian

/-- The number of four bytes at a place. -/
def u32 (archive : ByteArray) (place : Nat) : Except ZipError Nat :=
  (bytesAt archive place 4).map littleEndian

/-- The number of eight bytes at a place. -/
def u64 (archive : ByteArray) (place : Nat) : Except ZipError Nat :=
  (bytesAt archive place 8).map littleEndian

/-- The largest number of two bytes; it means that the number stands elsewhere. -/
def maxU16 : Nat := 0xFFFF

/-- The largest number of four bytes; it means that the number stands elsewhere. -/
def maxU32 : Nat := 0xFFFFFFFF

/-- Places from here on cannot be gone to. -/
def placeLimit : Nat := 0x8000000000000000

/-- Sums from here on are too large. -/
def sumLimit : Nat := 0x10000000000000000

end JavaAtlas.Archive
