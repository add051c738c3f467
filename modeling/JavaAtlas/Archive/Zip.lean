import JavaAtlas.Archive.Bunzip
import JavaAtlas.Archive.Checksum
import JavaAtlas.Archive.Inflate
import JavaAtlas.Archive.Zip.Directory
import JavaAtlas.Archive.Zstd.Frame

namespace JavaAtlas.Archive

/-! # The entries of zip archives

An entry starts with a head of its own, behind which its packed bytes stand. They are unpacked in
the way that the directory says, and must have the check that it says.
-/

/-- The bytes of an entry as they are packed. If the archive ends before, there are fewer. -/
def packedBytes (archive : ByteArray) (e : ZipEntry) : Except ZipError (List UInt8) := do
  if e.start ≥ placeLimit then .error .outOfReach
  else if (← u32 archive e.start) ≠ 0x04034b50 then
    .error (.invalid "Invalid local file header")
  else
    let nameSize ← u16 archive (e.start + 26)
    let extraSize ← u16 archive (e.start + 28)
    let place := e.start + 30 + nameSize + extraSize
    return (archive.extract place (place + min e.packedSize archive.size)).toList

/-- What packed bytes stand for. -/
def unpack (packing : Packing) (packed : List UInt8) : Except ZipError (List UInt8) :=
  match packing with
  | .stored => .ok packed
  | .deflated => (inflate packed).mapError (.packed ·.text)
  | .sortedBlocks => (bunzip packed).mapError (.packed ·.text)
  | .frames => (unzstd packed).mapError (.packed ·.text)
  | .encrypted => .error (.unsupported "Password required to decrypt file")
  | .unknown _ => .error (.unsupported "Compression method not supported")

/-- Bytes that must have a check. -/
def checked (e : ZipEntry) (bytes : List UInt8) : Except ZipError (List UInt8) :=
  if checksum bytes = e.check then .ok bytes else .error .wrongChecksum

/-- The bytes of an entry. -/
def content (archive : ByteArray) (e : ZipEntry) : Except ZipError (List UInt8) := do
  if e.encrypted then .error (.unsupported "Password required to decrypt file")
  else
    let packed ← packedBytes archive e
    checked e (← unpack e.packing packed)

/-- The bytes of the entry with a name, of several the last one; none if there is no such
entry. -/
def read? (entries : List ZipEntry) (archive : ByteArray) (name : String) :
    Except ZipError (Option (List UInt8)) :=
  match entries.reverse.find? (·.name == name) with
  | none => .ok none
  | some e => (content archive e).map some

end JavaAtlas.Archive
