import JavaAtlas.Archive.Zip.Basic
import JavaAtlas.Text.Utf8

namespace JavaAtlas.Archive

/-! # The directory of a zip archive

An archive ends with a record that says where its directory is; in large archives another record,
to which a locator in front of the last one leads, says it. The directory names the entries and
says where each of them starts, how it is packed and what its check is. Bytes in front of the
archive shift all places by their number.
-/

/-! ## The end record -/

/-- What the record at the end of an archive starts with. -/
def endSignature : Nat := 0x06054b50

/-- The number of bytes of the end record without its comment. -/
def endSize : Nat := 22

/-- The place of the end record: the last one that carries its signature, looked for from `place`
down over at most `fuel` places. -/
def findEnd (archive : ByteArray) : Nat → Nat → Except ZipError Nat
  | 0, _ => .error (.invalid "Could not find central directory end")
  | fuel + 1, place =>
    match u32 archive place with
    | .ok n =>
      if n = endSignature then .ok place
      else if place = 0 then .error (.invalid "Could not find central directory end")
      else findEnd archive fuel (place - 1)
    | .error e => .error e

/-- What the end record says. -/
structure EndRecord where
  place : Nat
  disk : Nat
  directoryDisk : Nat
  count : Nat
  total : Nat
  size : Nat
  offset : Nat
  commentSize : Nat
deriving DecidableEq, Repr

/-- Whether a number does not fit in the record and stands elsewhere. -/
def EndRecord.isTooSmall (r : EndRecord) : Bool :=
  [r.disk, r.directoryDisk, r.count, r.total].contains maxU16 ||
    [r.size, r.offset].contains maxU32

/-- Reads the end record. -/
def endRecord (archive : ByteArray) : Except ZipError EndRecord := do
  if archive.size < endSize then .error (.invalid "Invalid zip header")
  else
    let place ← findEnd archive (65535 + 1) (archive.size - endSize)
    let disk ← u16 archive (place + 4)
    let directoryDisk ← u16 archive (place + 6)
    let count ← u16 archive (place + 8)
    let total ← u16 archive (place + 10)
    let size ← u32 archive (place + 12)
    let offset ← u32 archive (place + 16)
    let commentSize ← u16 archive (place + 20)
    let _ ← bytesAt archive (place + endSize) commentSize
    return { place, disk, directoryDisk, count, total, size, offset, commentSize }

/-- Where the directory of an archive is. -/
structure DirectoryPlace where
  /-- The number of bytes in front of the archive. -/
  shift : Nat
  start : Nat
  count : Nat
deriving DecidableEq, Repr

/-- The place of the directory as the end record says it. -/
def EndRecord.directoryPlace (r : EndRecord) : Except ZipError DirectoryPlace :=
  if r.place < r.size + r.offset then
    .error (.invalid "Invalid central directory size or offset")
  else
    let shift := r.place - r.size - r.offset
    .ok { shift, start := r.offset + shift, count := r.count }

/-! ## The end record of large archives -/

/-- What leads to the end record of a large archive. -/
structure Locator where
  disk : Nat
  offset : Nat
deriving DecidableEq, Repr

/-- The locator in front of the end record, if there is one. -/
def locator? (archive : ByteArray) (r : EndRecord) : Except ZipError (Option Locator) := do
  let back := endSize + 20 + r.commentSize
  if archive.size < back then return none
  else
    let place := archive.size - back
    if (← u32 archive place) ≠ 0x07064b50 then return none
    else return some { disk := ← u32 archive (place + 4), offset := ← u64 archive (place + 8) }

/-- The place of the end record of a large archive, looked for from `place` up over at most `fuel`
places. -/
def findLargeEnd (archive : ByteArray) : Nat → Nat → Except ZipError Nat
  | 0, _ => .error (.invalid "Could not find ZIP64 central directory end")
  | fuel + 1, place => do
    if (← u32 archive place) = 0x06064b50 then return place
    else findLargeEnd archive fuel (place + 1)

/-- The place of the directory as the end record of a large archive says it. -/
def largeDirectoryPlace (archive : ByteArray) (r : EndRecord) (l : Locator) :
    Except ZipError DirectoryPlace := do
  if !r.isTooSmall && r.disk ≠ l.disk then .error .severalDisks
  else if r.place < 60 then .error (.invalid "File cannot contain ZIP64 central directory end")
  else
    let place ← findLargeEnd archive (r.place - 60 + 1 - l.offset) l.offset
    let shift := place - l.offset
    let disk ← u32 archive (place + 16)
    let directoryDisk ← u32 archive (place + 20)
    let count ← u64 archive (place + 32)
    let start := (← u64 archive (place + 48)) + shift
    if disk ≠ directoryDisk then .error .severalDisks
    else if start ≥ sumLimit then .error (.invalid "Invalid central directory size or offset")
    else if start ≥ placeLimit then
      .error (.invalid "Could not seek to start of central directory")
    else return { shift, start, count }

/-- Finds the directory. -/
def directoryPlace (archive : ByteArray) : Except ZipError DirectoryPlace := do
  let r ← endRecord archive
  if !r.isTooSmall && r.disk ≠ r.directoryDisk then .error .severalDisks
  else
    match ← locator? archive r with
    | none => r.directoryPlace
    | some l => largeDirectoryPlace archive r l

/-! ## Entries -/

/-- How the bytes of an entry are packed. -/
inductive Packing where
  | stored
  | deflated
  | sortedBlocks
  | frames
  /-- The bytes are encrypted, and what else they are is said elsewhere. -/
  | encrypted
  | unknown (number : Nat)
deriving DecidableEq, Inhabited, Repr

/-- The packing with a number. -/
def Packing.ofNumber : Nat → Packing
  | 0 => .stored
  | 8 => .deflated
  | 12 => .sortedBlocks
  | 93 => .frames
  | 99 => .encrypted
  | n => .unknown n

/-- An entry of an archive. -/
structure ZipEntry where
  name : String
  encrypted : Bool
  packing : Packing
  check : UInt32
  size : Nat
  packedSize : Nat
  start : Nat
  /-- Whether the entry says how it is encrypted. -/
  hasCipher : Bool := false
deriving DecidableEq, Repr

/-- The characters of the bytes from 128 on in names that are not marked as UTF-8. -/
def upperNameChars : String :=
  "ÇüéâäàåçêëèïîìÄÅÉæÆôöòûùÿÖÜ¢£¥₧ƒ" ++
  "áíóúñÑªº¿⌐¬½¼¡«»░▒▓│┤╡╢╖╕╣║╗╝╜╛┐" ++
  "└┴┬├─┼╞╟╚╔╩╦╠═╬╧╨╤╥╙╘╒╓╫╪┘┌█▄▌▐▀" ++
  "αßΓπΣσµτΦΘΩδ∞φε∩≡±≥≤⌠⌡÷≈°∙·√ⁿ²■ "

/-- A name that is not marked as UTF-8. -/
def plainName (bytes : List UInt8) : String :=
  let upper := upperNameChars.toList
  String.ofList (bytes.map fun b =>
    if b < 128 then Char.ofNat b.toNat else (upper[b.toNat - 128]?).getD '?')

/-- A name that is marked as UTF-8. Bytes that are no character give a replacement sign. -/
def utf8Name (fuel : Nat) (bytes : List UInt8) : List Char :=
  match fuel, bytes with
  | 0, _ | _, [] => []
  | fuel + 1, b :: rest =>
    match Utf8.step 0 b rest with
    | .ok (c, rest) => c :: utf8Name fuel rest
    | .error (.invalid length _) => Char.ofNat 0xFFFD :: utf8Name fuel ((b :: rest).drop length)
    | .error (.incomplete _) => [Char.ofNat 0xFFFD]

/-! ## Extra fields

An entry may have extra fields, each with a number for its kind and its size. Where they end too
early, what stands there before counts.
-/

/-- Takes a number of eight bytes for one that does not fit in four. -/
def largeNumber (number : Nat) (bytes : List UInt8) : Option (Nat × List UInt8) :=
  if number ≠ maxU32 then some (number, bytes)
  else if bytes.length < 8 then none
  else some (littleEndian (bytes.take 8), bytes.drop 8)

/-- Takes the field with the numbers that do not fit in four bytes: the size, the packed size and
the place. -/
def largeNumbers (e : ZipEntry) (bytes : List UInt8) : ZipEntry × Option (List UInt8) :=
  match largeNumber e.size bytes with
  | none => (e, none)
  | some (size, bytes) =>
    let e := { e with size }
    match largeNumber e.packedSize bytes with
    | none => (e, none)
    | some (packedSize, bytes) =>
      let e := { e with packedSize }
      match largeNumber e.start bytes with
      | none => (e, none)
      | some (start, bytes) => ({ e with start }, some bytes)

/-- Takes the field that says how an entry is encrypted: a version, who made it, a strength, and
how the bytes are packed. -/
def cipherField (e : ZipEntry) (length : Nat) (bytes : List UInt8) :
    Except ZipError (ZipEntry × Option (List UInt8)) :=
  let version := littleEndian (bytes.take 2)
  let vendor := littleEndian ((bytes.drop 2).take 2)
  let strength := littleEndian ((bytes.drop 4).take 1)
  let method := littleEndian ((bytes.drop 5).take 2)
  if length ≠ 7 then .error (.unsupported "AES extra data field has an unsupported length")
  else if bytes.length < 7 then .ok (e, none)
  else if vendor ≠ 0x4541 then .error (.invalid "Invalid AES vendor")
  else if version ≠ 1 ∧ version ≠ 2 then .error (.invalid "Invalid AES vendor version")
  else if strength < 1 ∨ strength > 3 then .error (.invalid "Invalid AES encryption strength")
  else .ok ({ e with packing := .ofNumber method, hasCipher := true }, some (bytes.drop 7))

/-- Takes the extra fields of an entry. Behind the numbers that do not fit in four bytes only the
rest of the field is passed over, behind every other field as many bytes as it has. -/
def extraFields : Nat → ZipEntry → List UInt8 → Except ZipError ZipEntry
  | 0, e, _ | _, e, [] => .ok e
  | fuel + 1, e, bytes => do
    if bytes.length < 4 then return e
    else
      let kind := littleEndian (bytes.take 2)
      let length := littleEndian ((bytes.drop 2).take 2)
      let bytes := bytes.drop 4
      match kind with
      | 0x0001 =>
        match largeNumbers e bytes with
        | (e, none) => return e
        | (e, some rest) =>
          extraFields fuel e (rest.drop (length - (bytes.length - rest.length)))
      | 0x9901 =>
        match ← cipherField e length bytes with
        | (e, none) => return e
        | (e, some rest) => extraFields fuel e (rest.drop length)
      | _ => extraFields fuel e (bytes.drop length)

/-! ## Reading the directory -/

/-- Reads the entry of the directory at a place, and where the next one is. -/
def directoryEntry (archive : ByteArray) (shift place : Nat) :
    Except ZipError (ZipEntry × Nat) := do
  if (← u32 archive place) ≠ 0x02014b50 then .error (.invalid "Invalid Central Directory header")
  else
    let _ ← bytesAt archive place 46
    let flags ← u16 archive (place + 8)
    let nameSize ← u16 archive (place + 28)
    let extraSize ← u16 archive (place + 30)
    let commentSize ← u16 archive (place + 32)
    let name ← bytesAt archive (place + 46) nameSize
    let extra ← bytesAt archive (place + 46 + nameSize) extraSize
    let _ ← bytesAt archive (place + 46 + nameSize + extraSize) commentSize
    let written : ZipEntry :=
      { name :=
          if flags.testBit 11 then String.ofList (utf8Name name.length name) else plainName name
        encrypted := flags.testBit 0
        packing := .ofNumber (← u16 archive (place + 10))
        check := UInt32.ofNat (← u32 archive (place + 16))
        packedSize := ← u32 archive (place + 20)
        size := ← u32 archive (place + 24)
        start := ← u32 archive (place + 42) }
    let e ← extraFields extra.length written extra
    if e.packing = .encrypted ∧ !e.hasCipher then
      .error (.invalid "AES encryption without AES extra data field")
    else if e.start + shift ≥ sumLimit then .error (.invalid "Archive header is too large")
    else
      return ({ e with start := e.start + shift },
        place + 46 + nameSize + extraSize + commentSize)

/-- Reads `count` entries of the directory. -/
def directoryEntries (archive : ByteArray) (shift : Nat) :
    Nat → Nat → Except ZipError (List ZipEntry)
  | 0, _ => .ok []
  | count + 1, place => do
    let (entry, next) ← directoryEntry archive shift place
    return entry :: (← directoryEntries archive shift count next)

/-- The entries of an archive in the order of its directory. -/
def entries (archive : ByteArray) : Except ZipError (List ZipEntry) := do
  let place ← directoryPlace archive
  directoryEntries archive place.shift place.count place.start

end JavaAtlas.Archive
