import JavaAtlas.Archive.Checksum

namespace JavaAtlas.Archive

/-! # Writing archives

An archive whose entries are stored as they are, with names marked as UTF-8.
-/

/-- A number as `count` little-endian bytes. -/
def bytesOfNumber : Nat → Nat → List UInt8
  | 0, _ => []
  | count + 1, n => UInt8.ofNat (n % 256) :: bytesOfNumber count (n / 256)

/-- What the record of an entry says both in front of the entry and in the directory. -/
def entryHead (name content : List UInt8) : List UInt8 :=
  bytesOfNumber 2 20 ++ bytesOfNumber 2 0x0800 ++ bytesOfNumber 2 0 ++ bytesOfNumber 4 0 ++
    bytesOfNumber 4 (checksum content).toNat ++ bytesOfNumber 4 content.length ++
    bytesOfNumber 4 content.length ++ bytesOfNumber 2 name.length ++ bytesOfNumber 2 0

/-- An entry as it stands in the archive. -/
def packedEntry (name content : List UInt8) : List UInt8 :=
  bytesOfNumber 4 0x04034b50 ++ entryHead name content ++ name ++ content

/-- The record of an entry in the directory. -/
def directoryRecord (start : Nat) (name content : List UInt8) : List UInt8 :=
  bytesOfNumber 4 0x02014b50 ++ bytesOfNumber 2 20 ++ entryHead name content ++
    bytesOfNumber 2 0 ++ bytesOfNumber 2 0 ++ bytesOfNumber 2 0 ++ bytesOfNumber 4 0 ++
    bytesOfNumber 4 start ++ name

/-- The entries one after the other, from a place on, and the directory that goes with them. -/
def packEntries (start : Nat) : List (List UInt8 × List UInt8) → List UInt8 × List UInt8
  | [] => ([], [])
  | (name, content) :: rest =>
    let entry := packedEntry name content
    let (more, directory) := packEntries (start + entry.length) rest
    (entry ++ more, directoryRecord start name content ++ directory)

/-- The archive with these entries. -/
def pack (entries : List (String × List UInt8)) : List UInt8 :=
  let (body, directory) := packEntries 0 (entries.map fun (name, c) => (name.toUTF8.toList, c))
  let count := entries.length
  body ++ directory ++ bytesOfNumber 4 0x06054b50 ++ bytesOfNumber 2 0 ++ bytesOfNumber 2 0 ++
    bytesOfNumber 2 count ++ bytesOfNumber 2 count ++ bytesOfNumber 4 directory.length ++
    bytesOfNumber 4 body.length ++ bytesOfNumber 2 0

end JavaAtlas.Archive
