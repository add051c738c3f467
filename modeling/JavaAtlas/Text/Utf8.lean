namespace JavaAtlas

/-! # Bytes as text

UTF-8 without surrogates and without forms longer than need be. A fault tells where the text
ends that is well formed, and how many bytes there cannot be the start of a character.
-/

/-- Why bytes are no text. -/
inductive Utf8Fault where
  /-- The `length` bytes from `index` on are no character. -/
  | invalid (length index : Nat)
  /-- The bytes from `index` on are the start of a character only. -/
  | incomplete (index : Nat)
deriving DecidableEq, Inhabited, Repr

/-- The wording of a fault. -/
def Utf8Fault.text : Utf8Fault → String
  | .invalid length index => s!"invalid utf-8 sequence of {length} bytes from index {index}"
  | .incomplete index => s!"incomplete utf-8 byte sequence from index {index}"

namespace Utf8

/-- Whether a byte continues a character. -/
def isTail (b : UInt8) : Bool := 0x80 ≤ b && b ≤ 0xBF

/-- How many bytes a character with this first byte has; zero if there is none. -/
def width (b : UInt8) : Nat :=
  if b < 0x80 then 1
  else if b < 0xC2 then 0
  else if b < 0xE0 then 2
  else if b < 0xF0 then 3
  else if b < 0xF5 then 4
  else 0

/-- Whether a byte may be the second one of a character of three or four bytes. -/
def isSecond (first second : UInt8) : Bool :=
  if first == 0xE0 then 0xA0 ≤ second && second ≤ 0xBF
  else if first == 0xED then 0x80 ≤ second && second ≤ 0x9F
  else if first == 0xF0 then 0x90 ≤ second && second ≤ 0xBF
  else if first == 0xF4 then 0x80 ≤ second && second ≤ 0x8F
  else isTail second

/-- What a byte that continues a character adds to it. -/
def bits (b : UInt8) : Nat := b.toNat % 64

/-- Reads the character at the start of `bytes`, which are those from `index` on. -/
def step (index : Nat) (first : UInt8) (rest : List UInt8) :
    Except Utf8Fault (Char × List UInt8) :=
  match width first, rest with
  | 1, rest => .ok (Char.ofNat first.toNat, rest)
  | 2, [] => .error (.incomplete index)
  | 2, b :: rest =>
    if isTail b then .ok (Char.ofNat (first.toNat % 32 * 64 + bits b), rest)
    else .error (.invalid 1 index)
  | 3, [] => .error (.incomplete index)
  | 3, b :: rest =>
    if !isSecond first b then .error (.invalid 1 index)
    else match rest with
      | [] => .error (.incomplete index)
      | c :: rest =>
        if isTail c then
          .ok (Char.ofNat (first.toNat % 16 * 4096 + bits b * 64 + bits c), rest)
        else .error (.invalid 2 index)
  | 4, [] => .error (.incomplete index)
  | 4, b :: rest =>
    if !isSecond first b then .error (.invalid 1 index)
    else match rest with
      | [] => .error (.incomplete index)
      | c :: rest =>
        if !isTail c then .error (.invalid 2 index)
        else match rest with
          | [] => .error (.incomplete index)
          | d :: rest =>
            if isTail d then
              .ok (Char.ofNat
                (first.toNat % 8 * 262144 + bits b * 4096 + bits c * 64 + bits d), rest)
            else .error (.invalid 3 index)
  | _, _ => .error (.invalid 1 index)

/-- Reads characters up to the end; `fuel` is at least the number of bytes. -/
def decodeFrom (index : Nat) : Nat → List UInt8 → Except Utf8Fault (List Char)
  | _, [] => .ok []
  | 0, _ :: _ => .error (.incomplete index)
  | fuel + 1, b :: rest => do
    let (c, rest) ← step index b rest
    let cs ← decodeFrom (index + width b) fuel rest
    return c :: cs

/-- The bytes of a text. -/
def utf8Bytes (text : String) : List UInt8 := text.toUTF8.data.toList

/-- The text that bytes stand for. -/
def decode (bytes : List UInt8) : Except Utf8Fault String := do
  return String.ofList (← decodeFrom 0 bytes.length bytes)

end Utf8

end JavaAtlas
