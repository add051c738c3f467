import JavaAtlas.Text.Blank
import JavaAtlas.Model.Reports

namespace JavaAtlas

/-! # Parts of texts

Lines, the lines around a place, and messages cut to a length.
-/

/-- The first `max` characters. -/
def truncateChars (text : String) (max : Nat) : String := String.ofList (text.toList.take max)

/-- The characters up to each line end; what follows the last one is a line if it is not empty. -/
def splitLines (line : List Char) : List Char → List (List Char)
  | [] => if line.isEmpty then [] else [line.reverse]
  | '\n' :: rest => line.reverse :: splitLines [] rest
  | c :: rest => splitLines (c :: line) rest

/-- A line without the carriage return that belongs to its line end. -/
def dropReturn (line : List Char) : List Char :=
  if line.getLast? = some '\r' then line.dropLast else line

/-- What `splitLines` gives, a carriage return before a line end being part of it. -/
def trimLines (ended : Bool) (lines : List (List Char)) : List (List Char) :=
  match lines with
  | [] => []
  | [last] => [if ended then dropReturn last else last]
  | l :: rest => dropReturn l :: trimLines ended rest

/-- The lines of a text without their line ends. -/
def linesOf (text : String) : List String :=
  let chars := text.toList
  (trimLines (chars.getLast? = some '\n') (splitLines [] chars)).map String.ofList

/-- The lines from `line - radius` to `line + radius`, as far as the text has them. -/
def contextWindow (text : String) (line radius : Int) : List ContextLine :=
  let lines := linesOf text
  if lines.isEmpty ∨ line < 1 then []
  else
    let first := max (line - radius) 1
    let last := min (line + radius) lines.length
    let count := (last - first + 1).toNat
    ((lines.drop (first - 1).toNat).take count).zipIdx.map fun (text, i) =>
      { line := first + i, text, marked := first + i = line }

/-- The line of a byte: one more than the line ends before it. -/
def lineOfByte (text : String) (byte : Nat) : Int :=
  let bytes := text.toUTF8
  (bytes.toList.take byte).countP (· == 10) + 1

/-- How many characters of a message are kept. -/
def messageLimit : Nat := 200

/-- How many lines are shown before and after the line of a diagnostic. -/
def contextRadius : Int := 3

/-- What a message may begin with that says nothing. -/
def messageLabels : List String := ["Error:", "错误:", "错误："]

/-- A text without `label` at its start, if it has it. -/
def dropLabel? (label text : String) : Option String :=
  if label.toList.isPrefixOf text.toList then
    some (String.ofList (text.toList.drop label.length))
  else none

/-- A message without its label, cut to the limit. -/
def cleanMessage (raw : String) : String :=
  let message := trim raw
  let message := match messageLabels.findSome? (dropLabel? · message) with
    | some rest => trimStart rest
    | none => message
  truncateChars message messageLimit

end JavaAtlas
