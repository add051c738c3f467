import JavaAtlas.Grammar.Grouping

namespace JavaAtlas.Grammar

/-! # The scanner

Deterministic automata for selections of tokens. Parser states whose tokens do not get in each
other's way share a selection.
-/

/-- A state of the scanner. -/
structure ScanState where
  /-- The terminal that is complete here; the number above the last terminal is the end of the
  text. -/
  accepts : Option Nat := none
  /-- Where the end of the text leads. -/
  atEnd : Option Nat := none
  /-- Where a character of each class leads, and whether it is skipped as white space. -/
  moves : Array (Option (Nat × Bool)) := #[]
deriving Inhabited

/-- Deterministic automata over classes of characters. -/
structure Scanner where
  alphabet : Alphabet
  states : Array ScanState
deriving Inhabited

/-- What the construction of the scanner has found. A state of the scanner is a set of states of
the lexicon, together with whether the text may end there. -/
structure Scan where
  sets : Array (Array Nat × Bool) := #[]
  index : Std.HashMap (Array Nat × Bool) Nat := {}

/-- The number of a set of states, entered if it is new. -/
def Scan.enter (s : Scan) (l : Lexicon) (raw : Array Nat) (mayEnd : Bool) : Scan × Nat :=
  let key := (l.closure raw, mayEnd)
  match s.index[key]? with
  | some i => (s, i)
  | none =>
    ({ sets := s.sets.push key, index := s.index.insert key s.sets.size }, s.sets.size)

/-- Works out state `i` of the scanner. -/
def Scan.expand (l : Lexicon) (s : Scan) (i : Nat) : Scan × ScanState :=
  let (states, mayEnd) := s.sets[i]?.getD (#[], false)
  let complete := l.winner? states
  let skipping := l.skipsBlanks states
  let (s, atEnd) :=
    if mayEnd then
      let (s, e) := s.enter l #[] false
      (s, some e)
    else (s, none)
  let readable := l.readable states
  let (s, moves) := (List.range l.alphabet.size).foldl
    (fun (s, (moves : Array (Option (Nat × Bool)))) k =>
      if readable.testBit k then
        let m := l.move states k
        if (complete.map fun c => l.goesOn m c skipping).getD true then
          let (s, next) := s.enter l m.targets (mayEnd && m.blank)
          (s, moves.push (some (next, m.blank)))
        else (s, moves.push none)
      else (s, moves.push none)) (s, #[])
  let accepts := complete.orElse fun _ => if states.isEmpty then some l.starts.size else none
  (s, { accepts, atEnd, moves })

/-- The scanner for some selections of terminals, each a bit mask in which the bit above the last
terminal is the end of the text, with the state in which each selection starts. -/
def Scanner.ofSelections (l : Lexicon) (selections : List Nat) : Scanner × List Nat :=
  let n := l.starts.size
  let (scan, starts) := selections.foldl (fun (s, (starts : List Nat)) mask =>
    let raw := (bitsOf mask n).map fun t => l.starts[t]?.getD 0
    let (s, i) := Scan.enter s l raw.toArray (mask.testBit n)
    (s, starts ++ [i])) (({} : Scan), [])
  let (_, states) := iterate (fun ((s, states) : Scan × Array ScanState) =>
    if states.size < s.sets.size then
      let (s, state) := s.expand l states.size
      some (s, states.push state)
    else none) 100000 (scan, #[])
  ({ alphabet := l.alphabet, states }, starts)

/-! ## Selections of tokens -/

/-- For each terminal those that spoil it, or are spoiled by it, if both are looked for where
only one is expected. -/
def spoilers (g : Productions) (v : Vocabulary) : Array Nat :=
  let n := g.terminals.size
  (Array.range n).map fun i => (List.range n).foldl (fun mask t =>
    if v.overlaps.conflict i t || (v.overlaps.get i t).stopsShort ||
      (!v.coincide i t && (v.overlaps.overlap t i || v.overlaps.overlap i t))
    then mask ||| 1 <<< t else mask) 0

/-- Whether two selections may be joined. -/
def joinable (spoilers : Array Nat) (width a b : Nat) : Bool :=
  (bitsOf ((a ^^^ b) &&& ((1 <<< width) - 1)) width).all fun i =>
    let without := if a.testBit i then b else a
    (spoilers[i]?.getD 0) &&& without == 0

/-- The terminals a state looks for, keywords being looked for as words. -/
def selectionOf (g : Productions) (v : Vocabulary) (row : Array (List Action)) : Nat :=
  (List.range row.size).foldl (fun mask t =>
    if (row[t]?.getD []).isEmpty then mask
    else mask ||| 1 <<< (if v.keywords.testBit t then g.word else t)) 0

/-- Joins `mask` with the first selection that admits it; gives its place. -/
def addSelection (spoilers : Array Nat) (width mask : Nat) : List Nat → List Nat × Nat
  | [] => ([mask], 0)
  | a :: rest =>
    if joinable spoilers width a mask then ((a ||| mask) :: rest, 0)
    else
      let (rest, i) := addSelection spoilers width mask rest
      (a :: rest, i + 1)

/-- The selections of tokens that some rows need, and which of them each row uses. -/
def selections (g : Productions) (v : Vocabulary) (rows : Rows) : List Nat × Array Nat :=
  let n := g.terminals.size
  let bad := spoilers g v
  rows.actions.foldl (fun (chosen, (uses : Array Nat)) row =>
    let (chosen, i) := addSelection bad n (selectionOf g v row) chosen
    (chosen, uses.push i)) ([], #[])

end JavaAtlas.Grammar
