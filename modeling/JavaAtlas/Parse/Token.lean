import JavaAtlas.Parse.Subtree

namespace JavaAtlas.Parse

open Grammar

/-! # Finding tokens

The next token at a place is the one that the state of the parser selects. If there is none, the
tokens of the error state are tried; if there is none of those either, characters are skipped up
to the next one, and what was skipped is one token of text that fits nowhere.
-/

/-- A text as its bytes, which are well-formed UTF-8. -/
structure Source where
  bytes : ByteArray
deriving Inhabited

namespace Source

/-- A text. -/
def ofString (s : String) : Source := ⟨s.toUTF8⟩

/-- The number of bytes. -/
def size (src : Source) : Nat := src.bytes.size

/-- The byte at `i`, zero beyond the end. -/
def byteAt (src : Source) (i : Nat) : Nat :=
  if h : i < src.bytes.size then src.bytes[i].toNat else 0

/-- The code point that starts at `i`, with its length in bytes. -/
def decodeAt (src : Source) (i : Nat) : Nat × Nat :=
  let b := src.byteAt i
  if b < 0x80 then (b, 1)
  else if b < 0xE0 then ((b % 0x20) * 0x40 + src.byteAt (i + 1) % 0x40, 2)
  else if b < 0xF0 then
    ((b % 0x10) * 0x1000 + (src.byteAt (i + 1) % 0x40) * 0x40 + src.byteAt (i + 2) % 0x40, 3)
  else
    ((b % 0x08) * 0x40000 + (src.byteAt (i + 1) % 0x40) * 0x1000 +
      (src.byteAt (i + 2) % 0x40) * 0x40 + src.byteAt (i + 3) % 0x40, 4)

/-- Line ends in the `count` bytes from `i` on. -/
def rowsFrom (src : Source) (rows i : Nat) : Nat → Nat
  | 0 => rows
  | count + 1 => src.rowsFrom (if src.byteAt i == 10 then rows + 1 else rows) (i + 1) count

/-- The text between two places. -/
def extent (src : Source) (first last : Nat) : Extent :=
  ⟨last - first, src.rowsFrom 0 first (last - first)⟩

end Source

/-- Where the scanner is. -/
structure ScanPoint where
  state : Nat
  position : Nat
  /-- Where the token starts, behind the white space. -/
  start : Nat
  /-- The longest token so far, with its end. -/
  found : Option (Nat × Nat) := none
deriving Inhabited

/-- Takes the scanner one step further. At the end of the text it only takes note of the end; a
NUL character belongs to no token. -/
def ScanPoint.step (scanner : Scanner) (src : Source) (p : ScanPoint) : Option ScanPoint :=
  match scanner.states[p.state]? with
  | none => none
  | some s =>
    if p.position ≥ src.size then s.atEnd.map fun next => { p with state := next }
    else
      let (c, width) := src.decodeAt p.position
      if c == 0 then none
      else match s.moves[scanner.alphabet.classOf c]?.join with
        | none => none
        | some (next, blank) =>
          let position := p.position + width
          some { p with state := next, position, start := if blank then position else p.start }

/-- Takes note of a token that is complete where the scanner is. -/
def ScanPoint.note (scanner : Scanner) (p : ScanPoint) : ScanPoint :=
  match (scanner.states[p.state]?).bind (·.accepts) with
  | some symbol => { p with found := some (symbol, p.position) }
  | none => p

/-- A place behind a byte order mark at the start of the text. -/
def skipMark (src : Source) (position : Nat) : Nat :=
  if position == 0 && src.size > 0 && (src.decodeAt 0).1 == 0xFEFF then 3 else position

/-- Runs the scanner from a place as far as it goes. -/
def scanFrom (scanner : Scanner) (src : Source) (start position : Nat) : ScanPoint :=
  let position := skipMark src position
  let first : ScanPoint := { state := start, position, start := position }
  let last := iterate (fun p => (p.step scanner src).map (·.note scanner)) (src.size + 2)
    (first.note scanner)
  match last.found with
  | some (_, stop) => { last with start := min last.start stop }
  | none => last

/-- The search for a token. -/
structure TokenSearch where
  position : Nat
  /-- Where the scanner starts. -/
  mode : Nat
  inError : Bool
  /-- Text that was skipped. -/
  skipped : Option (Nat × Nat) := none
  found : Option ScanPoint := none
  /-- Nothing is left to be tried. -/
  done : Bool := false

/-- One more attempt to find a token. -/
def TokenSearch.step (a : Automaton) (src : Source) (origin : Nat) (s : TokenSearch) :
    Option TokenSearch :=
  if s.done then none
  else
    let p := scanFrom a.scanner src s.mode s.position
    if p.found.isSome then some { s with found := some p, done := true }
    else if !s.inError then
      some { s with
        inError := true
        mode := a.scanStarts[Automaton.errorState]?.getD 0
        position := origin }
    else
      let (first, last) := s.skipped.getD (p.start, p.start)
      if p.position == last then
        if p.position ≥ src.size then some { s with skipped := some (first, last), done := true }
        else
          let next := p.position + (src.decodeAt p.position).2
          some { s with position := next, skipped := some (first, next) }
      else some { s with position := p.position, skipped := some (first, p.position) }

/-- The token at `origin` in a state of the parser. -/
def tokenAt (a : Automaton) (src : Source) (state origin : Nat) : Subtree :=
  let s := iterate (TokenSearch.step a src origin) (2 * src.size + 4)
    { position := origin
      mode := a.scanStarts[state]?.getD 0
      inError := state == Automaton.errorState }
  match s.skipped, s.found with
  | none, some p =>
    let (symbol, stop) := p.found.getD (0, p.position)
    let padding := src.extent origin p.start
    let size := src.extent p.start stop
    if symbol == Automaton.word then
      match (scanFrom a.scanner src a.keywordStart p.start).found with
      | some (keyword, keywordStop) =>
        let symbol :=
          if keywordStop == stop && !(a.actionsOn state keyword).isEmpty then keyword else symbol
        .leaf a symbol padding size true
      | none => .leaf a symbol padding size
    else .leaf a symbol padding size
  | skipped, _ =>
    let (first, last) := skipped.getD (origin, origin)
    .leaf a errorSymbol (src.extent origin first) (src.extent first last)

end JavaAtlas.Parse
