import JavaAtlas.Grammar.Automaton

namespace JavaAtlas.Parse

open Grammar

/-! # Pieces of a parse

What the parser pushes on its stack: tokens and the nodes built over them, with all sums that
the choice between parses needs. Positions are relative: a piece knows how much white space
stands before it and how long it is.
-/

/-- A length of text: bytes, and line ends among them. -/
structure Extent where
  bytes : Nat := 0
  rows : Nat := 0
deriving DecidableEq, Inhabited, Repr

instance : Add Extent := ⟨fun a b => ⟨a.bytes + b.bytes, a.rows + b.rows⟩⟩

/-- The symbol of text that fits nowhere. -/
def errorSymbol : Nat := 65535

/-- The symbol of a run of skipped tokens. -/
def skippedSymbol : Nat := 65534

/-! ## What errors cost -/

/-- What taking up parsing again costs. -/
def costPerRecovery : Nat := 500

/-- What putting in a token that is not there costs, beside the recovery. -/
def costPerMissing : Nat := 110

/-- What skipping a node costs. -/
def costPerSkippedTree : Nat := 100

/-- What skipping a byte costs. -/
def costPerSkippedByte : Nat := 1

/-- What skipping a line costs. -/
def costPerSkippedLine : Nat := 30

/-- What a piece says about itself and about all below it. -/
structure Summary where
  symbol : Nat
  /-- White space before the piece. -/
  padding : Extent := {}
  size : Extent := {}
  /-- It may stand anywhere and counts for no production. -/
  extra : Bool := false
  /-- It is not in the text. -/
  missing : Bool := false
  /-- It is a word that is the beginning of a keyword or more. -/
  keyword : Bool := false
  /-- The number of its production's shape. -/
  shape : Nat := 0
  visible : Bool := false
  /-- What the errors in it cost. -/
  cost : Nat := 0
  dynamic : Int := 0
  childCount : Nat := 0
  /-- Visible nodes below it. -/
  visibleBelow : Nat := 0
  /-- Visible nodes below it with none between. -/
  visibleChildren : Nat := 0
deriving Inhabited

/-- A piece of a parse. -/
inductive Subtree where
  | mk (summary : Summary) (children : List Subtree)
deriving Inhabited

namespace Subtree

/-- What the piece says about itself. -/
def summary : Subtree → Summary
  | .mk s _ => s

/-- The pieces of which it is built. -/
def children : Subtree → List Subtree
  | .mk _ cs => cs

/-- The symbol. -/
def symbol (t : Subtree) : Nat := t.summary.symbol

/-- Whether the piece counts for no production. -/
def extra (t : Subtree) : Bool := t.summary.extra

/-- The whole length, with the white space before it. -/
def total (t : Subtree) : Extent := t.summary.padding + t.summary.size

/-- The number of nodes by which progress is measured. -/
def nodeCount (t : Subtree) : Nat :=
  let s := t.summary
  s.visibleBelow + (if s.visible then 1 else 0) + (if s.symbol == skippedSymbol then 1 else 0)

end Subtree

/-- Whether nodes of a symbol show. -/
def showsSymbol (a : Automaton) (symbol : Nat) : Bool :=
  if symbol == errorSymbol then true
  else ((a.symbols[symbol]?).map (·.visible)).getD false

/-- A token. -/
def Subtree.leaf (a : Automaton) (symbol : Nat) (padding size : Extent)
    (keyword : Bool := false) : Subtree :=
  .mk { symbol, padding, size, keyword
        extra := symbol == Automaton.eof
        visible := showsSymbol a symbol } []

/-- A token that is put in where the text has none. -/
def Subtree.absent (a : Automaton) (symbol : Nat) : Subtree :=
  .mk { symbol
        missing := true
        visible := showsSymbol a symbol
        cost := costPerMissing + costPerRecovery } []

/-- The token, as one that may stand anywhere or not. -/
def Subtree.withExtra (extra : Bool) : Subtree → Subtree
  | .mk s cs => .mk { s with extra } cs

/-- Takes one more child into a summary. `inError` is for nodes that hold skipped text; `aliases`
are those of the children that count for the production, from this one on. -/
def Summary.addChild (inError : Bool) (s : Summary) (aliases : List (Option Alias))
    (c : Summary) : Summary :=
  let aliased := !c.extra && c.symbol != Automaton.eof && (aliases.head?.join).isSome
  let skipped :=
    if inError && !c.extra && !(c.symbol == errorSymbol && c.childCount == 0) then
      if c.visible then costPerSkippedTree
      else if c.childCount > 0 then costPerSkippedTree * c.visibleChildren
      else 0
    else 0
  { s with
    padding := if s.childCount == 0 then c.padding else s.padding
    size := if s.childCount == 0 then c.size else s.size + (c.padding + c.size)
    cost := s.cost + (if c.symbol == skippedSymbol then 0 else c.cost) + skipped
    dynamic := s.dynamic + c.dynamic
    childCount := s.childCount + 1
    visibleBelow := s.visibleBelow + c.visibleBelow + (if aliased || c.visible then 1 else 0)
    visibleChildren := s.visibleChildren +
      (if aliased || c.visible then 1 else if c.childCount > 0 then c.visibleChildren else 0) }

/-- Takes children into a summary. -/
def Summary.addChildren (inError : Bool) (s : Summary) (aliases : List (Option Alias)) :
    List Subtree → Summary
  | [] => s
  | c :: rest =>
    Summary.addChildren inError (s.addChild inError aliases c.summary)
      (if c.extra then aliases else aliases.drop 1) rest

/-- A node over `children`. -/
def Subtree.node (a : Automaton) (symbol : Nat) (children : List Subtree) (shape : Nat)
    (extra : Bool := false) (dynamic : Int := 0) : Subtree :=
  let inError := symbol == errorSymbol || symbol == skippedSymbol
  let s := Summary.addChildren inError
    { symbol, shape, extra, dynamic, visible := showsSymbol a symbol } (a.shape shape).aliases children
  let own :=
    if inError then
      costPerRecovery + costPerSkippedByte * s.size.bytes + costPerSkippedLine * s.size.rows
    else 0
  .mk { s with cost := s.cost + own } children

mutual

/-- Orders pieces by their symbols and numbers of children, from the root down. -/
def Subtree.compare : Subtree → Subtree → Ordering
  | .mk s cs, .mk t ds =>
    (Ord.compare s.symbol t.symbol).then
      ((Ord.compare s.childCount t.childCount).then (Subtree.compareAll cs ds))

/-- Orders lists of pieces of equal length. -/
def Subtree.compareAll : List Subtree → List Subtree → Ordering
  | [], _ => .eq
  | _ :: _, [] => .eq
  | c :: cs, d :: ds => (Subtree.compare c d).then (Subtree.compareAll cs ds)

end

/-- Whether `right` is to be chosen before `left`: the one with cheaper errors, then the one of
higher dynamic precedence; with errors in both the later, else the smaller. -/
def Subtree.prefersRight (left right : Subtree) : Bool :=
  let l := left.summary
  let r := right.summary
  if r.cost < l.cost then true
  else if l.cost < r.cost then false
  else if r.dynamic > l.dynamic then true
  else if l.dynamic > r.dynamic then false
  else if l.cost > 0 then true
  else Subtree.compare left right == .gt

/-- Parts the pieces at the end that may stand anywhere from the others. -/
def splitTrailingExtras (pieces : List Subtree) : List Subtree × List Subtree :=
  let trailing := (pieces.reverse.takeWhile (·.extra)).reverse
  (pieces.take (pieces.length - trailing.length), trailing)

end JavaAtlas.Parse
