import JavaAtlas.Grammar.Overlap
import JavaAtlas.Grammar.States

namespace JavaAtlas.Grammar

/-! # Keywords and recovery

Keywords are the literals whose text is also a word; they are found by looking a word up, so
that the automata for tokens need only know the word. The error state, in which a parser skips
tokens until it can take up parsing again, looks for every token that does not get in the way of
others.
-/

/-- For each terminal the terminals that may follow it, as a bit mask. A token that may stand
anywhere follows everything and is followed by everything. -/
def followingTerminals (items : Items) : Array Nat :=
  let g := items.grammar
  let n := g.terminals.size
  let pairs := g.vars.toList.flatMap fun v => v.productions.flatMap fun p =>
    p.steps.zip (p.steps.drop 1)
  let follow := pairs.foldl (fun (follow : Array Nat) (left, right) =>
    let next := maskOfSymbol items.firsts right.symbol
    (bitsOf (maskOfSymbol items.lasts left.symbol) n).foldl
      (fun follow t => follow.modify t (· ||| next)) follow) (Array.replicate n 0)
  g.extras.foldl (fun follow e =>
    (follow.map (· ||| 1 <<< e)).setIfInBounds e ((1 <<< n) - 1)) follow

/-- The terminals, without the end of the text, on which a state acts. -/
def rowMask (width : Nat) (row : Array (List Action)) : Nat :=
  (List.range width).foldl (fun mask t =>
    if (row[t]?.getD []).isEmpty then mask else mask ||| 1 <<< t) 0

/-- For each terminal those that some state among `rows` expects beside it. -/
def companions (width : Nat) (rows : Array Nat) : Array Nat :=
  rows.foldl (fun table mask =>
    (bitsOf mask width).foldl (fun table t => table.modify t (· ||| mask)) table)
    (Array.replicate width 0)

/-- What is known about tokens and their places. -/
structure Vocabulary where
  overlaps : Overlaps
  /-- For each terminal those that are expected beside it somewhere. -/
  together : Array Nat
  /-- The keywords, as a bit mask. -/
  keywords : Nat
deriving Inhabited

/-- Whether two terminals are expected at the same place somewhere. -/
def Vocabulary.coincide (v : Vocabulary) (a b : Nat) : Bool :=
  (v.together[a]?.getD 0).testBit b

/-- Letters and the underscore, the characters of which keywords consist. -/
def isKeywordChar (c : Char) : Bool := c.isAlpha || c == '_'

/-- The keywords. A literal is one if every text of it is a word and it is preferred to the word.
It must also get along with every other token that is expected beside it in a state without
words just as the word does, since there it will be looked for as a word. -/
def keywordsOf (g : Productions) (overlaps : Overlaps) (beside : Array Nat) : Nat :=
  let n := g.terminals.size
  let candidates := (List.range n).filter fun t =>
    let o := overlaps.get t g.word
    o.sameText && !o.otherText &&
      (((g.terminals[t]?).bind (·.token.literal)).map (·.toList.all isKeywordChar)).getD false
  let unrivalled := candidates.filter fun t =>
    candidates.all fun o => o == t || !(overlaps.get o t).sameText
  let kept := unrivalled.filter fun t =>
    (List.range n).all fun o =>
      candidates.contains o || !(beside[t]?.getD 0).testBit o ||
        overlaps.get t o == overlaps.get g.word o
  kept.foldl (fun mask t => mask ||| 1 <<< t) 0

/-- Works out what there is to know about the tokens of a grammar. -/
def Vocabulary.ofStates (items : Items) (lexicon : Lexicon) (states : States) : Vocabulary :=
  let g := items.grammar
  let n := g.terminals.size
  let rows := states.actions.map (rowMask n)
  let overlaps := Overlaps.compute lexicon (followingTerminals items)
  { overlaps
    together := companions n rows
    keywords := keywordsOf g overlaps (companions n (rows.filter fun m => !m.testBit g.word)) }

/-- The terminals that the error state looks for. A token that can take more or less text than
another which never stands beside it is left out if it spoils one of those that cannot. -/
def recoverable (g : Productions) (v : Vocabulary) : List Nat :=
  let n := g.terminals.size
  let harmless := (List.range n).filter fun i =>
    (List.range n).all fun j => j == i || v.coincide i j || !v.overlaps.longerOrShorter i j
  (List.range n).filter fun i =>
    harmless.contains i || v.keywords.testBit i || i == g.word ||
      harmless.all fun t => v.coincide i t || !v.overlaps.conflict i t

/-- The states with the error state, state 0, filled in. -/
def States.withRecovery (states : States) (g : Productions) (v : Vocabulary) : States :=
  let fill (row : Array (List Action)) : Array (List Action) :=
    (recoverable g v ++ [g.terminals.size]).foldl (fun row t =>
      row.modify t fun entry => if entry.isEmpty then [.recover] else entry) row
  { states with actions := states.actions.modify 0 fill }

end JavaAtlas.Grammar
