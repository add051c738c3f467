import JavaAtlas.Grammar.Scanner

namespace JavaAtlas.Grammar

/-! # Parsing automata

All that a parser needs to know of a grammar. Symbols are numbered anew: zero is the end of the
text, one is the word, then come the other terminals and the variables, in the order of the
grammar. Where parses of equal merit are left, the one with the smaller symbols wins, and a
missing token is looked for in the same order.
-/

/-- How a symbol shows. -/
structure SymbolInfo where
  kind : String
  /-- Whether nodes of the symbol show. -/
  visible : Bool
  named : Bool
deriving Inhabited

/-- A parsing automaton. -/
structure Automaton where
  symbols : Array SymbolInfo
  /-- The symbols below this are terminals. -/
  terminalCount : Nat
  /-- What a state does on each terminal. -/
  actions : Array (Array (List Action))
  /-- Where a state leads on each variable, counted from the first; zero is nowhere. -/
  gotos : Array (Array Nat)
  shapes : Array Shape
  scanner : Scanner
  /-- Where the scanner starts in each state. -/
  scanStarts : Array Nat
  /-- Where the scanner starts to see whether a word is a keyword. -/
  keywordStart : Nat
deriving Inhabited

namespace Automaton

/-- The state in which a parser looks for a place at which to take up parsing again. -/
def errorState : Nat := 0

/-- The state in which a parser starts. -/
def startState : Nat := 1

/-- The end of the text. -/
def eof : Nat := 0

/-- The token whose texts include every keyword. -/
def word : Nat := 1

/-- What a state does on a symbol that is a terminal. -/
def actionsOn (a : Automaton) (state symbol : Nat) : List Action :=
  ((a.actions[state]?).bind (·[symbol]?)).getD []

/-- Where a state leads on a symbol; zero is nowhere. -/
def next (a : Automaton) (state symbol : Nat) : Nat :=
  if symbol < a.terminalCount then
    match (a.actionsOn state symbol).getLast? with
    | some (.shift s _) => s
    | some .shiftExtra => state
    | _ => 0
  else ((a.gotos[state]?).bind (·[symbol - a.terminalCount]?)).getD 0

/-- The shape with a given number. -/
def shape (a : Automaton) (i : Nat) : Shape := a.shapes[i]?.getD {}

end Automaton

/-- The number of a terminal among the symbols. -/
def terminalSymbol (g : Productions) (t : Nat) : Nat :=
  if t == g.terminals.size then 0
  else if t == g.word then 1
  else if t < g.word then t + 2 else t + 1

/-- How a symbol with this name and visibility shows, unless it always has another name. -/
def symbolInfo (name : String) (visibility : Visibility) : Option Alias → SymbolInfo
  | some a => { kind := a.name, visible := true, named := a.named }
  | none =>
    { kind := name
      visible := visibility.shows
      named := visibility == .named || visibility == .hidden }

/-- All symbols of a grammar in their order. -/
def symbolInfos (g : Productions) : Array SymbolInfo :=
  let terminals := g.terminals.mapIdx fun i t =>
    symbolInfo t.name t.visibility (g.defaultAliases.lookup (.terminal i))
  let vars := g.vars.mapIdx fun i v =>
    symbolInfo v.name v.visibility (g.defaultAliases.lookup (.nonterminal i))
  let word := terminals.extract g.word (g.word + 1)
  let others := terminals.extract 0 g.word ++ terminals.extract (g.word + 1) terminals.size
  #[{ kind := "end", visible := false, named := true }] ++ word ++ others ++ vars

/-- Changes the symbol that an action names from a variable to its number. -/
def Action.withSymbol (terminalCount : Nat) : Action → Action
  | .reduce v count dynamic shape => .reduce (terminalCount + v) count dynamic shape
  | a => a

/-- Columns of a row in the order of symbols. -/
def symbolRow (g : Productions) (row : Array (List Action)) : Array (List Action) :=
  let n := g.terminals.size
  let columns := (List.range (n + 1)).foldl
    (fun (out : Array (List Action)) t =>
      out.setIfInBounds (terminalSymbol g t)
        ((row[t]?.getD []).map (Action.withSymbol (n + 1)))) (Array.replicate (n + 1) [])
  columns

/-- The automaton of a grammar. -/
def Spec.automaton (spec : Spec) : Automaton :=
  let g := spec.productions
  let items := Items.ofGrammar g
  let shapes := Shapes.ofItems items
  let states := Search.run items shapes.ofClass 1000000
  let lexicon := Lexicon.ofTerminals g.terminals g.blanks
  let vocabulary := Vocabulary.ofStates items lexicon states
  let states := states.withRecovery g vocabulary
  let grouping := states.grouping g vocabulary
  let rows := ((grouping.merge states).withoutUnits g).compact (grouping.get 0) (grouping.get 1)
  let (chosen, uses) := selections g vocabulary rows
  let (scanner, starts) := Scanner.ofSelections lexicon (vocabulary.keywords :: chosen)
  let scanner := { scanner with
    states := scanner.states.map fun s => { s with accepts := s.accepts.map (terminalSymbol g) } }
  let starts := starts.toArray
  { symbols := symbolInfos g
    terminalCount := g.terminals.size + 1
    actions := rows.actions.map (symbolRow g)
    gotos := rows.gotos
    shapes := shapes.shapes
    scanner
    scanStarts := uses.map fun i => starts[i + 1]?.getD 0
    keywordStart := starts[0]?.getD 0 }

end JavaAtlas.Grammar
