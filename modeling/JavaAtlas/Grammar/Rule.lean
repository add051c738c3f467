import JavaAtlas.Text.CodeRanges

namespace JavaAtlas.Grammar

/-! # Grammars as data

A grammar is a list of named rules over two kinds of leaves: references to other rules, and
tokens, which are patterns of characters. Rules carry marks that settle ambiguities (a static
precedence with an associativity, a dynamic precedence) and that shape the tree (the name of a
field, another name for a node).
-/

/-- A regular expression over code points. -/
inductive Pattern where
  | chars (set : CodeRanges)
  | seq (parts : List Pattern)
  | alt (options : List Pattern)
  | optional (body : Pattern)
  | many (body : Pattern)
  | some (body : Pattern)
deriving BEq, Inhabited

/-- The pattern that matches `text` alone. -/
def Pattern.text (text : String) : Pattern :=
  .seq (text.toList.map fun c => .chars (.ofChars (String.singleton c)))

/-- Between `low` and `low + extra` copies of `body`. -/
def Pattern.times (body : Pattern) (low extra : Nat) : Pattern :=
  .seq (List.replicate low body ++ List.replicate extra (.optional body))

/-- A token: a pattern, and what decides when two tokens compete for the same characters. -/
structure Token where
  pattern : Pattern
  /-- The text of a token that has only one; such tokens beat patterns of equal length. -/
  literal : Option String := none
  /-- Of two tokens the one of higher precedence wins, whatever their lengths. -/
  precedence : Int := 0
  /-- An immediate token follows the one before it without white space between. -/
  immediate : Bool := false
deriving BEq, Inhabited

/-- Which way operators of equal precedence group. -/
inductive Assoc where
  | left
  | right
deriving DecidableEq, Hashable, Inhabited, Ord, Repr

/-- Another name for a node; an anonymous alias makes it look like a token. -/
structure Alias where
  name : String
  named : Bool
deriving DecidableEq, Hashable, Inhabited, Ord, Repr

/-- What a rule says beyond the symbols it matches. -/
structure Marks where
  precedence : Option Int := none
  dynamic : Int := 0
  assoc : Option Assoc := none
  renamed : Option Alias := none
  field : Option String := none
deriving BEq, Hashable, Inhabited

/-- A rule over leaves of type `α`. -/
inductive Rule (α : Type) where
  | blank
  | leaf (a : α)
  | choice (options : List (Rule α))
  | seq (parts : List (Rule α))
  | some (body : Rule α)
  | marked (marks : Marks) (body : Rule α)
deriving BEq, Hashable, Inhabited

/-- A leaf as it is written down. -/
inductive Leaf where
  | token (token : Token)
  | ref (name : String)
deriving BEq, Inhabited

/-- The form in which a grammar's rules are written. -/
abbrev Form := Rule Leaf

/-- A grammar. The first rule is the start symbol. -/
structure Spec where
  rules : List (String × Form)
  /-- Named rules, all tokens, that may stand anywhere. -/
  extras : List String
  /-- White space between tokens. -/
  blanks : CodeRanges
  /-- Rules that only group others and give no node. -/
  supertypes : List String
  /-- Rules that are replaced by their bodies before the automaton is built. -/
  inlined : List String
  /-- The token whose texts include every keyword. -/
  word : String
deriving Inhabited

/-! ## Writing rules -/

namespace Rule

variable {α : Type}

/-- The options of a rule that is a choice, or the rule itself. -/
def options : Rule α → List (Rule α)
  | .choice rs => rs
  | r => [r]

/-- A choice; nested choices are opened up and repeated options dropped. -/
def oneOf [BEq α] (rules : List (Rule α)) : Rule α :=
  .choice ((rules.flatMap options).foldl (fun kept r => if kept.contains r then kept else kept ++ [r]) [])

/-- `r` or nothing. -/
def optional [BEq α] (r : Rule α) : Rule α := oneOf [r, .blank]

/-- Any number of `r`. -/
def many [BEq α] (r : Rule α) : Rule α := oneOf [.some r, .blank]

/-- Adds a mark, joining it with marks that are there already. -/
def mark (change : Marks → Marks) : Rule α → Rule α
  | .marked m r => .marked (change m) r
  | r => .marked (change {}) r

/-- Gives the nodes of `r` the field name `name`. -/
def field (name : String) (r : Rule α) : Rule α :=
  r.mark fun m => { m with field := Option.some name }

/-- Shows the nodes of `r` under the name `name`. -/
def shownAs (name : String) (r : Rule α) : Rule α :=
  r.mark fun m => { m with renamed := Option.some ⟨name, true⟩ }

/-- Static precedence without associativity. -/
def prec (level : Int) (r : Rule α) : Rule α :=
  r.mark fun m => { m with precedence := Option.some level }

/-- Static precedence, grouping to the left. -/
def precLeft (level : Int) (r : Rule α) : Rule α :=
  r.mark fun m => { m with precedence := Option.some level, assoc := Option.some .left }

/-- Static precedence, grouping to the right. -/
def precRight (level : Int) (r : Rule α) : Rule α :=
  r.mark fun m => { m with precedence := Option.some level, assoc := Option.some .right }

/-- Precedence that chooses between finished parses. -/
def precDynamic (level : Int) (r : Rule α) : Rule α :=
  r.mark fun m => { m with dynamic := level }

end Rule

/-- The rule called `name`. -/
def ref (name : String) : Form := .leaf (.ref name)

/-- The token with exactly this text. -/
def lit (text : String) : Form :=
  .leaf (.token { pattern := .text text, literal := some text })

/-- The token that matches `pattern`. -/
def token (pattern : Pattern) : Form := .leaf (.token { pattern })

/-- A token that follows the one before it directly. -/
def immediate (pattern : Pattern) (precedence : Int := 0) : Form :=
  .leaf (.token { pattern, precedence, immediate := true })

/-- One or more `r`, with `separator` between them. -/
def sepBy1 (separator : String) (r : Form) : Form :=
  .seq [r, .many (.seq [lit separator, r])]

/-- One or more `r` with commas between them. -/
def commaSep1 (r : Form) : Form := sepBy1 "," r

/-- Any number of `r` with commas between them. -/
def commaSep (r : Form) : Form := .optional (commaSep1 r)

end JavaAtlas.Grammar
