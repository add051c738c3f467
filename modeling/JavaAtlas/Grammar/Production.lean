import JavaAtlas.Grammar.Rule
import Std.Data.HashMap

namespace JavaAtlas.Grammar

/-! # Productions

A grammar in the form from which automata are built: tokens and variables are numbered, every
variable has a list of productions, and a repetition has become an auxiliary variable `X` with
the productions `X X` and the repeated body, so that any number of repetitions is a binary tree.
-/

/-- A symbol: the end of the text, a token, or a variable. The order is the order in which the
states of an automaton are numbered. -/
inductive Symbol where
  | eof
  | terminal (index : Nat)
  | nonterminal (index : Nat)
deriving DecidableEq, Hashable, Inhabited, Ord, Repr

/-- How a symbol shows in the tree: as a named node, as a node whose kind is its text, not at
all, or not at all because it only serves the construction. -/
inductive Visibility where
  | named
  | anonymous
  | hidden
  | auxiliary
deriving DecidableEq, Inhabited, Repr

/-- Whether nodes of the symbol show in the tree. -/
def Visibility.shows : Visibility → Bool
  | .named | .anonymous => true
  | .hidden | .auxiliary => false

/-- One symbol of a production, with the marks that apply to it. -/
structure Step where
  symbol : Symbol
  precedence : Option Int := none
  assoc : Option Assoc := none
  renamed : Option Alias := none
  field : Option String := none
deriving BEq, Hashable, Inhabited

/-- A right-hand side. -/
structure Production where
  dynamic : Int := 0
  steps : List Step := []
deriving BEq, Hashable, Inhabited

/-- A variable with its right-hand sides. -/
structure Variable where
  name : String
  visibility : Visibility
  productions : List Production
deriving Inhabited

/-- A token with its name. -/
structure Terminal where
  name : String
  visibility : Visibility
  token : Token
deriving Inhabited

/-- A grammar in terms of productions. -/
structure Productions where
  terminals : Array Terminal
  vars : Array Variable
  /-- Tokens that may stand anywhere, as terminal numbers. -/
  extras : List Nat
  blanks : CodeRanges
  supertypes : List Nat
  inlined : List Nat
  /-- The terminal whose texts include every keyword. -/
  word : Nat
  /-- The name of a symbol that never shows under its own. -/
  defaultAliases : List (Symbol × Alias) := []
deriving Inhabited

/-! ## Tokens apart from variables -/

/-- Tokens met so far, with the number of places they occur in. -/
structure TokenTable where
  entries : Array (Terminal × Nat) := #[]
deriving Inhabited

/-- Looks `token` up, entering it on its first occurrence. `owner` and `serial` name tokens that
have no text of their own: the rule and the how-manieth such token of it this is. -/
def TokenTable.enter (table : TokenTable) (token : Token) (owner : String) (serial : Nat) :
    TokenTable × Nat × Nat :=
  match table.entries.findIdx? (·.1.token == token) with
  | some i => (⟨table.entries.modify i fun (t, n) => (t, n + 1)⟩, i, serial)
  | none =>
    let (name, visibility, serial) :=
      match token.literal with
      | some text => (text, Visibility.anonymous, serial)
      | none => (s!"{owner}_token{serial + 1}", Visibility.auxiliary, serial + 1)
    (⟨table.entries.push (⟨name, visibility, token⟩, 1)⟩, table.entries.size, serial)

mutual

/-- Replaces the leaves of a rule by symbols. -/
def internRule (rules : List String) (owner : String) (table : TokenTable) (serial : Nat) :
    Form → TokenTable × Nat × Rule Symbol
  | .blank => (table, serial, .blank)
  | .leaf (.ref name) => (table, serial, .leaf (.nonterminal (rules.idxOf name)))
  | .leaf (.token token) =>
    let (table, index, serial) := table.enter token owner serial
    (table, serial, .leaf (.terminal index))
  | .some body =>
    let (table, serial, body) := internRule rules owner table serial body
    (table, serial, .some body)
  | .marked marks body =>
    let (table, serial, body) := internRule rules owner table serial body
    (table, serial, .marked marks body)
  | .choice options =>
    let (table, serial, options) := internRules rules owner table serial options
    (table, serial, .choice options)
  | .seq parts =>
    let (table, serial, parts) := internRules rules owner table serial parts
    (table, serial, .seq parts)

/-- `internRule` from left to right. -/
def internRules (rules : List String) (owner : String) (table : TokenTable) (serial : Nat) :
    List Form → TokenTable × Nat × List (Rule Symbol)
  | [] => (table, serial, [])
  | r :: rest =>
    let (table, serial, r) := internRule rules owner table serial r
    let (table, serial, rest) := internRules rules owner table serial rest
    (table, serial, r :: rest)

end

mutual

/-- Applies `f` to the leaves of a rule. -/
def Rule.map {α β : Type} (f : α → β) : Rule α → Rule β
  | .blank => .blank
  | .leaf a => .leaf (f a)
  | .choice options => .choice (Rule.mapAll f options)
  | .seq parts => .seq (Rule.mapAll f parts)
  | .some body => .some (body.map f)
  | .marked marks body => .marked marks (body.map f)

/-- `Rule.map` on each rule of a list. -/
def Rule.mapAll {α β : Type} (f : α → β) : List (Rule α) → List (Rule β)
  | [] => []
  | r :: rest => r.map f :: Rule.mapAll f rest

end

/-- A named rule over symbols. -/
structure NamedRule where
  name : String
  visibility : Visibility
  body : Rule Symbol
deriving Inhabited

/-- A rule that is nothing but a token used nowhere else is that token, under the rule's name. -/
def tokenOfRule? (table : TokenTable) (index : Nat) (rule : NamedRule) : Option Nat :=
  match rule.body with
  | .leaf (.terminal t) =>
    match table.entries[t]? with
    | some (terminal, 1) =>
      if index > 0 && (terminal.visibility == .auxiliary || rule.visibility != .hidden) then some t
      else none
    | _ => none
  | _ => none

/-! ## Repetitions -/

/-- Auxiliary variables made for repetitions, each with the body that it repeats. -/
structure Repeats where
  /-- Number of the first auxiliary variable. -/
  base : Nat
  made : Array (NamedRule × Rule Symbol) := #[]
deriving Inhabited

/-- Two of the same, or the body once. -/
def Rule.binary (symbol : Symbol) (body : Rule Symbol) : Rule Symbol :=
  .oneOf [.seq [.leaf symbol, .leaf symbol], body]

mutual

/-- Replaces repetitions by auxiliary variables; equal bodies share one. `serial` counts those
made for the rule `owner`. -/
def unrepeat (owner : String) (state : Repeats) (serial : Nat) :
    Rule Symbol → Repeats × Nat × Rule Symbol
  | .blank => (state, serial, .blank)
  | .leaf a => (state, serial, .leaf a)
  | .marked marks body =>
    let (state, serial, body) := unrepeat owner state serial body
    (state, serial, .marked marks body)
  | .choice options =>
    let (state, serial, options) := unrepeatAll owner state serial options
    (state, serial, .choice options)
  | .seq parts =>
    let (state, serial, parts) := unrepeatAll owner state serial parts
    (state, serial, .seq parts)
  | .some body =>
    let (state, serial, body) := unrepeat owner state serial body
    match state.made.findIdx? (·.2 == body) with
    | some i => (state, serial, .leaf (.nonterminal (state.base + i)))
    | none =>
      let symbol := Symbol.nonterminal (state.base + state.made.size)
      let rule : NamedRule :=
        ⟨s!"{owner}_repeat{serial + 1}", .auxiliary, Rule.binary symbol body⟩
      ({ state with made := state.made.push (rule, body) }, serial + 1, .leaf symbol)

/-- `unrepeat` from left to right. -/
def unrepeatAll (owner : String) (state : Repeats) (serial : Nat) :
    List (Rule Symbol) → Repeats × Nat × List (Rule Symbol)
  | [] => (state, serial, [])
  | r :: rest =>
    let (state, serial, r) := unrepeat owner state serial r
    let (state, serial, rest) := unrepeatAll owner state serial rest
    (state, serial, r :: rest)

end

/-- Replaces the repetitions of a rule. A hidden rule that is a repetition as a whole becomes the
auxiliary variable itself. -/
def unrepeatRule (index : Nat) (state : Repeats) (rule : NamedRule) : Repeats × NamedRule :=
  match rule.visibility, rule.body with
  | .hidden, .some body =>
    let (state, _, body) := unrepeat rule.name state 0 body
    (state, { rule with visibility := .auxiliary,
                        body := Rule.binary (.nonterminal index) body })
  | _, body =>
    let (state, _, body) := unrepeat rule.name state 0 body
    (state, { rule with body })

/-! ## From rules to productions -/

mutual

/-- The choice-free rules that a rule stands for. -/
def expandChoices : Rule Symbol → List (Rule Symbol)
  | .blank => [.blank]
  | .leaf a => [.leaf a]
  | .some body => [.some body]
  | .marked marks body => (expandChoices body).map (.marked marks ·)
  | .choice options => expandEach options
  | .seq parts => expandSeq [.blank] parts

/-- The choice-free rules of several options, in order. -/
def expandEach : List (Rule Symbol) → List (Rule Symbol)
  | [] => []
  | r :: rest => expandChoices r ++ expandEach rest

/-- All ways to continue the choice-free rules `done` through `parts`. -/
def expandSeq (done : List (Rule Symbol)) : List (Rule Symbol) → List (Rule Symbol)
  | [] => done
  | r :: rest =>
    let heads := expandChoices r
    expandSeq (done.flatMap fun before => heads.map fun h => .seq [before, h]) rest

end

/-- The marks around the place where a production is being read, innermost first. -/
structure Surroundings where
  precedences : List Int := []
  assocs : List Assoc := []
  aliases : List Alias := []
  fields : List String := []
deriving Inhabited

/-- Adds the marks of one rule. -/
def Surroundings.enter (s : Surroundings) (m : Marks) : Surroundings where
  precedences := m.precedence.toList ++ s.precedences
  assocs := m.assoc.toList ++ s.assocs
  aliases := m.renamed.toList ++ s.aliases
  fields := m.field.toList ++ s.fields

/-- The last step that a marked rule gave, once the rule is over: a precedence or associativity
decides at the end of the rule it marks, unless that end is the end of the production. -/
def Step.leave (outside : Surroundings) (marks : Marks) (atEnd : Bool) (step : Step) : Step :=
  if atEnd then step
  else
    let step :=
      if marks.precedence.isSome then { step with precedence := outside.precedences.head? }
      else step
    if marks.assoc.isSome then { step with assoc := outside.assocs.head? } else step

/-- Changes the last element of a list. -/
def modifyLast {α : Type} (f : α → α) : List α → List α
  | [] => []
  | [a] => [f a]
  | a :: rest => a :: modifyLast f rest

/-- The mark of larger size; on a tie the first. -/
def strongerDynamic (a b : Int) : Int :=
  if b.natAbs > a.natAbs then b else a

mutual

/-- Reads a choice-free rule as a production: its steps and its dynamic precedence. -/
def linearize (around : Surroundings) (atEnd : Bool) : Rule Symbol → Production
  | .leaf symbol =>
    { steps := [{ symbol, precedence := around.precedences.head?, assoc := around.assocs.head?,
                  renamed := around.aliases.head?, field := around.fields.head? }] }
  | .marked marks body =>
    let inner := linearize (around.enter marks) atEnd body
    { dynamic := strongerDynamic marks.dynamic inner.dynamic
      steps := modifyLast (Step.leave around marks atEnd) inner.steps }
  | .seq parts => linearizeAll around atEnd parts
  | _ => {}

/-- Reads choice-free rules one after the other. -/
def linearizeAll (around : Surroundings) (atEnd : Bool) : List (Rule Symbol) → Production
  | [] => {}
  | r :: rest =>
    let head := linearize around (atEnd && rest.isEmpty) r
    let tail := linearizeAll around atEnd rest
    { dynamic := strongerDynamic head.dynamic tail.dynamic, steps := head.steps ++ tail.steps }

end

/-- Drops repeated elements, keeping the first of each. -/
def dedup {α : Type} [BEq α] (xs : List α) : List α :=
  (xs.foldl (fun kept x => if kept.contains x then kept else x :: kept) []).reverse

/-- The productions of a rule. -/
def productionsOf (body : Rule Symbol) : List Production :=
  dedup ((expandChoices body).map (linearize {} true))

/-! ## Default aliases -/

/-- How often a symbol occurs under each alias, and whether it also occurs without one. -/
structure AliasUse where
  aliases : List (Alias × Nat) := []
  bare : Bool := false
deriving Inhabited

/-- Counts one occurrence. -/
def AliasUse.count (use : AliasUse) : Option Alias → AliasUse
  | none => { use with bare := true }
  | some a =>
    if use.aliases.any (·.1 == a) then
      { use with aliases := use.aliases.map fun (b, n) => if b == a then (b, n + 1) else (b, n) }
    else { use with aliases := use.aliases ++ [(a, 1)] }

/-- The alias that occurs most often, the first of several, if there is no bare occurrence. -/
def AliasUse.default? (use : AliasUse) : Option Alias :=
  if use.bare then none
  else
    (use.aliases.foldl (fun best (a, n) =>
      match best with
      | some (b, m) => if n > m then some (a, n) else some (b, m)
      | none => some (a, n)) none).map (·.1)

/-- The default aliases of a grammar: a symbol that never occurs under its own name takes the
most frequent of its other names. -/
def defaultAliasesOf (g : Productions) : List (Symbol × Alias) :=
  let steps := g.vars.toList.flatMap fun v => v.productions.flatMap (·.steps)
  let steps := steps.filter fun s =>
    match s.symbol with
    | .nonterminal i => !g.inlined.contains i
    | _ => true
  let uses := steps.foldl (fun (uses : List (Symbol × AliasUse)) s =>
    if uses.any (·.1 == s.symbol) then
      uses.map fun (sym, u) => if sym == s.symbol then (sym, u.count s.renamed) else (sym, u)
    else uses ++ [(s.symbol, ({} : AliasUse).count s.renamed)]) []
  uses.filterMap fun (sym, u) =>
    let extra := g.extras.any fun t => sym == .terminal t
    if extra then none else u.default?.map fun a => (sym, a)

/-- Removes the alias of every step that has its symbol's default alias, as it says nothing more;
it stays where another production of the variable needs an alias in the same place. -/
def dropDefaultAliases (defaults : List (Symbol × Alias)) (v : Variable) : Variable :=
  let defaultOf (s : Symbol) := defaults.lookup s
  let needed (self : Production) (i : Nat) (a : Alias) :=
    v.productions.any fun other =>
      other != self &&
        match other.steps[i]? with
        | some step => step.renamed == some a && defaultOf step.symbol != some a
        | none => false
  let clean (p : Production) : Production :=
    { p with steps := p.steps.zipIdx.map fun (step, i) =>
        match step.renamed with
        | some a =>
          if defaultOf step.symbol == some a && !needed p i a then { step with renamed := none }
          else step
        | none => step }
  { v with productions := v.productions.map clean }

/-! ## The whole way -/

/-- Numbers, separates and flattens a grammar. -/
def Spec.productions (g : Spec) : Productions :=
  let names := g.rules.map (·.1)
  let (table, rules) := g.rules.foldl (fun (state : TokenTable × List NamedRule) (name, body) =>
    let (table, _, body) := internRule names name state.1 0 body
    let hidden := name.startsWith "_" || g.supertypes.contains name
    (table, state.2 ++ [⟨name, if hidden then .hidden else .named, body⟩])) ({}, [])
  -- rules that are tokens move to the terminals, and the other rules close up
  let tokenOf := rules.zipIdx.map fun (r, i) => tokenOfRule? table i r
  let table : TokenTable :=
    (rules.zip tokenOf).foldl (fun table (rule, token) =>
      match token with
      | some t => ⟨table.entries.modify t fun (terminal, n) =>
          ({ terminal with name := rule.name, visibility := rule.visibility }, n)⟩
      | none => table) table
  let newIndex (i : Nat) : Nat := ((tokenOf.take i).filter (·.isNone)).length
  let symbolOf (i : Nat) : Symbol :=
    match (tokenOf[i]?).join with
    | some t => .terminal t
    | none => .nonterminal (newIndex i)
  let replace : Symbol → Symbol
    | .nonterminal i => symbolOf i
    | s => s
  let kept := ((rules.zip tokenOf).filter (·.2.isNone)).map fun (r, _) =>
    { r with body := r.body.map replace }
  let (repeats, kept) := kept.zipIdx.foldl (fun (state : Repeats × List NamedRule) (r, i) =>
    let (repeats, r) := unrepeatRule i state.1 r
    (repeats, state.2 ++ [r])) (({ base := kept.length } : Repeats), [])
  let all := kept ++ repeats.made.toList.map (·.1)
  let vars := all.map fun r => (⟨r.name, r.visibility, productionsOf r.body⟩ : Variable)
  let named (name : String) : Symbol := symbolOf (names.idxOf name)
  let variableOf (name : String) : Nat :=
    match named name with
    | .nonterminal i => i
    | _ => 0
  let terminalOf (name : String) : Nat :=
    match named name with
    | .terminal t => t
    | _ => 0
  let base : Productions :=
    { terminals := table.entries.map (·.1)
      vars := vars.toArray
      extras := g.extras.map terminalOf
      blanks := g.blanks
      supertypes := g.supertypes.map variableOf
      inlined := g.inlined.map variableOf
      word := terminalOf g.word }
  let defaults := defaultAliasesOf base
  { base with
    defaultAliases := defaults
    vars := base.vars.map (dropDefaultAliases defaults) }

namespace Productions

/-- The name of a symbol. -/
def nameOf (g : Productions) : Symbol → String
  | .eof => "end"
  | .terminal i => (g.terminals[i]?.map (·.name)).getD ""
  | .nonterminal i => (g.vars[i]?.map (·.name)).getD ""

/-- Whether a variable gives no node. -/
def isHidden (g : Productions) (v : Nat) : Bool :=
  match g.vars[v]? with
  | some x => !x.visibility.shows
  | none => false

/-- Whether a variable stands for a repetition. -/
def isAuxiliary (g : Productions) (v : Nat) : Bool :=
  match g.vars[v]? with
  | some x => x.visibility == .auxiliary
  | none => false

end Productions

end JavaAtlas.Grammar
