import JavaAtlas.Grammar.Keywords

namespace JavaAtlas.Grammar

/-! # Merging states

Canonical states with the same items are merged where neither would then accept, on some
terminal, what it should not: where they never act differently on a terminal that both expect,
and no terminal that only one expects can be confused with one that the other expects. States
that lead to different groups on the same symbol are parted again, until nothing changes.
-/

/-- States sorted into groups. -/
structure Grouping where
  groupOf : Array Nat
  groups : Array (List Nat)
deriving Inhabited

namespace Grouping

/-- The states grouped by their items. -/
def ofCores (states : States) : Grouping :=
  let count := states.cores.foldl (fun m c => max m (c + 1)) 0
  let groups := (List.range states.cores.size).foldr (fun s (groups : Array (List Nat)) =>
    groups.modify (states.cores[s]?.getD 0) (s :: ·)) (Array.replicate count [])
  { groupOf := states.cores, groups }

/-- The group of a state. -/
def get (g : Grouping) (state : Nat) : Nat := g.groupOf[state]?.getD 0

/-- Parts a group: states that differ from an earlier one that stays have to go. -/
def part (differ : Nat → Nat → Bool) : Nat → List Nat → List Nat × List Nat
  | 0, states => (states, [])
  | _ + 1, [] => ([], [])
  | fuel + 1, s :: rest =>
    let (away, stay) := rest.partition (differ s)
    let (kept, more) := part differ fuel stay
    (s :: kept, away ++ more)

/-- Parts group `i`, if need be. -/
def partAt (differ : Grouping → Nat → Nat → Bool) (g : Grouping) (i : Nat) : Grouping :=
  let members := g.groups[i]?.getD []
  match part (differ g) members.length members with
  | (_, []) => g
  | (kept, away) =>
    { groupOf := away.foldl (fun groupOf s => groupOf.setIfInBounds s g.groups.size) g.groupOf
      groups := (g.groups.setIfInBounds i kept).push away }

/-- Parts every group, the new ones included. -/
def refine (differ : Grouping → Nat → Nat → Bool) (g : Grouping) : Grouping :=
  (iterate (fun (g, i) =>
    if i < g.groups.size then some (partAt differ g i, i + 1) else none)
    (g.groupOf.size + 1) ((g, 0) : Grouping × Nat)).1

/-- Refines until nothing changes. -/
def stabilize (differ : Grouping → Nat → Nat → Bool) (g : Grouping) : Grouping :=
  iterate (fun g =>
    let next := refine differ g
    if next.groups.size == g.groups.size then none else some next) (g.groupOf.size + 1) g

end Grouping

/-- Whether two lists of actions differ once shifts go to groups. -/
def actionsDiffer (g : Grouping) : List Action → List Action → Bool
  | [], [] => false
  | .shift s r :: as, .shift s' r' :: bs =>
    g.get s != g.get s' || r != r' || actionsDiffer g as bs
  | a :: as, b :: bs => a != b || actionsDiffer g as bs
  | _, _ => true

/-- For each terminal those that must not be looked for beside it. -/
def rivals (g : Productions) (v : Vocabulary) : Array Nat :=
  let n := g.terminals.size
  (Array.range n).map fun i => (List.range n).foldl (fun mask j =>
    let keyword := (j == g.word && v.keywords.testBit i) || (i == g.word && v.keywords.testBit j)
    if i != j && !keyword && v.overlaps.conflict i j then mask ||| 1 <<< j else mask) 0

/-- Whether every terminal of `own` that is not one of `other` can be told apart from those. -/
def confusable (rivals : Array Nat) (width own other : Nat) : Bool :=
  (bitsOf (own ^^^ (own &&& other)) width).any fun t => (rivals[t]?.getD 0) &&& other != 0

/-- Whether two states act differently on a terminal, or confuse each other's terminals. -/
def statesConflict (states : States) (masks rivals : Array Nat) (width : Nat) (g : Grouping)
    (l r : Nat) : Bool :=
  let left := states.actions[l]?.getD #[]
  let right := states.actions[r]?.getD #[]
  let lm := masks[l]?.getD 0
  let rm := masks[r]?.getD 0
  existsBelow (fun t =>
    match left[t]?.getD [], right[t]?.getD [] with
    | [], _ => false
    | _, [] => false
    | a, b => actionsDiffer g a b) (width + 1) ||
  confusable rivals width lm rm || confusable rivals width rm lm

/-- The state to which the last of some actions shifts; zero for none. -/
def shiftTarget (actions : List Action) : Nat :=
  match actions.getLast? with
  | some (.shift s _) => s
  | _ => 0

/-- Where each state leads on each symbol, terminals first; zero for nowhere. -/
def States.successors (states : States) : Array (Array Nat) :=
  states.actions.zipWith (fun row gotos => row.map shiftTarget ++ gotos) states.gotos

/-- Whether two states lead to different groups on some symbol. -/
def successorsDiffer (successors : Array (Array Nat)) (g : Grouping) (l r : Nat) : Bool :=
  let left := successors[l]?.getD #[]
  let right := successors[r]?.getD #[]
  existsBelow (fun k =>
    let a := left[k]?.getD 0
    let b := right[k]?.getD 0
    a != b && a != 0 && b != 0 && g.get a != g.get b) left.size

/-- Sends the states that actions name through `f`. -/
def Action.mapState (f : Nat → Nat) : Action → Action
  | .shift s r => .shift (f s) r
  | a => a

/-- The rows of an automaton: actions by terminal, gotos by variable. -/
structure Rows where
  actions : Array (Array (List Action))
  gotos : Array (Array Nat)
deriving Inhabited

/-- Changes the numbers of states, keeping zero as the goto that is none. -/
def Rows.renumber (rows : Rows) (f : Nat → Nat) : Rows where
  actions := rows.actions.map (·.map (·.map (Action.mapState f)))
  gotos := rows.gotos.map (·.map fun s => if s == 0 then 0 else f s)

/-- One row for each group, in which what any of its states can do is possible. -/
def Grouping.merge (g : Grouping) (states : States) : Rows :=
  let merged : Rows :=
    { actions := g.groups.map fun members =>
        members.foldl (fun row s =>
          let own := states.actions[s]?.getD #[]
          if row.isEmpty then own
          else row.zipWith (fun a b => if b.isEmpty then a else b) own) #[]
      gotos := g.groups.map fun members =>
        members.foldl (fun row s =>
          let own := states.gotos[s]?.getD #[]
          if row.isEmpty then own
          else row.zipWith (fun a b => if b == 0 then a else b) own) #[] }
  merged.renumber g.get

/-- The grouping in which states that can be merged are together. -/
def States.grouping (states : States) (g : Productions) (v : Vocabulary) : Grouping :=
  let n := g.terminals.size
  let masks := states.actions.map (rowMask n)
  (Grouping.ofCores states
    |>.refine (statesConflict states masks (rivals g v) n))
    |>.stabilize (successorsDiffer states.successors)

/-! ## Reductions that do nothing -/

/-- Variables under whose name a node may show. -/
def showingVariables (g : Productions) : List Nat :=
  (List.range g.vars.size).filter fun v =>
    let symbol := Symbol.nonterminal v
    ((g.vars[v]?).map (·.visibility == .named)).getD false ||
    g.supertypes.contains v ||
    (g.defaultAliases.lookup symbol).isSome ||
    g.vars.any (·.productions.any (·.steps.any fun s =>
      s.symbol == symbol && s.renamed.isSome))

/-- The variable to which a state reduces a single node whatever follows, if all it does is to
put that node under a variable that does not show. -/
def unitReduction? (showing : List Nat) (row : Array (List Action)) : Option Nat :=
  row.foldl (fun found entry => entry.foldl (fun found a =>
    match found, a with
    | none, _ => none
    | some known, .shiftExtra => some known
    | some known, .reduce v 1 _ 0 =>
      if !showing.contains v && (known.isNone || known == some v) then some (some v) else none
    | _, _ => none) found) (some none) |>.join

/-- Where a state leads instead of `target`, reductions that do nothing being skipped. -/
def skipUnits (units : Array (Option Nat)) (gotos : Array Nat) : Nat → Nat → Nat
  | 0, target => target
  | fuel + 1, target =>
    match units[target]?.join with
    | none => target
    | some v =>
      let next := gotos[v]?.getD 0
      if next == 0 || next == target then target else skipUnits units gotos fuel next

/-- The rows without reductions that do nothing. -/
def Rows.withoutUnits (rows : Rows) (g : Productions) : Rows :=
  let showing := showingVariables g
  let units := rows.actions.map (unitReduction? showing)
  { actions := rows.actions.zipWith (fun row gotos =>
      row.map (·.map (Action.mapState (skipUnits units gotos rows.gotos.size)))) rows.gotos
    gotos := rows.gotos.map fun gotos => gotos.map fun s =>
      if s == 0 then 0 else skipUnits units gotos rows.gotos.size s }

/-- Which states some state leads to. -/
def Rows.reached (rows : Rows) : Array Bool :=
  let none := Array.replicate rows.actions.size false
  let byShift := rows.actions.foldl (fun reached row => row.foldl (fun reached entry =>
    entry.foldl (fun reached a =>
      match a with
      | .shift s _ => reached.setIfInBounds s true
      | _ => reached) reached) reached) none
  rows.gotos.foldl (fun reached gotos => gotos.foldl (fun reached s =>
    if s == 0 then reached else reached.setIfInBounds s true) reached) byShift

/-- How many symbols a state knows. -/
def Rows.fullness (rows : Rows) (s : Nat) : Nat :=
  ((rows.actions[s]?.getD #[]).foldl (fun k e => if e.isEmpty then k else k + 1) 0) +
    ((rows.gotos[s]?.getD #[]).foldl (fun k t => if t == 0 then k else k + 1) 0)

/-- The rows that are used: the error state, the start, then the others by the number of symbols
they know, most first. -/
def Rows.compact (rows : Rows) (errorState start : Nat) : Rows :=
  let reached := rows.reached
  let others := (List.range rows.actions.size).filter fun s =>
    s != errorState && s != start && reached[s]?.getD false
  let keyed := others.map fun s => (rows.fullness s, s)
  let order := errorState :: start :: (keyed.mergeSort fun a b => a.1 ≥ b.1).map (·.2)
  let place := order.zipIdx.foldl (fun (place : Array Nat) (s, i) => place.setIfInBounds s i)
    (Array.replicate rows.actions.size 0)
  let chosen : Rows :=
    { actions := order.toArray.map fun s => rows.actions[s]?.getD #[]
      gotos := order.toArray.map fun s => rows.gotos[s]?.getD #[] }
  chosen.renumber fun s => place[s]?.getD 0

end JavaAtlas.Grammar
