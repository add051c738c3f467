import JavaAtlas.Parse.Stack

namespace JavaAtlas.Parse

open Grammar

/-! # Choosing between parses

Heads are compared by what their errors cost. A head that is much worse than another is given up;
one that is a little worse is kept as long as there is room.
-/

/-- By what a head is judged. -/
structure Merit where
  cost : Nat
  /-- Nodes pushed since the last error. -/
  count : Nat
  dynamic : Int
  /-- It is dealing with an error. -/
  inError : Bool
deriving Inhabited

/-- The outcome of a comparison. -/
inductive Choice where
  /-- The right one is given up. -/
  | takeLeft
  | preferLeft
  | either
  | preferRight
  /-- The left one is given up. -/
  | takeRight
deriving DecidableEq, Inhabited

/-- The difference in cost, times the progress made, from which on a head is given up. -/
def maxCostDifference : Nat := 18 * costPerSkippedTree

/-- Compares two heads. -/
def Merit.choose (a b : Merit) : Choice :=
  if !a.inError && b.inError then if a.cost < b.cost then .takeLeft else .preferLeft
  else if a.inError && !b.inError then if b.cost < a.cost then .takeRight else .preferRight
  else if a.cost < b.cost then
    if (b.cost - a.cost) * (1 + a.count) > maxCostDifference then .takeLeft else .preferLeft
  else if b.cost < a.cost then
    if (a.cost - b.cost) * (1 + b.count) > maxCostDifference then .takeRight else .preferRight
  else if a.dynamic > b.dynamic then .preferLeft
  else if b.dynamic > a.dynamic then .preferRight
  else .either

/-- The merit of a head. -/
def meritOf (v : Nat) : ParseM Merit := do
  let m ← get
  let cost := m.costOf v
  let top := m.top v
  let paused := ((m.heads[v]?).map (·.status.isPaused)).getD false
  let dynamic := top.dynamic
  let inError := paused || top.state == Automaton.errorState
  let count ← countSinceError v
  return { cost := if paused then cost + costPerSkippedTree else cost, count, dynamic, inError }

/-- Whether one of the heads from `i` on is so good that head `v`, with merit `own`, may be given
up. -/
def betterFrom (v : Nat) (own : Merit) : Nat → Nat → ParseM Bool
  | 0, _ => pure false
  | fuel + 1, i => do
    let m ← get
    match m.heads[i]? with
    | none => return false
    | some h =>
      if i == v || !h.status.isActive ||
          (m.top i).position.bytes < (m.top v).position.bytes then
        betterFrom v own fuel (i + 1)
      else
        match own.choose (← meritOf i) with
        | .takeRight => return true
        | .preferRight =>
          if (← get).canMerge i v then return true
          else betterFrom v own fuel (i + 1)
        | _ => betterFrom v own fuel (i + 1)

/-- Whether a parse is known that is better than head `v` would be with errors of this cost. -/
def betterExists (v : Nat) (inError : Bool) (cost : Nat) : ParseM Bool := do
  let m ← get
  if ((m.finished).map fun t => decide (t.summary.cost ≤ cost)).getD false then return true
  let dynamic := (m.top v).dynamic
  let size := m.heads.size
  let count ← countSinceError v
  betterFrom v { cost, count, dynamic, inError } size 0

end JavaAtlas.Parse
