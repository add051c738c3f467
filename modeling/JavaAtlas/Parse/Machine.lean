import JavaAtlas.Parse.Choice

namespace JavaAtlas.Parse

open Grammar

/-! # The parser

A head is advanced by one token at a time: it reduces as long as its state says so on the token,
then shifts it. Where a state allows several reductions the head splits. A head that can do
nothing with a token is paused; once the other heads have caught up, the cheapest way on is
looked for: putting in a missing token, returning to an earlier state over skipped text, or
skipping the token.
-/

/-- Heads that are kept from one token to the next. -/
def maxHeads : Nat := 6

/-- Heads beyond these that may exist for a moment. -/
def maxExtraHeads : Nat := 4

/-- Pushes pieces one after the other, all in one state. -/
def pushAll (v state : Nat) : List Subtree → ParseM Unit
  | [] => pure ()
  | t :: rest => do
    push v (some t) state
    pushAll v state rest

/-! ## Reducing -/

/-- Chooses among the ways in which the pieces of one node can be taken; gives the node and the
pieces behind it. -/
def chooseChildren (a : Automaton) (symbol shape : Nat) :
    Subtree × List Subtree → List Slice → Subtree × List Subtree
  | best, [] => best
  | (best, trailing), s :: rest =>
    let (children, behind) := splitTrailingExtras s.pieces
    if best.prefersRight (.node a symbol children 0) then
      chooseChildren a symbol shape (.node a symbol children shape, behind) rest
    else chooseChildren a symbol shape (best, trailing) rest

/-- Adds dynamic precedence to a piece. -/
def Subtree.addDynamic (dynamic : Int) : Subtree → Subtree
  | .mk s cs => .mk { s with dynamic := s.dynamic + dynamic } cs

/-- Merges head `v` into one of the heads from `i` on below it, other than `origin`. -/
def mergeBelow (origin v : Nat) : Nat → Nat → ParseM Bool
  | 0, _ => pure false
  | fuel + 1, i => do
    if i ≥ v then return false
    if i != origin && (← merge i v) then return true
    mergeBelow origin v fuel (i + 1)

/-- Pushes the node of a reduction on each way that was popped. `removed` heads have gone since
the slices were made, and `halted` heads do not count. -/
def pushReductions (a : Automaton) (origin symbol : Nat) (dynamic : Int) (shape halted : Nat) :
    Nat → Nat → List Slice → ParseM Unit
  | 0, _, _ => pure ()
  | _ + 1, _, [] => pure ()
  | fuel + 1, removed, s :: rest => do
    let same := rest.takeWhile (·.head == s.head)
    let rest := rest.drop same.length
    let v := s.head - removed
    if v > maxHeads + maxExtraHeads + halted then
      modify (·.dropHead v)
      pushReductions a origin symbol dynamic shape halted fuel (removed + 1) rest
    else
      let (children, behind) := splitTrailingExtras s.pieces
      let (parent, behind) :=
        chooseChildren a symbol shape (.node a symbol children shape, behind) same
      let next := a.next ((← get).stateOf v) symbol
      push v (some (parent.addDynamic dynamic)) next
      pushAll v next behind
      let merged ← mergeBelow origin v v 0
      pushReductions a origin symbol dynamic shape halted fuel
        (if merged then removed + 1 else removed) rest

/-- Reduces head `v`; gives the first of the heads that come out of it. -/
def reduce (a : Automaton) (v symbol count : Nat) (dynamic : Int) (shape : Nat) :
    ParseM (Option Nat) := do
  let before := (← get).heads.size
  let slices ← popCount v count
  let halted := (← get).heads.foldl (fun k h => if h.status.isHalted then k + 1 else k) 0
  pushReductions a v symbol dynamic shape halted (slices.length + 1) 0 slices
  return if (← get).heads.size > before then some before else none

/-! ## Accepting -/

/-- Replaces the last piece that is not extra by its children, under a node like it. -/
def rootOf (a : Automaton) (pieces : List Subtree) : Option Subtree :=
  let behind := (pieces.reverse.takeWhile (·.extra)).reverse
  match (pieces.reverse.dropWhile (·.extra)) with
  | [] => none
  | t :: before =>
    some (.node a t.symbol (before.reverse ++ t.children ++ behind) t.summary.shape)

/-- Compares a finished parse with the best so far. -/
def finish (root : Option Subtree) : ParseM Unit := modify fun m =>
  let finished := match m.finished, root with
    | none, r => r
    | some old, some r => if old.prefersRight r then some r else some old
    | some old, none => some old
  { m with finished, acceptCount := m.acceptCount + 1 }

/-- Finishes all of some parses. -/
def finishAll (a : Automaton) : List Slice → ParseM Unit
  | [] => pure ()
  | s :: rest => do
    finish (rootOf a s.pieces)
    finishAll a rest

/-- Accepts at the end of the text. -/
def accept (a : Automaton) (v : Nat) (lookahead : Subtree) : ParseM Unit := do
  push v (some lookahead) Automaton.startState
  let slices ← popAll v
  finishAll a slices
  match slices with
  | s :: _ => modify (·.dropHead s.head)
  | [] => pure ()
  halt v

/-! ## Errors -/

/-- The reductions among some actions, each variable and count once, and whether anything else
is possible. -/
def reductionsAmong : List Action → List Action × Bool → List Action × Bool
  | [], state => state
  | .shift _ repetition :: rest, (found, shifts) =>
    reductionsAmong rest (found, shifts || !repetition)
  | .recover :: rest, (found, _) => reductionsAmong rest (found, true)
  | .reduce v count d shape :: rest, (found, shifts) =>
    let known := found.any fun
      | .reduce w k _ _ => w == v && k == count
      | _ => false
    if count == 0 || known then reductionsAmong rest (found, shifts)
    else reductionsAmong rest (found ++ [.reduce v count d shape], shifts)
  | _ :: rest, state => reductionsAmong rest state

/-- What a state can do on `lookahead`, or on any terminal if that is the end of the text. -/
def reductionsOf (a : Automaton) (state lookahead : Nat) : List Action × Bool :=
  if lookahead != Automaton.eof then reductionsAmong (a.actionsOn state lookahead) ([], false)
  else
    let row := a.actions[state]?.getD #[]
    (row.extract 1 row.size).foldl (fun found entry => reductionsAmong entry found) ([], false)

/-- Performs reductions one after the other; gives the first head of the last that gave any. -/
def reduceEach (a : Automaton) (v : Nat) : List Action → Option Nat → ParseM (Option Nat)
  | [], result => pure result
  | .reduce symbol count dynamic shape :: rest, _ => do
    let result ← reduce a v symbol count dynamic shape
    reduceEach a v rest result
  | _ :: rest, result => reduceEach a v rest result

/-- Merges head `v` into one of the heads from `i` on that are below it. -/
def mergeInto (v : Nat) : Nat → Nat → ParseM Bool
  | 0, _ => pure false
  | fuel + 1, i => do
    if i ≥ v then return false
    if (← merge i v) then return true
    mergeInto v fuel (i + 1)

/-- Performs all reductions that are possible on `lookahead`, starting with head `start`; tells
whether a head can then go on. `v` is the head at hand and `round` counts the rounds. -/
def reduceAllFrom (a : Automaton) (start lookahead initial : Nat) :
    Nat → Nat → Nat → Bool → ParseM Bool
  | 0, _, _, can => pure can
  | fuel + 1, v, round, can => do
    let count := (← get).heads.size
    if v ≥ count then return can
    if (← mergeInto v count initial) then
      reduceAllFrom a start lookahead initial fuel v (round + 1) can
    else
      let (reductions, shifts) := reductionsOf a ((← get).stateOf v) lookahead
      let result ← reduceEach a v reductions none
      let following := if v == start then count else v + 1
      if shifts then reduceAllFrom a start lookahead initial fuel following (round + 1) true
      else match result with
        | some w =>
          if round < maxHeads then
            renumber w v
            reduceAllFrom a start lookahead initial fuel v (round + 1) can
          else
            if lookahead != Automaton.eof then modify (·.dropHead v)
            reduceAllFrom a start lookahead initial fuel following (round + 1) can
        | none =>
          if lookahead != Automaton.eof then modify (·.dropHead v)
          reduceAllFrom a start lookahead initial fuel following (round + 1) can

/-- Performs all reductions that are possible on `lookahead`. -/
def reduceAll (a : Automaton) (start lookahead : Nat) : ParseM Bool := do
  let m ← get
  let initial := m.heads.size
  let fuel := 1000 + m.nodes.size
  reduceAllFrom a start lookahead initial fuel start 0 false

/-- Returns each way that was popped to the state `goal`, with what was passed as one node of
text that fits nowhere. -/
def returnTo (a : Automaton) (goal : Nat) : Option Nat → List Slice → ParseM Bool
  | previous, [] => pure previous.isSome
  | previous, s :: rest => do
    if previous == some s.head then returnTo a goal previous rest
    else if (← get).stateOf s.head != goal then
      halt s.head
      returnTo a goal previous rest
    else
      let skipped ← popError s.head
      let pieces := match skipped with
        | t :: _ => t.children ++ s.pieces
        | [] => s.pieces
      let (children, behind) := splitTrailingExtras pieces
      if !children.isEmpty then push s.head (some (.node a errorSymbol children 0 true)) goal
      pushAll s.head goal behind
      returnTo a goal (some s.head) rest

/-- Tries to return to one of the states below, nearest first. -/
def tryAncestors (a : Automaton) (v symbol : Nat) (position : Extent) (progressed : Bool)
    (cost headCount : Nat) : List Ancestor → ParseM Bool
  | [] => pure false
  | s :: rest => do
    if s.state == Automaton.errorState || s.position.bytes == position.bytes then
      tryAncestors a v symbol position progressed cost headCount rest
    else
      let depth := if progressed then s.depth + 1 else s.depth
      let m ← get
      if (List.range headCount).any fun j =>
          m.stateOf j == s.state && (m.top j).position.bytes == position.bytes then
        tryAncestors a v symbol position progressed cost headCount rest
      else
        let newCost := cost + s.depth * costPerSkippedTree +
          (position.bytes - s.position.bytes) * costPerSkippedByte +
          (position.rows - s.position.rows) * costPerSkippedLine
        if (← betterExists v false newCost) then return false
        if !(a.actionsOn s.state symbol).isEmpty then
          let slices ← popCount v depth
          if (← returnTo a s.state none slices) then return true
        tryAncestors a v symbol position progressed cost headCount rest

/-- Drops the heads from `i` on that are not active. -/
def dropInactive : Nat → Nat → ParseM Unit
  | 0, _ => pure ()
  | fuel + 1, i => do
    let m ← get
    match m.heads[i]? with
    | none => pure ()
    | some h =>
      if h.status.isActive then dropInactive fuel (i + 1)
      else
        modify (·.dropHead i)
        dropInactive fuel i

/-- Skips a token. -/
def skipToken (a : Automaton) (v : Nat) (progressed : Bool) (lookahead : Subtree) :
    ParseM Unit := do
  let anywhere := (a.actionsOn Automaton.startState lookahead.symbol).getLast? == some .shiftExtra
  let skipped := Subtree.node a skippedSymbol
    [if anywhere then lookahead.withExtra true else lookahead] 0
  if progressed then
    let slices ← popCount v 1
    match slices with
    | [] => push v (some skipped) Automaton.errorState
    | s :: _ =>
      modify fun m => { m with heads := m.heads.extract 0 (s.head + 1) }
      renumber s.head v
      push v (some (.node a skippedSymbol (s.pieces ++ [skipped]) 0)) Automaton.errorState
  else push v (some skipped) Automaton.errorState

/-- Goes on after an error: returns to an earlier state if that is cheap, and also skips the
token unless that is too dear. -/
def recover (a : Automaton) (v : Nat) (lookahead : Subtree) : ParseM Unit := do
  let m ← get
  let headCount := m.heads.size
  let position := (m.top v).position
  let ancestors := ((m.heads[v]?).bind (·.ancestors)).getD []
  let cost := m.costOf v
  let progressed := (← countSinceError v) > 0
  let returned ←
    if lookahead.symbol == errorSymbol then pure false
    else tryAncestors a v lookahead.symbol position progressed cost headCount ancestors
  dropInactive ((← get).heads.size + 1) headCount
  if lookahead.symbol == Automaton.eof then
    push v (some (.node a errorSymbol [] 0)) Automaton.startState
    accept a v lookahead
  else if returned && (← get).heads.size > maxHeads then halt v
  else
    let total := lookahead.total
    let newCost := cost + costPerSkippedTree + total.bytes * costPerSkippedByte +
      total.rows * costPerSkippedLine
    if (← betterExists v false newCost) then halt v
    else skipToken a v progressed lookahead

/-- The first terminal from `symbol` on which, put in, lets a head in `state` reduce on the
token. -/
def tryMissing (a : Automaton) (v state lookahead : Nat) : Nat → Nat → ParseM Bool
  | 0, _ => pure false
  | fuel + 1, symbol => do
    if symbol ≥ a.terminalCount then return false
    let next := a.next state symbol
    let helps := next != 0 && next != state &&
      match a.actionsOn next lookahead with
      | .reduce _ _ _ _ :: _ => true
      | _ => false
    if helps then
      let w ← modifyGet fun m =>
        let h := m.heads[v]?.getD default
        (m.heads.size, { m with heads := m.heads.push { h with ancestors := none } })
      push w (some (.absent a symbol)) next
      if (← reduceAll a w lookahead) then return true
    tryMissing a v state lookahead fuel (symbol + 1)

/-- Looks for a missing token in head `w`, unless one was `found`, and marks the error; then goes
on with the heads from `first` on. -/
def markErrors (a : Automaton) (v first last lookahead : Nat) : Nat → Nat → Bool → ParseM Unit
  | 0, _, _ => pure ()
  | fuel + 1, w, found => do
    if w ≥ last then return
    let found ←
      if found then pure true
      else tryMissing a w ((← get).stateOf w) lookahead a.terminalCount 1
    push w none Automaton.errorState
    markErrors a v first last lookahead fuel (if w == v then first else w + 1) found

/-- Merges the head at `from` into head `v`, `count` times. -/
def mergeMany (v first : Nat) : Nat → ParseM Unit
  | 0 => pure ()
  | count + 1 => do
    let _ ← merge v first
    mergeMany v first count

/-- Deals with a token that a head can do nothing with. -/
def handleError (a : Automaton) (v : Nat) (lookahead : Subtree) : ParseM Unit := do
  let before := (← get).heads.size
  let _ ← reduceAll a v Automaton.eof
  let after := (← get).heads.size
  markErrors a v before after lookahead.symbol (after + 2) v false
  mergeMany v before (after - before)
  noteAncestors v
  recover a v lookahead

/-! ## Advancing -/

/-- What came of the actions of a state on a token. -/
inductive Progress where
  /-- The token has been dealt with. -/
  | done
  /-- Reductions were made, of which the last came out as this head, if any is left. -/
  | reduced (head : Option Nat)
  /-- There was nothing to do. -/
  | stuck

/-- Performs the actions of a state on a token. -/
def perform (a : Automaton) (v state : Nat) (lookahead : Subtree) :
    List Action → Progress → ParseM Progress
  | [], progress => pure progress
  | .shift next repetition :: rest, progress => do
    if repetition then perform a v state lookahead rest progress
    else
      push v (some (lookahead.withExtra false)) next
      return .done
  | .shiftExtra :: _, _ => do
    push v (some (lookahead.withExtra true)) state
    return .done
  | .reduce symbol count dynamic shape :: rest, progress => do
    let result ← reduce a v symbol count dynamic shape
    let result := result.orElse fun _ =>
      match progress with
      | .reduced r => r
      | _ => none
    perform a v state lookahead rest (.reduced result)
  | .accept :: _, _ => do
    accept a v lookahead
    return .done
  | .recover :: _, _ => do
    recover a v lookahead
    return .done

/-- Advances a head over a token. -/
def advanceOver (a : Automaton) (v : Nat) : Nat → Nat → Subtree → ParseM Unit
  | 0, _, _ => halt v
  | fuel + 1, state, lookahead => do
    let actions :=
      if lookahead.symbol == errorSymbol then [] else a.actionsOn state lookahead.symbol
    match (← perform a v state lookahead actions .stuck) with
    | .done => pure ()
    | .reduced (some w) =>
      renumber w v
      advanceOver a v fuel ((← get).stateOf v) lookahead
    | .reduced none => halt v
    | .stuck =>
      let s := lookahead.summary
      if s.keyword && s.symbol != Automaton.word &&
          !(a.actionsOn state Automaton.word).isEmpty then
        advanceOver a v fuel state (.leaf a Automaton.word s.padding s.size true)
      else
        modify fun m =>
          let count := (m.top v).nodeCount
          { m with heads := m.heads.modify v fun h =>
              { h with status := .paused lookahead, countAtError := count } }

/-- Advances a head over the next token. -/
def advance (a : Automaton) (src : Source) (v : Nat) : ParseM Unit := do
  let m ← get
  let state := m.stateOf v
  let position := (m.top v).position.bytes
  let fuel := m.nodes.size + 1000
  advanceOver a v fuel state (tokenAt a src state position)

/-! ## Thinning out -/

/-- Compares head `i` with the heads from `j` on before it; gives the number of the head that now
stands where `i` stood before, or `i` if it is to be compared no more. -/
def thinOne (own : Merit) : Nat → Nat → Nat → ParseM Nat
  | 0, i, _ => pure (i + 1)
  | fuel + 1, i, j => do
    if j ≥ i then return i + 1
    match (← meritOf j).choose own with
    | .takeLeft =>
      modify (·.dropHead i)
      return i
    | .preferLeft | .either =>
      if (← merge j i) then return i else thinOne own fuel i (j + 1)
    | .preferRight =>
      if (← merge j i) then return i
      else
        modify fun m =>
          match m.heads[i]?, m.heads[j]? with
          | some x, some y =>
            { m with heads := (m.heads.setIfInBounds i y).setIfInBounds j x }
          | _, _ => m
        thinOne own fuel i (j + 1)
    | .takeRight =>
      modify (·.dropHead j)
      thinOne own fuel (i - 1) j

/-- Compares all heads from `i` on with those before them; gives the least cost of a head that is
not dealing with an error. -/
def thinFrom : Nat → Nat → Option Nat → ParseM (Option Nat)
  | 0, _, least => pure least
  | fuel + 1, i, least => do
    match (← get).heads[i]? with
    | none => return least
    | some h =>
      if h.status.isHalted then
        modify (·.dropHead i)
        thinFrom fuel i least
      else
        let own ← meritOf i
        let least :=
          if own.inError then least
          else some ((least.map fun c => min c own.cost).getD own.cost)
        let next ← thinOne own (2 * (i + 1)) i 0
        thinFrom fuel next least

/-- Lets the first paused head among those below `last` deal with its error, unless another head
goes on without; the other paused heads are given up. -/
def resumeFrom (a : Automaton) : Nat → Nat → Nat → Bool → Option Nat → ParseM (Option Nat)
  | 0, _, _, _, least => pure least
  | fuel + 1, i, last, goingOn, least => do
    if i ≥ last then return least
    let m ← get
    let cost := m.costOf i
    let status : HeadStatus := ((m.heads[i]?).map (·.status)).getD .active
    match status with
    | .paused lookahead =>
      if !goingOn && m.acceptCount < maxHeads then
        modifyHead i fun h => { h with status := .active }
        handleError a i lookahead
        resumeFrom a fuel (i + 1) last true (some cost)
      else
        modify (·.dropHead i)
        resumeFrom a fuel i (last - 1) goingOn least
    | _ => resumeFrom a fuel (i + 1) last true least

/-- Gives up heads that are not worth following; gives the least cost of those left. -/
def condense (a : Automaton) : ParseM (Option Nat) := do
  let size := (← get).heads.size
  let least ← thinFrom (2 * size + 2) 0 none
  modify fun m => { m with heads := m.heads.extract 0 maxHeads }
  let size := (← get).heads.size
  resumeFrom a (size + 1) 0 size false least

/-! ## Running -/

/-- Advances head `v` until it has got further than `reached`; gives how far the heads are. -/
def advanceHead (a : Automaton) (src : Source) (v : Nat) : Nat → Nat → ParseM Nat
  | 0, reached => pure reached
  | fuel + 1, reached => do
    let m ← get
    if ((m.heads[v]?).map (·.status.isActive)).getD false then
      advance a src v
      let position := ((← get).top v).position.bytes
      if position > reached || (v > 0 && position == reached) then return position
      advanceHead a src v fuel reached
    else return reached

/-- Advances all heads from `v` on; gives how far they are and how many there were. -/
def advanceAll (a : Automaton) (src : Source) (fuel : Nat) : Nat → Nat → Nat → ParseM Nat
  | 0, _, reached => pure reached
  | rounds + 1, v, reached => do
    if v ≥ (← get).heads.size then return reached
    let reached ← advanceHead a src v fuel reached
    advanceAll a src fuel rounds (v + 1) reached

/-- Advances and condenses until the best parse is finished; `fuel` bounds the rounds. -/
def runFrom (a : Automaton) (src : Source) : Nat → Nat → ParseM Unit
  | 0, _ => pure ()
  | fuel + 1, reached => do
    let reached ← advanceAll a src (4 * src.size + 1000) (src.size + 1000) 0 reached
    let least ← condense a
    let m ← get
    let ended := match m.finished, least with
      | some t, some c => t.summary.cost < c
      | some _, none => true
      | none, _ => false
    if ended || m.heads.isEmpty then return
    runFrom a src fuel reached

/-- Parses a text; gives the best parse, which there always is. -/
def run (a : Automaton) (src : Source) : Option Subtree :=
  let start : Machine :=
    { nodes := #[{ state := Automaton.startState }]
      heads := #[{ node := 0 }] }
  ((runFrom a src (4 * src.size + 1000) 0).run start).2.finished

end JavaAtlas.Parse
