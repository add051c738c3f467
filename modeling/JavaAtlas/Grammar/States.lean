import JavaAtlas.Grammar.Item

namespace JavaAtlas.Grammar

/-! # Canonical states

The states of the parser are sets of items with the terminals that may follow each. Where
several actions are possible the higher static precedence wins, then the associativity; what
these leave open stays open, and the parser follows all of it.
-/

/-- What a parser may do in a state on a terminal. -/
inductive Action where
  /-- Pushes the token. A shift that only regroups a repetition is never taken. -/
  | shift (state : Nat) (repetition : Bool)
  /-- Pushes a token that may stand anywhere, staying in the state. -/
  | shiftExtra
  /-- Replaces `count` nodes by one of the variable `owner`. -/
  | reduce (owner count : Nat) (dynamic : Int) (shape : Nat)
  | accept
  /-- Goes on looking for a place at which to take up parsing again. -/
  | recover
deriving DecidableEq, Inhabited, Repr

/-- A set of items: classes, ascending, each with the terminals that may follow. -/
structure Kernel where
  entries : Array (Nat × Nat)
deriving BEq, Inhabited

/-- A hash of a mask that looks at all its bits. -/
def hashMask (mask : Nat) : UInt64 :=
  mixHash (hash mask) (mixHash (hash (mask >>> 64)) (hash (mask >>> 128)))

instance : Hashable Kernel where
  hash k := k.entries.foldl (fun h (item, mask) => mixHash h (mixHash (hash item) (hashMask mask))) 7

/-- Adds an item to a set. -/
def Kernel.insert (k : Kernel) (item mask : Nat) : Kernel :=
  match k.entries.findIdx? (·.1 ≥ item) with
  | none => ⟨k.entries.push (item, mask)⟩
  | some i =>
    match k.entries[i]? with
    | some (other, old) =>
      if other = item then ⟨k.entries.setIfInBounds i (item, old ||| mask)⟩
      else ⟨k.entries.insertIdxIfInBounds i (item, mask)⟩
    | none => k

/-- Canonical states. Terminals are numbered as in the grammar, with the end of the text after
the last; a goto of zero is none. -/
structure States where
  kernels : Array Kernel := #[]
  actions : Array (Array (List Action)) := #[]
  gotos : Array (Array Nat) := #[]
  /-- The core of each state: its items without what follows them. -/
  cores : Array Nat := #[]
deriving Inhabited

/-- The search for states. -/
structure Search where
  states : States := {}
  index : Std.HashMap Kernel Nat := {}
  coreIndex : Std.HashMap (Array Nat) Nat := {}

/-- The number of a state, entered if it is new. -/
def Search.enter (s : Search) (k : Kernel) : Search × Nat :=
  match s.index[k]? with
  | some i => (s, i)
  | none =>
    let core := k.entries.map (·.1)
    let coreId := (s.coreIndex[core]?).getD s.coreIndex.size
    let i := s.states.kernels.size
    ({ s with
        states := { s.states with
          kernels := s.states.kernels.push k
          cores := s.states.cores.push coreId }
        index := s.index.insert k i
        coreIndex := s.coreIndex.insert core coreId }, i)

/-- The shapes of the nodes of finished items. Shape 0 says nothing. -/
structure Shapes where
  shapes : Array Shape := #[{}]
  index : Std.HashMap Shape Nat := {}
  /-- The shape of each class of items. -/
  ofClass : Array Nat := #[]

/-- Numbers the shapes of all finished items. -/
def Shapes.ofItems (items : Items) : Shapes :=
  items.classes.foldl (fun s c =>
    if c.next.isSome || c.owner.isNone then { s with ofClass := s.ofClass.push 0 }
    else
      let shape := shapeOf items.grammar items.fields c.production
      if shape == {} then { s with ofClass := s.ofClass.push 0 }
      else match s.index[shape]? with
        | some i => { s with ofClass := s.ofClass.push i }
        | none =>
          { shapes := s.shapes.push shape
            index := s.index.insert shape s.shapes.size
            ofClass := s.ofClass.push s.shapes.size }) {}

/-- The closure of a set of items: classes, ascending, each with the terminals that may follow. -/
def closureOfKernel (items : Items) (k : Kernel) : Array (Nat × Nat) := Id.run do
  let mut masks := Array.replicate items.classes.size 0
  for (item, follow) in k.entries do
    let some cls := items.classes[item]? | continue
    for i in cls.inlined.getD #[item] do
      let some c := items.classes[i]? | continue
      if let some (.nonterminal v) := c.next then
        let after := c.following.getD follow
        for a in items.additions[v]?.getD #[] do
          let add := if a.propagates then a.follow ||| after else a.follow
          masks := masks.modify a.item (· ||| add)
      masks := masks.modify i (· ||| follow)
  let mut found := #[]
  for item in [0:masks.size] do
    let mask := masks[item]?.getD 0
    if mask != 0 then found := found.push (item, mask)
  return found

/-- What is known of the reductions possible on one terminal. -/
structure Reductions where
  precedence : Int := 0
  left : Bool := false
  right : Bool := false
  neither : Bool := false
deriving Inhabited

/-- Takes one more reduction into account. -/
def Reductions.add (r : Reductions) (precedence : Int) : Option Assoc → Reductions
  | some .left => { r with precedence, left := true }
  | some .right => { r with precedence, right := true }
  | none => { r with precedence, neither := true }

/-- Decides between the reductions and the shift, which is last in `entry`. `conflicting` has
each item that takes part, as its variable and whether it is finished, and `shifting` the
precedences of those that shift. -/
def decideShift (g : Productions) (r : Reductions) (conflicting : List Nat) (shifting : List Int)
    (entry : List Action) : List Action :=
  match entry.getLast? with
  | some (.shift state _) =>
    let reductions := entry.dropLast
    let repetition := match conflicting with
      | v :: rest => g.isAuxiliary v && rest.all (· == v)
      | [] => false
    if repetition then reductions ++ [.shift state true]
    else
      let more := shifting.any (· > r.precedence)
      let less := shifting.any (· < r.precedence)
      if more && !less then [.shift state false]
      else if less && !more then reductions
      else if !less && !more then
        match r.left, r.neither, r.right with
        | true, false, false => reductions
        | false, false, true => [.shift state false]
        | _, _, _ => entry
      else entry
  | _ => entry

/-- Works out the actions and gotos of state `i`, entering the states they lead to. -/
def Search.expand (items : Items) (shapes : Array Nat) (s : Search) (i : Nat) : Search := Id.run do
  let g := items.grammar
  let n := g.terminals.size
  let some kernel := s.states.kernels[i]? | return s
  let closure := closureOfKernel items kernel
  let mut s := s
  let mut row : Array (List Action) := Array.replicate (n + 1) []
  let mut infos : Array Reductions := Array.replicate (n + 1) {}
  let mut conflicts : List Nat := []
  let mut shifts : Array Kernel := Array.replicate n ⟨#[]⟩
  let mut moves : Array Kernel := Array.replicate g.vars.size ⟨#[]⟩
  for (item, mask) in closure do
    let some c := items.classes[item]? | continue
    match c.next with
    | some (.terminal t) => shifts := shifts.modify t (·.insert c.successor mask)
    | some (.nonterminal v) => moves := moves.modify v (·.insert c.successor mask)
    | some .eof => pure ()
    | none =>
      let action := match c.owner with
        | some v => Action.reduce v c.place c.production.dynamic (shapes[item]?.getD 0)
        | none => .accept
      for t in bitsOf mask (n + 1) do
        let entry := row[t]?.getD []
        let info := infos[t]?.getD {}
        if entry.isEmpty then
          row := row.setIfInBounds t [action]
          infos := infos.setIfInBounds t (info.add c.precedence c.assoc)
        else if c.precedence > info.precedence then
          row := row.setIfInBounds t [action]
          conflicts := conflicts.filter (· != t)
          infos := infos.setIfInBounds t (({} : Reductions).add c.precedence c.assoc)
        else if c.precedence == info.precedence then
          row := row.setIfInBounds t (entry ++ [action])
          conflicts := if conflicts.contains t then conflicts else t :: conflicts
          infos := infos.setIfInBounds t (info.add c.precedence c.assoc)
  for t in [0:n] do
    let k := shifts[t]?.getD ⟨#[]⟩
    if !k.entries.isEmpty then
      let (s', next) := s.enter k
      s := s'
      let entry := row[t]?.getD []
      if !entry.isEmpty then
        conflicts := if conflicts.contains t then conflicts else t :: conflicts
      row := row.setIfInBounds t (entry ++ [.shift next false])
  let mut goto : Array Nat := Array.replicate g.vars.size 0
  for v in [0:g.vars.size] do
    let k := moves[v]?.getD ⟨#[]⟩
    if !k.entries.isEmpty then
      let (s', next) := s.enter k
      s := s'
      goto := goto.setIfInBounds v next
  for t in conflicts do
    let mut conflicting : List Nat := []
    let mut shifting : List Int := []
    for (item, mask) in closure do
      let some c := items.classes[item]? | continue
      match c.next with
      | some symbol =>
        if c.place > 0 && (maskOfSymbol items.firsts symbol).testBit t then
          if let some v := c.owner then conflicting := v :: conflicting
          shifting := c.precedence :: shifting
      | none =>
        if mask.testBit t then
          if let some v := c.owner then conflicting := v :: conflicting
    row := row.modify t (decideShift g (infos[t]?.getD {}) conflicting shifting)
  for t in g.extras do
    row := row.modify t fun entry => if entry.isEmpty then [.shiftExtra] else entry
  return { s with states := { s.states with
    actions := s.states.actions.push row
    gotos := s.states.gotos.push goto } }

/-- All states reachable from the start: state 0, without items, is for recovering from errors,
and state 1 is the start. `shapes` has the shape of each class of items, and `fuel` bounds the
number of states. -/
def Search.run (items : Items) (shapes : Array Nat) (fuel : Nat) : States :=
  let eof := 1 <<< items.grammar.terminals.size
  let (s, _) := ({} : Search).enter ⟨#[]⟩
  let (s, _) := s.enter ⟨#[(items.start, eof)]⟩
  (iterate (fun (s, i) =>
    if i < s.states.kernels.size then some (s.expand items shapes i, i + 1) else none) fuel
    ((s, 0) : Search × Nat)).1.states

end JavaAtlas.Grammar
