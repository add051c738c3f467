import JavaAtlas.Parse.Token

namespace JavaAtlas.Parse

open Grammar

/-! # The stack

The parser follows several parses at once. Their stacks share what they have in common: a stack
is a graph whose nodes are states of the parser and whose links, from the later to the earlier
node, hold the pieces between them. Each parse that is still being followed is a head, which
points to its top node. Heads in the same state at the same place are merged, so that a node can
have several links.
-/

/-- A way from a node to an earlier one. A link without a piece marks the place of an error. -/
structure Link where
  target : Nat
  piece : Option Subtree
deriving Inhabited

/-- A node of the stack, with sums over the cheapest way down. -/
structure StackNode where
  state : Nat
  position : Extent := {}
  cost : Nat := 0
  nodeCount : Nat := 0
  dynamic : Int := 0
  links : List Link := []
deriving Inhabited

/-- What becomes of a head. -/
inductive HeadStatus where
  | active
  /-- It met an error at this token and waits for its turn to deal with it. -/
  | paused (lookahead : Subtree)
  | halted
deriving Inhabited

/-- Whether the head is being followed. -/
def HeadStatus.isActive : HeadStatus → Bool
  | .active => true
  | _ => false

/-- Whether the head waits. -/
def HeadStatus.isPaused : HeadStatus → Bool
  | .paused _ => true
  | _ => false

/-- Whether the head is to be dropped. -/
def HeadStatus.isHalted : HeadStatus → Bool
  | .halted => true
  | _ => false

/-- A state that lies below a head, to which it might return. -/
structure Ancestor where
  depth : Nat
  state : Nat
  position : Extent
deriving Inhabited

/-- The top of one of the stacks. -/
structure Head where
  node : Nat
  status : HeadStatus := .active
  /-- The node count at the last error. -/
  countAtError : Nat := 0
  /-- States to which to return after the last error. -/
  ancestors : Option (List Ancestor) := none
deriving Inhabited

/-- The parser's memory: the stack, and the best finished parse. -/
structure Machine where
  nodes : Array StackNode := #[]
  heads : Array Head := #[]
  finished : Option Subtree := none
  acceptCount : Nat := 0
deriving Inhabited

/-- Steps of the parser. -/
abbrev ParseM := StateM Machine

/-- Most links a node may have. -/
def maxLinks : Nat := 8

/-- Most ways down that are followed at once. -/
def maxWays : Nat := 64

/-! ## Nodes and links -/

/-- The node over `target` across `piece`. -/
def StackNode.above (target : Nat) (below : StackNode) (piece : Option Subtree) (state : Nat) :
    StackNode :=
  match piece with
  | none => { below with state, links := [⟨target, none⟩] }
  | some t =>
    { state
      position := below.position + t.total
      cost := below.cost + t.summary.cost
      nodeCount := below.nodeCount + t.nodeCount
      dynamic := below.dynamic + t.summary.dynamic
      links := [⟨target, some t⟩] }

/-- The dynamic precedence of a link's piece. -/
def Link.dynamic (l : Link) : Int := ((l.piece).map (·.summary.dynamic)).getD 0

/-- Whether two links hold pieces between which no choice need be kept open. -/
def Link.equivalent (a b : Link) : Bool :=
  match a.piece, b.piece with
  | none, none => true
  | some s, some t =>
    let s := s.summary
    let t := t.summary
    s.symbol == t.symbol &&
      ((s.cost > 0 && t.cost > 0) ||
        (s.padding.bytes == t.padding.bytes && s.size.bytes == t.size.bytes &&
          s.childCount == t.childCount && s.extra == t.extra))
  | _, _ => false

/-- Whether two nodes can stand for each other. -/
def StackNode.sameAs (a b : StackNode) : Bool :=
  a.state == b.state && a.position.bytes == b.position.bytes && a.cost == b.cost

/-- What adding a link to a node amounts to. -/
inductive LinkChange where
  /-- The link is there already, perhaps with a piece of lower precedence. -/
  | replace (index : Nat)
  /-- Its target can stand for the target of a link that is there. -/
  | join (target : Nat)
  | add

/-- Finds out what adding a link amounts to. -/
def linkChange (nodes : Array StackNode) (link : Link) : Nat → List Link → LinkChange
  | _, [] => .add
  | i, old :: rest =>
    if old.equivalent link then
      if old.target == link.target then .replace i
      else
        let a := nodes[old.target]?.getD default
        let b := nodes[link.target]?.getD default
        if a.sameAs b then .join old.target else linkChange nodes link (i + 1) rest
    else linkChange nodes link (i + 1) rest

/-- Adds a link to a node; `fuel` bounds how far down nodes are joined. -/
def addLink : Nat → Array StackNode → Nat → Link → Array StackNode
  | 0, nodes, _, _ => nodes
  | fuel + 1, nodes, self, link =>
    if link.target == self then nodes
    else
      let below := nodes[link.target]?.getD default
      match linkChange nodes link 0 ((nodes[self]?.map (·.links)).getD []) with
      | .replace i => nodes.modify self fun n =>
          match n.links[i]? with
          | some old =>
            if link.dynamic > old.dynamic then
              { n with
                links := n.links.set i link
                dynamic := below.dynamic + link.dynamic }
            else n
          | none => n
      | .join target =>
        let nodes := below.links.foldl (fun nodes l => addLink fuel nodes target l) nodes
        nodes.modify self fun n => { n with dynamic := max n.dynamic (below.dynamic + link.dynamic) }
      | .add => nodes.modify self fun n =>
          if n.links.length ≥ maxLinks then n
          else
            let count := below.nodeCount + ((link.piece).map (·.nodeCount)).getD 0
            { n with
              links := n.links ++ [link]
              nodeCount := max n.nodeCount count
              dynamic := max n.dynamic (below.dynamic + link.dynamic) }

namespace Machine

/-- The top node of a head. -/
def top (m : Machine) (v : Nat) : StackNode :=
  match m.heads[v]? with
  | some h => m.nodes[h.node]?.getD default
  | none => default

/-- The state of a head. -/
def stateOf (m : Machine) (v : Nat) : Nat := (m.top v).state

/-- What the errors of a head cost so far. -/
def costOf (m : Machine) (v : Nat) : Nat :=
  match m.heads[v]? with
  | none => 0
  | some h =>
    let n := m.nodes[h.node]?.getD default
    let atError := n.state == Automaton.errorState &&
      ((n.links.head?).map (·.piece.isNone)).getD false
    if h.status.isPaused || atError then n.cost + costPerRecovery else n.cost

/-- Removes a head. -/
def dropHead (m : Machine) (v : Nat) : Machine :=
  { m with heads := m.heads.eraseIdxIfInBounds v }

/-- Whether two heads can be merged. -/
def canMerge (m : Machine) (a b : Nat) : Bool :=
  match m.heads[a]?, m.heads[b]? with
  | some x, some y =>
    x.status.isActive && y.status.isActive && (m.top a).sameAs (m.top b)
  | _, _ => false

end Machine

/-! ## Heads -/

/-- The nodes a head has pushed since its last error. -/
def countSinceError (v : Nat) : ParseM Nat := modifyGet fun m =>
  let count := (m.top v).nodeCount
  match m.heads[v]? with
  | none => (0, m)
  | some h =>
    if count < h.countAtError then
      (0, { m with heads := m.heads.modify v fun h => { h with countAtError := count } })
    else (count - h.countAtError, m)

/-- Pushes a piece, or the mark of an error. -/
def push (v : Nat) (piece : Option Subtree) (state : Nat) : ParseM Unit := modify fun m =>
  match m.heads[v]? with
  | none => m
  | some h =>
    let node := StackNode.above h.node (m.top v) piece state
    let index := m.nodes.size
    let count := node.nodeCount
    let marks := piece.isNone
    { m with
      nodes := m.nodes.push node
      heads := m.heads.modify v fun h =>
        { h with
          node := index
          countAtError := if marks then count else h.countAtError } }

/-- Changes a head. -/
def modifyHead (v : Nat) (f : Head → Head) : ParseM Unit :=
  modify fun m => { m with heads := m.heads.modify v f }

/-- Ends a head. -/
def halt (v : Nat) : ParseM Unit := modifyHead v fun h => { h with status := .halted }

/-- Merges head `b` into head `a` if possible. -/
def merge (a b : Nat) : ParseM Bool := modifyGet fun m =>
  if m.canMerge a b then
    let self := ((m.heads[a]?).map (·.node)).getD 0
    let links := (m.top b).links
    let fuel := m.nodes.size + 1
    let nodes := links.foldl (fun nodes l => addLink fuel nodes self l) m.nodes
    let top := nodes[self]?.getD default
    let heads := if top.state == Automaton.errorState then
        m.heads.modify a fun h => { h with countAtError := top.nodeCount }
      else m.heads
    (true, { m with nodes, heads := heads.eraseIdxIfInBounds b })
  else (false, m)

/-- Puts head `a` in the place of head `b`. -/
def renumber (a b : Nat) : ParseM Unit := modify fun m =>
  if a == b then m
  else match m.heads[a]?, m.heads[b]? with
    | some x, some y =>
      let x := { x with ancestors := x.ancestors.orElse fun _ => y.ancestors }
      { m with heads := (m.heads.setIfInBounds b x).eraseIdxIfInBounds a }
    | _, _ => m

/-! ## Ways down -/

/-- A way down from a head: the node reached, the pieces passed, later ones last, and how many of
them count for a production. -/
structure Way where
  node : Nat
  pieces : List Subtree := []
  depth : Nat := 0
deriving Inhabited

/-- The way across one more link. -/
def Way.across (w : Way) (l : Link) : Way :=
  match l.piece with
  | none => { w with node := l.target, depth := w.depth + 1 }
  | some t =>
    { node := l.target
      pieces := t :: w.pieces
      depth := if t.extra then w.depth else w.depth + 1 }

/-- What to do at a node on a way down. -/
structure Verdict where
  /-- The way ends here with a result. -/
  take : Bool
  /-- The way is not followed further. -/
  stop : Bool

/-- A result of going down: a head at the node reached, and the pieces passed. -/
structure Slice where
  head : Nat
  pieces : List Subtree
deriving Inhabited

/-- Inserts a slice behind the last one whose head is at `node`; none if there is none. -/
def insertSlice? (heads : Array Head) (node : Nat) (pieces : List Subtree) :
    List Slice → Option (List Slice)
  | [] => none
  | s :: rest =>
    match insertSlice? heads node pieces rest with
    | some rest => some (s :: rest)
    | none =>
      if ((heads[s.head]?).map (·.node)) == some node then some (s :: ⟨s.head, pieces⟩ :: rest)
      else none

/-- Takes up a result, with a new head unless there is one at its node. -/
def takeSlice (origin : Nat) (slices : List Slice) (w : Way) : ParseM (List Slice) :=
  modifyGet fun m =>
    match insertSlice? m.heads w.node w.pieces slices with
    | some slices => (slices, m)
    | none =>
      let count := ((m.heads[origin]?).map (·.countAtError)).getD 0
      let head := m.heads.size
      (slices ++ [⟨head, w.pieces⟩],
        { m with heads := m.heads.push { node := w.node, countAtError := count } })

/-- Ways down while they are followed, one link per round. -/
structure Descent (σ : Type) where
  memo : σ
  slices : List Slice := []
  /-- The ways of this round that go on, last first. -/
  kept : List Way := []
  /-- The ways that have branched off in this round, last first. -/
  branched : List Way := []
  /-- The number of all ways. -/
  count : Nat := 1

/-- Branches a way off along each of `links`, as long as there are not too many. -/
def branchOff (w : Way) : List Link → List Way × Nat → List Way × Nat
  | [], state => state
  | l :: rest, (branched, count) =>
    if count ≥ maxWays then branchOff w rest (branched, count)
    else branchOff w rest (w.across l :: branched, count + 1)

/-- Follows each way of a round across one link. -/
def descendRound {σ : Type} (visit : σ → StackNode → Way → σ × Verdict) (origin : Nat) :
    Descent σ → List Way → ParseM (Descent σ)
  | d, [] => pure d
  | d, w :: rest => do
    let node := (← get).nodes[w.node]?.getD default
    let (memo, verdict) := visit d.memo node w
    let slices ← if verdict.take then takeSlice origin d.slices w else pure d.slices
    match node.links, verdict.stop with
    | first :: others, false =>
      let (branched, count) := branchOff w others (d.branched, d.count)
      descendRound visit origin
        { memo, slices, kept := w.across first :: d.kept, branched, count } rest
    | _, _ =>
      descendRound visit origin
        { memo, slices, kept := d.kept, branched := d.branched, count := d.count - 1 } rest

/-- Follows all ways down; `fuel` bounds the rounds. -/
def descend {σ : Type} (visit : σ → StackNode → Way → σ × Verdict) (origin : Nat) :
    Nat → Descent σ → List Way → ParseM (σ × List Slice)
  | 0, d, _ => pure (d.memo, d.slices)
  | _ + 1, d, [] => pure (d.memo, d.slices)
  | fuel + 1, d, ways => do
    let d ← descendRound visit origin { d with kept := [], branched := [] } ways
    descend visit origin fuel { d with kept := [], branched := [] }
      (d.kept.reverse ++ d.branched.reverse)

/-- Goes down from a head, asking `visit` at every node. -/
def walk {σ : Type} (memo : σ) (visit : σ → StackNode → Way → σ × Verdict) (v : Nat) :
    ParseM (σ × List Slice) := do
  let m ← get
  let fuel := m.nodes.size + 2
  let node := ((m.heads[v]?).map (·.node)).getD 0
  descend visit v fuel { memo } [{ node }]

/-- The ways down over `count` pieces that count for a production. -/
def popCount (v count : Nat) : ParseM (List Slice) := do
  let (_, slices) ← walk () (fun _ _ w =>
    ((), ⟨w.depth == count, w.depth == count⟩)) v
  return slices

/-- The ways down to the bottom. -/
def popAll (v : Nat) : ParseM (List Slice) := do
  let (_, slices) ← walk () (fun _ n _ => ((), ⟨n.links.isEmpty, false⟩)) v
  return slices

/-- Pops text that was skipped, if a head ends with it. -/
def popError (v : Nat) : ParseM (List Subtree) := do
  let ends := ((← get).top v).links.any fun l =>
    ((l.piece).map (·.symbol == errorSymbol)).getD false
  if ends then
    let (_, slices) ← walk false (fun found _ w =>
      match w.pieces with
      | [] => (found, ⟨false, false⟩)
      | t :: _ =>
        if !found && t.symbol == errorSymbol then (true, ⟨true, true⟩)
        else (found, ⟨false, true⟩)) v
    match slices with
    | s :: _ =>
      renumber s.head v
      return s.pieces
    | [] => return []
  else return []

/-- How far down states are noted to which a head might return. -/
def maxAncestorDepth : Nat := 16

/-- Whether a state at a depth has been noted; the list starts with the deepest. -/
def noted (depth state : Nat) : List Ancestor → Bool
  | [] => false
  | a :: rest =>
    if a.depth < depth then false
    else if a.depth == depth && a.state == state then true
    else noted depth state rest

/-- Notes the states below a head, to which it might return. -/
def noteAncestors (v : Nat) : ParseM Unit := do
  let (found, _) ← walk ([] : List Ancestor) (fun found n w =>
    if w.depth > maxAncestorDepth then (found, ⟨false, true⟩)
    else if noted w.depth n.state found then (found, ⟨false, false⟩)
    else (⟨w.depth, n.state, n.position⟩ :: found, ⟨false, false⟩)) v
  modifyHead v fun h => { h with ancestors := some found.reverse }

end JavaAtlas.Parse
