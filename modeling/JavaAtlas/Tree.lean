import JavaAtlas.Parse.Machine

namespace JavaAtlas

/-! # Syntax trees

The tree of a text: every node knows the text it covers, the field under which its parent holds
it, and whether something is wrong in it. Nodes are named, or are tokens whose kind is their
text.
-/

/-- What is said of a node. -/
structure NodeInfo where
  kind : String
  named : Bool
  /-- It may stand anywhere in the text, as a comment does. -/
  extra : Bool := false
  /-- It is not in the text, but should be. -/
  missing : Bool := false
  /-- It covers text that fits nowhere. -/
  isError : Bool := false
  /-- Something is wrong in it or below it. -/
  hasError : Bool := false
  startByte : Nat
  endByte : Nat
  /-- Rows are counted from zero. -/
  startRow : Nat
  endRow : Nat
  /-- The field of the parent that holds it. -/
  field : Option String := none
deriving DecidableEq, Inhabited, Repr

/-- A node with all below it. -/
inductive Tree where
  | node (info : NodeInfo) (children : List Tree)
deriving Inhabited, BEq

namespace Tree

/-- What is said of the node. -/
def info : Tree → NodeInfo
  | .node i _ => i

/-- The nodes right below. -/
def children : Tree → List Tree
  | .node _ cs => cs

/-- The kind of the node. -/
def kind (t : Tree) : String := t.info.kind

/-- The children that are named. -/
def namedChildren (t : Tree) : List Tree := t.children.filter (·.info.named)

/-- The first child in a field. -/
def field? (t : Tree) (name : String) : Option Tree :=
  t.children.find? (·.info.field == some name)

end Tree

namespace Parse

open Grammar

/-- A place in the text. -/
structure Place where
  byte : Nat
  row : Nat

/-- The place `e` further on. -/
def Place.after (p : Place) (e : Extent) : Place := ⟨p.byte + e.bytes, p.row + e.rows⟩

/-- The field of the child that is number `i` among those that count for the production. -/
def fieldAt (fields : List (String × List (Nat × Bool))) (i : Nat) : Option String :=
  (fields.filter fun (_, places) => places.contains (i, false)).getLast?.map (·.1)

/-- The node that a piece at `place` shows as. -/
def infoOf (a : Automaton) (s : Summary) (place : Place) (renamed : Option Alias)
    (field : Option String) : NodeInfo :=
  let own := a.symbols[s.symbol]?
  let (kind, named) := match renamed with
    | some x => (x.name, x.named)
    | none =>
      if s.symbol == errorSymbol then ("ERROR", true)
      else ((own.map (·.kind)).getD "", (own.map (·.named)).getD false)
  let stop := place.after s.size
  { kind, named, field
    extra := s.extra
    missing := s.missing
    isError := s.symbol == errorSymbol
    hasError := s.cost > 0
    startByte := place.byte
    endByte := stop.byte
    startRow := place.row
    endRow := stop.row }

mutual

/-- The nodes that a piece shows as, put in front of `rest`: itself, or those below it. -/
def nodesOf (a : Automaton) (renamed : Option Alias) (field : Option String) (place : Place) :
    Subtree → List Tree → List Tree
  | .mk s children, rest =>
    let shape := a.shape s.shape
    if s.symbol == Automaton.eof then rest
    else if renamed.isSome || s.visible then
      .node (infoOf a s place renamed field) (nodesOfAll a shape none 0 true place children []) :: rest
    else nodesOfAll a shape field 0 true place children rest

/-- The nodes that pieces show as, put in front of `rest`. The first piece starts at `place`; the
white space before the others counts. `index` numbers the pieces that count for the production,
and `inherited` is the field of the node above, if that does not show. -/
def nodesOfAll (a : Automaton) (shape : Shape) (inherited : Option String) (index : Nat)
    (first : Bool) (place : Place) : List Subtree → List Tree → List Tree
  | [], rest => rest
  | t :: more, rest =>
    let s := t.summary
    let start := if first then place else place.after s.padding
    let stop := start.after s.size
    if s.extra then
      nodesOf a none none start t (nodesOfAll a shape inherited index false stop more rest)
    else
      let field := (fieldAt shape.fields index).orElse fun _ => inherited
      nodesOf a (shape.aliases[index]?.join) field start t
        (nodesOfAll a shape inherited (index + 1) false stop more rest)

end

/-- The tree of a parse. Its root always shows. -/
def treeOf (a : Automaton) (t : Subtree) : Tree :=
  match t with
  | .mk s children =>
    let place : Place := ⟨s.padding.bytes, s.padding.rows⟩
    .node (infoOf a s place none none)
      (nodesOfAll a (a.shape s.shape) none 0 true place children [])

/-- The tree of a text in the language of an automaton. -/
def parse (a : Automaton) (text : String) : Tree :=
  match run a (.ofString text) with
  | some t => treeOf a t
  | none =>
    .node
      { kind := "ERROR"
        named := true
        isError := true
        hasError := true
        startByte := 0
        endByte := text.utf8ByteSize
        startRow := 0
        endRow := 0 } []

end Parse

end JavaAtlas
