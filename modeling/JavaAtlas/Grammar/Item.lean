import JavaAtlas.Grammar.Lexicon
import Std.Data.HashMap

namespace JavaAtlas.Grammar

/-! # Items

An item is a place in a production. Items that no later decision can tell apart are one class,
and everything the automaton needs to know about a class is worked out once: its next symbol,
the class after that symbol, and, when the next symbol is a variable to be inlined, the classes
that stand in its place. Classes are numbered in the order in which their reductions are tried.

Sets of terminals are bit masks; the bit above the last terminal is the end of the text.
-/

/-! ## Which terminals begin, end and follow -/

/-- Least solution of a system of masks: starts from nothing and repeats `step` until it is
stable, at most `fuel` times. -/
def fixpoint (step : Array Nat → Array Nat) (fuel : Nat) (start : Array Nat) : Array Nat :=
  iterate (fun masks =>
    let next := step masks
    if next == masks then none else some next) fuel start

/-- The mask of a symbol, given those of the variables. -/
def maskOfSymbol (vars : Array Nat) : Symbol → Nat
  | .eof => 0
  | .terminal t => 1 <<< t
  | .nonterminal v => vars[v]?.getD 0

/-- For each variable the terminals picked by `pick` from its productions: with `head?` those
that a text of it can begin with, with `getLast?` those it can end with. -/
def edgeSets (pick : List Step → Option Step) (g : Productions) : Array Nat :=
  fixpoint (fun masks => g.vars.map fun v =>
    v.productions.foldl (fun mask p =>
      match pick p.steps with
      | some s => mask ||| maskOfSymbol masks s.symbol
      | none => mask) 0)
    (g.vars.size + 1) (Array.replicate g.vars.size 0)

/-- The field names that a node of each variable can carry, counting those of hidden children. -/
def fieldNames (g : Productions) : Array (List String) :=
  let step (known : Array (List String)) : Array (List String) :=
    g.vars.map fun v =>
      (dedup (v.productions.flatMap fun p => p.steps.flatMap fun s =>
        s.field.toList ++
          match s.symbol with
          | .nonterminal i => if g.isHidden i then known[i]?.getD [] else []
          | _ => [])).mergeSort (· ≤ ·)
  iterate (fun known =>
    let next := step known
    if next == known then none else some next)
    (g.vars.size + 1) (Array.replicate g.vars.size [])

/-! ## Inlining -/

/-- Puts the production `inner` of an inlined variable in the place of `step`: it takes over the
alias and field of the step, and its precedence where it has none itself. -/
def Step.splice (step : Step) (inner : List Step) : List Step :=
  let marked := inner.map fun s =>
    { s with renamed := step.renamed.or s.renamed, field := step.field.or s.field }
  modifyLast (fun s =>
    { s with precedence := s.precedence.or step.precedence, assoc := s.assoc.or step.assoc })
    marked

/-- The productions that `p` stands for once the variable at `place` is inlined, if it is to be.
Each round inlines the variable at `place` once more; `fuel` bounds the rounds. -/
def inlineAt (g : Productions) (place : Nat) : Nat → Production → Option (List Production)
  | 0, _ => none
  | fuel + 1, p =>
    match p.steps[place]? with
    | some step =>
      match step.symbol with
      | .nonterminal v =>
        if g.inlined.contains v then
          some ((g.vars[v]?.map (·.productions)).getD [] |>.flatMap fun inner =>
            let q : Production :=
              { dynamic := strongerDynamic p.dynamic inner.dynamic
                steps := p.steps.take place ++ step.splice inner.steps ++ p.steps.drop (place + 1) }
            (inlineAt g place fuel q).getD [q])
        else none
      | _ => none
    | none => none

/-! ## Classes of items -/

/-- A place in a production of a variable. `variable` is none for the production that derives
the start symbol. `inherits` tells whether a hidden child with fields has been passed. -/
structure Item where
  owner : Option Nat
  production : Production
  place : Nat
  inherits : Bool
deriving Inhabited

/-- What of a passed step still matters: its alias and field, and the symbol if `inherits`. -/
abbrev PassedStep := Option Alias × Option String × Option Symbol

/-- What a class of items has in common. -/
structure ItemKey where
  owner : Option Nat
  place : Nat
  dynamic : Int
  length : Nat
  precedence : Option Int
  assoc : Option Assoc
  inherits : Bool
  passed : List PassedStep
  ahead : List Step
deriving BEq, Hashable, Inhabited

/-- The step before the place of an item. -/
def Item.before? (item : Item) : Option Step :=
  if item.place = 0 then none else item.production.steps[item.place - 1]?

/-- The class to which an item belongs. -/
def Item.key (item : Item) : ItemKey where
  owner := item.owner
  place := item.place
  dynamic := item.production.dynamic
  length := item.production.steps.length
  precedence := item.before?.bind (·.precedence)
  assoc := item.before?.bind (·.assoc)
  inherits := item.inherits
  passed := (item.production.steps.take item.place).map fun s =>
    (s.renamed, s.field, if item.inherits then some s.symbol else none)
  ahead := item.production.steps.drop item.place

/-- Orders lists element by element, a shorter list before its extensions. -/
def compareLists {α : Type} (cmp : α → α → Ordering) : List α → List α → Ordering
  | [], [] => .eq
  | [], _ :: _ => .lt
  | _ :: _, [] => .gt
  | a :: as, b :: bs => (cmp a b).then (compareLists cmp as bs)

/-- Orders optional values, absence first. -/
def compareOptions {α : Type} (cmp : α → α → Ordering) : Option α → Option α → Ordering
  | none, none => .eq
  | none, some _ => .lt
  | some _, none => .gt
  | some a, some b => cmp a b

/-- The order of steps. -/
def Step.compare (a b : Step) : Ordering :=
  (Ord.compare a.symbol b.symbol)
    |>.then (compareOptions Ord.compare a.precedence b.precedence)
    |>.then (compareOptions Ord.compare a.assoc b.assoc)
    |>.then (compareOptions Ord.compare a.renamed b.renamed)
    |>.then (compareOptions Ord.compare a.field b.field)

/-- The order in which finished items are reduced: the item that has passed fewer steps first,
then by variable. The start production comes after all variables. -/
def ItemKey.compare (a b : ItemKey) : Ordering :=
  let owner (k : ItemKey) : Nat × Nat := match k.owner with
    | some v => (0, v)
    | none => (1, 0)
  (Ord.compare a.place b.place)
    |>.then (Ord.compare (owner a).1 (owner b).1)
    |>.then (Ord.compare (owner a).2 (owner b).2)
    |>.then (Ord.compare a.dynamic b.dynamic)
    |>.then (Ord.compare a.length b.length)
    |>.then (compareOptions Ord.compare a.precedence b.precedence)
    |>.then (compareOptions Ord.compare a.assoc b.assoc)
    |>.then (Ord.compare a.inherits b.inherits)
    |>.then (compareLists (fun x y =>
        (compareOptions Ord.compare x.1 y.1).then (compareOptions Ord.compare x.2.1 y.2.1))
        a.passed b.passed)
    |>.then (compareLists Step.compare a.ahead b.ahead)

/-! ## What productions tell the tree -/

/-- How the children of a node of one production show: the alias of each child in order, and the
fields, each with the children that carry it, `true` where the field is one of the child's own. -/
structure Shape where
  aliases : List (Option Alias) := []
  fields : List (String × List (Nat × Bool)) := []
deriving BEq, Hashable, Inhabited

/-- Drops trailing absences. -/
def dropTrailing {α : Type} (xs : List (Option α)) : List (Option α) :=
  (xs.reverse.dropWhile (·.isNone)).reverse

/-- The shape of a production's nodes. -/
def shapeOf (g : Productions) (fields : Array (List String)) (p : Production) : Shape :=
  let places := p.steps.zipIdx.flatMap fun (s, i) =>
    (s.field.toList.map fun f => (f, i, false)) ++
      match s.symbol with
      | .nonterminal v =>
        if g.isHidden v then (fields[v]?.getD []).map fun f => (f, i, true) else []
      | _ => []
  let names := (dedup (places.map (·.1))).mergeSort (· ≤ ·)
  { aliases := dropTrailing (p.steps.map (·.renamed))
    fields := names.map fun f => (f, (places.filter (·.1 == f)).map (·.2)) }

/-- A class of items with all that the automaton needs to know about it. -/
structure ItemClass where
  owner : Option Nat
  /-- The production of one of its items. -/
  production : Production
  place : Nat
  next : Option Symbol
  /-- The class after the next symbol. -/
  successor : Nat := 0
  /-- The classes in its place when the next symbol is inlined. -/
  inlined : Option (Array Nat) := none
  /-- The terminals that can follow the next symbol inside the production; none at its end. -/
  following : Option Nat := none
  precedence : Int
  assoc : Option Assoc
deriving Inhabited

/-- Items reached from the start of a variable, with the terminals known to follow them and
whether what follows the variable follows them too. -/
structure Addition where
  item : Nat
  follow : Nat
  propagates : Bool
deriving Inhabited

/-- All classes of items of a grammar, with what is derived from them. -/
structure Items where
  grammar : Productions
  classes : Array ItemClass
  /-- The class of the start item. -/
  start : Nat
  /-- What each variable adds to a closure. -/
  additions : Array (Array Addition)
  firsts : Array Nat
  lasts : Array Nat
  fields : Array (List String)

/-- The state of the search for classes. -/
structure ItemTable where
  index : Std.HashMap ItemKey Nat := {}
  items : Array Item := #[]

/-- The number of an item's class, entered if it is new. -/
def ItemTable.enter (t : ItemTable) (item : Item) : ItemTable × Nat :=
  let key := item.key
  match t.index[key]? with
  | some i => (t, i)
  | none => ({ index := t.index.insert key t.items.size, items := t.items.push item },
      t.items.size)

/-- The item after the next symbol. -/
def Item.advance (g : Productions) (fields : Array (List String)) (item : Item) : Item :=
  let inherits := match item.production.steps[item.place]? with
    | some { symbol := .nonterminal v, .. } =>
      item.inherits || (g.isHidden v && !(fields[v]?.getD []).isEmpty)
    | _ => item.inherits
  { item with place := item.place + 1, inherits }

/-- The variables whose productions can begin a text of `v`, with what follows them. -/
def openings (g : Productions) (firsts : Array Nat) (v : Nat) : List (Nat × Nat × Bool) :=
  let step : List (Nat × Nat × Bool) × List (Nat × Nat × Bool) →
      Option (List (Nat × Nat × Bool) × List (Nat × Nat × Bool))
    | ([], _) => none
    | ((w, mask, through) :: todo, known) =>
      let old := known.lookup w
      let (oldMask, oldThrough) := old.getD (0, false)
      if old.isSome && (oldMask ||| mask) == oldMask && (oldThrough || !through) then
        some (todo, known)
      else
        let mask := oldMask ||| mask
        let through := oldThrough || through
        let known := (w, mask, through) :: known.filter (·.1 ≠ w)
        let more := ((g.vars[w]?.map (·.productions)).getD []).filterMap fun p =>
          match p.steps with
          | { symbol := .nonterminal u, .. } :: second :: _ =>
            some (u, maskOfSymbol firsts second.symbol, false)
          | [{ symbol := .nonterminal u, .. }] => some (u, mask, through)
          | _ => none
        some (more ++ todo, known)
  let all := (iterate step (64 * (g.vars.size + 1) * (g.vars.size + 1))
    ([(v, 0, true)], [])).2
  all.mergeSort fun a b => a.1 ≤ b.1

/-- Works out all classes of items of a grammar. -/
def Items.ofGrammar (g : Productions) : Items :=
  let firsts := edgeSets List.head? g
  let lasts := edgeSets List.getLast? g
  let fields := fieldNames g
  let depth := g.inlined.length + 1
  -- the items at the start of each variable that is not inlined away
  let startItem : Item :=
    { owner := none, production := { steps := [{ symbol := .nonterminal 0 }] }, place := 0,
      inherits := false }
  let initial (v : Nat) : List Item :=
    if g.inlined.contains v then []
    else ((g.vars[v]?.map (·.productions)).getD []).flatMap fun p =>
      ((inlineAt g 0 depth p).getD [p]).map fun q =>
        { owner := some v, production := q, place := 0, inherits := false }
  let table := (List.range g.vars.size).foldl (fun t v =>
    (initial v).foldl (fun t item => (t.enter item).1) t) (({} : ItemTable).enter startItem).1
  -- close under moving on and under inlining
  let close : ItemTable × Nat × Array (Nat × Option (Array Nat)) →
      Option (ItemTable × Nat × Array (Nat × Option (Array Nat)))
    | (t, i, links) =>
      match t.items[i]? with
      | none => none
      | some item =>
        if item.place ≥ item.production.steps.length then some (t, i + 1, links.push (0, none))
        else
          let (t, successor) := t.enter (item.advance g fields)
          match inlineAt g item.place depth item.production with
          | none => some (t, i + 1, links.push (successor, none))
          | some qs =>
            let (t, ids) := qs.foldl (fun (t, (ids : Array Nat)) q =>
              let (t, id) := t.enter { item with production := q }
              (t, ids.push id)) (t, #[])
            some (t, i + 1, links.push (successor, some ids))
  let (table, _, links) := iterate close 1000000 (table, 0, #[])
  -- number the classes in their order
  let keyed := table.items.zipIdx.map fun (item, i) => (item.key, i)
  let order := (keyed.toList.mergeSort fun a b => a.1.compare b.1 != .gt).map (·.2)
  let rank := (order.zipIdx).foldl (fun (r : Array Nat) (i, k) => r.setIfInBounds i k)
    (Array.replicate table.items.size 0)
  let rankOf (i : Nat) : Nat := rank[i]?.getD 0
  let classes := order.toArray.map fun i =>
    let item := table.items[i]?.getD default
    let (successor, inlined) := links[i]?.getD (0, none)
    let steps := item.production.steps
    { owner := item.owner
      production := item.production
      place := item.place
      next := steps[item.place]?.map (·.symbol)
      successor := rankOf successor
      inlined := inlined.map (·.map rankOf)
      following := steps[item.place + 1]?.map fun s => maskOfSymbol firsts s.symbol
      precedence := (item.before?.bind (·.precedence)).getD 0
      assoc := item.before?.bind (·.assoc) : ItemClass }
  let classOf (item : Item) : Nat := rankOf (table.index[item.key]?.getD 0)
  let additions := (Array.range g.vars.size).map fun v =>
    ((openings g firsts v).flatMap fun (w, mask, through) =>
      (initial w).map fun item => (⟨classOf item, mask, through⟩ : Addition)).toArray
  { grammar := g
    classes
    start := classOf startItem
    additions
    firsts
    lasts
    fields }

end JavaAtlas.Grammar
