import JavaAtlas.Grammar.Production

namespace JavaAtlas.Grammar

/-! # The lexicon

All tokens of a grammar as one nondeterministic automaton over classes of characters. White
space before a token belongs to the token's own part of the automaton, so that an automaton for
any selection of tokens also skips what stands between them.
-/

/-- Applies `step` until it gives nothing more, at most `fuel` times. -/
def iterate {σ : Type} (step : σ → Option σ) : Nat → σ → σ
  | 0, s => s
  | fuel + 1, s =>
    match step s with
    | none => s
    | some s => iterate step fuel s

/-! ## Sets as bit masks -/

/-- Whether `p` holds of a number below `n`. -/
@[specialize]
def existsBelow (p : Nat → Bool) : Nat → Bool
  | 0 => false
  | n + 1 => p n || existsBelow p n

/-- Puts the bits of `mask` below `count` in front of `found`, each with `offset` added. -/
def bitsBelow (mask offset : Nat) : Nat → List Nat → List Nat
  | 0, found => found
  | count + 1, found =>
    bitsBelow mask offset count (if mask.testBit count then (offset + count) :: found else found)

/-- The bits of `mask` in the words of 32 bits from the one at `offset` on. -/
def bitsFrom (mask offset : Nat) : Nat → List Nat
  | 0 => []
  | words + 1 =>
    let low := mask % 4294967296
    let high := bitsFrom (mask >>> 32) (offset + 32) words
    if low == 0 then high else bitsBelow low offset 32 high

/-- The indices below `width` of the bits set in `mask`, ascending. -/
def bitsOf (mask width : Nat) : List Nat := bitsFrom (mask % (1 <<< width)) 0 (width / 32 + 1)

/-! ## Classes of characters -/

/-- Code points that no set of a grammar tells apart, as one number per class. -/
structure Alphabet where
  /-- First code point and class of each interval, ascending from zero. -/
  intervals : Array (Nat × Nat)
  /-- Classes of the first code points, for speed. -/
  ascii : Array Nat
  size : Nat
deriving Inhabited

namespace Alphabet

/-- The class of `c`, searched between the intervals `low` and `low + width`. -/
def search (intervals : Array (Nat × Nat)) (c : Nat) : Nat → Nat → Nat → Nat
  | 0, low, _ => (intervals[low]?.map (·.2)).getD 0
  | fuel + 1, low, width =>
    if width ≤ 1 then (intervals[low]?.map (·.2)).getD 0
    else
      let mid := low + width / 2
      match intervals[mid]? with
      | none => 0
      | some (first, _) =>
        if c < first then search intervals c fuel low (width / 2)
        else search intervals c fuel mid (width - width / 2)

/-- The class of a code point. -/
def classOf (a : Alphabet) (c : Nat) : Nat :=
  match a.ascii[c]? with
  | some k => k
  | none => search a.intervals c (a.intervals.size + 1) 0 a.intervals.size

/-- The coarsest classes of which every set in `sets` is a union. -/
def ofSets (sets : List CodeRanges) : Alphabet :=
  let bounds := sets.flatMap fun s => s.ranges.toList.flatMap fun (a, b) => [a, b + 1]
  let bounds := ((0 :: bounds).mergeSort (· ≤ ·)).foldl (fun (kept : Array Nat) b =>
    if kept.back? == some b || b > 0x10FFFF then kept else kept.push b) #[]
  let (intervals, seen) := bounds.foldl
    (fun (state : Array (Nat × Nat) × List (List Bool × Nat)) b =>
      let signature := sets.map (·.contains b)
      match state.2.lookup signature with
      | some k => (state.1.push (b, k), state.2)
      | none =>
        let k := state.2.length
        (state.1.push (b, k), state.2 ++ [(signature, k)])) (#[], [])
  let ascii := (Array.range 128).map fun c => search intervals c (intervals.size + 1) 0 intervals.size
  { intervals, ascii, size := seen.length }

/-- The classes that make up a set, as a bit mask. -/
def maskOf (a : Alphabet) (set : CodeRanges) : Nat :=
  a.intervals.foldl (fun mask (first, k) =>
    if set.contains first then mask ||| (1 <<< k) else mask) 0

end Alphabet

/-! ## The automaton of all tokens -/

/-- A state of the automaton of all tokens. -/
inductive LexState where
  /-- Reads one character of a set, either of the token or of the white space before it. -/
  | advance (set : CodeRanges) (next : Nat) (blank : Bool)
  | split (left right : Nat)
  | accept
deriving Inhabited

mutual

/-- Adds states that read `pattern` and go on in state `next`; gives the state to start in. -/
def Pattern.compile (blank : Bool) (next : Nat) (states : Array LexState) :
    Pattern → Array LexState × Nat
  | .chars set => (states.push (.advance set next blank), states.size)
  | .seq parts => Pattern.compileSeq blank next states parts
  | .alt options =>
    match options with
    | [] => (states, next)
    | first :: rest =>
      let (states, start) := Pattern.compile blank next states first
      Pattern.compileAlt blank next start states rest
  | .optional body =>
    let (states, start) := Pattern.compile blank next states body
    (states.push (.split start next), states.size)
  | .some body =>
    let loop := states.size
    let (states, start) := Pattern.compile blank loop (states.push .accept) body
    (states.setIfInBounds loop (.split start next), start)
  | .many body =>
    let loop := states.size
    let (states, start) := Pattern.compile blank loop (states.push .accept) body
    let states := states.setIfInBounds loop (.split start next)
    (states.push (.split start next), states.size)

/-- Adds states for patterns one after the other. -/
def Pattern.compileSeq (blank : Bool) (next : Nat) (states : Array LexState) :
    List Pattern → Array LexState × Nat
  | [] => (states, next)
  | p :: rest =>
    let (states, middle) := Pattern.compileSeq blank next states rest
    Pattern.compile blank middle states p

/-- Adds states for further options beside the one that starts in `start`. -/
def Pattern.compileAlt (blank : Bool) (next start : Nat) (states : Array LexState) :
    List Pattern → Array LexState × Nat
  | [] => (states, start)
  | p :: rest =>
    let (states, other) := Pattern.compile blank next states p
    Pattern.compileAlt blank next states.size (states.push (.split other start)) rest

end

/-- An edge of the lexicon, from a state that is not a split. -/
structure Edge where
  /-- Classes of characters, as a bit mask. -/
  classes : Nat
  next : Nat
  blank : Bool
deriving Inhabited

/-- The automaton of all tokens over classes of characters. -/
structure Lexicon where
  alphabet : Alphabet
  /-- The edge out of a state that reads a character. -/
  edges : Array (Option Edge)
  /-- The states to which a state leads without reading, splits left out, ascending. -/
  closures : Array (Array Nat)
  /-- The terminal to which a state belongs. -/
  owners : Array Nat
  /-- Whether the terminal of a state is complete there. -/
  accepting : Array Bool
  /-- Where each terminal starts. -/
  starts : Array Nat
  /-- Precedence of each terminal. -/
  precedences : Array Int
  /-- Rank that decides between terminals of one precedence: fixed texts before patterns, and of
  either kind the immediate ones first. -/
  ranks : Array Nat
deriving Inhabited

/-- The non-split states that `start` leads to without reading. -/
def closureOf (states : Array LexState) (start : Nat) : Array Nat :=
  let step : List Nat × List Nat × List Nat → Option (List Nat × List Nat × List Nat)
    | ([], _, _) => none
    | (s :: todo, seen, found) =>
      if seen.contains s then some (todo, seen, found)
      else match states[s]? with
        | some (.split a b) => some (a :: b :: todo, s :: seen, found)
        | some _ => some (todo, s :: seen, s :: found)
        | none => some (todo, seen, found)
  let (_, _, found) := iterate step (2 * states.size + 2) ([start], [], [])
  (found.mergeSort (· ≤ ·)).toArray

namespace Lexicon

/-- The lexicon of a grammar's terminals. -/
def ofTerminals (terminals : Array Terminal) (blanks : CodeRanges) : Lexicon :=
  let (states, owners, starts) := terminals.foldl
    (fun (state : Array LexState × Array Nat × Array Nat) t =>
      let (states, owners, starts) := state
      let accept := states.size
      let (states, start) := t.token.pattern.compile false accept (states.push .accept)
      let (states, start) :=
        if t.token.immediate then (states, start)
        else Pattern.compile true start states (.many (.chars blanks))
      (states, owners ++ Array.replicate (states.size - owners.size) starts.size,
        starts.push start)) (#[], #[], #[])
  let sets := dedup (states.toList.filterMap fun
    | .advance set _ _ => some set
    | _ => none)
  let alphabet := Alphabet.ofSets sets
  let masks := sets.map fun s => (s, alphabet.maskOf s)
  { alphabet
    edges := states.map fun
      | .advance set next blank => some ⟨(masks.lookup set).getD 0, next, blank⟩
      | _ => none
    closures := (Array.range states.size).map (closureOf states)
    owners
    accepting := states.map fun
      | .accept => true
      | _ => false
    starts
    precedences := terminals.map (·.token.precedence)
    ranks := terminals.map fun t =>
      (if t.token.literal.isSome then 2 else 0) + (if t.token.immediate then 1 else 0) }

/-- Sorts and drops repetitions. -/
def normalize (states : Array Nat) : Array Nat :=
  (states.qsort (· < ·)).foldl (fun (kept : Array Nat) s =>
    if kept.back? == some s then kept else kept.push s) #[]

/-- The states reached from several states without reading. -/
def closure (l : Lexicon) (states : Array Nat) : Array Nat :=
  normalize (states.foldl (fun all s => all ++ (l.closures[s]?.getD #[])) #[])

/-- The terminals that are complete in one of the states, ascending. -/
def completions (l : Lexicon) (states : Array Nat) : List Nat :=
  states.toList.filterMap fun s =>
    if l.accepting[s]?.getD false then l.owners[s]? else none

/-- Whether white space is being skipped in one of the states. -/
def skipsBlanks (l : Lexicon) (states : Array Nat) : Bool :=
  states.any fun s =>
    match l.edges[s]? with
    | some (some e) => e.blank
    | _ => false

/-- The terminals to which states belong, ascending. -/
def ownersOf (l : Lexicon) (states : Array Nat) : List Nat :=
  states.toList.foldr (fun s found =>
    let o := l.owners[s]?.getD 0
    if found.head? == some o then found else o :: found) []

/-- What reading one character leads to. -/
structure Move where
  targets : Array Nat
  /-- All edges taken belong to the white space before tokens. -/
  blank : Bool
  /-- The highest precedence among the terminals that go on. -/
  precedence : Int
deriving Inhabited

/-- The classes of characters that can be read in one of the states. -/
def readable (l : Lexicon) (states : Array Nat) : Nat :=
  states.foldl (fun mask s =>
    match l.edges[s]? with
    | some (some e) => mask ||| e.classes
    | _ => mask) 0

/-- What reading a character of class `k` leads to. White space has precedence zero. -/
def move (l : Lexicon) (states : Array Nat) (k : Nat) : Move :=
  let (targets, blank, precedence) := states.foldl
    (fun (state : Array Nat × Bool × Option Int) s =>
      match l.edges[s]? with
      | some (some e) =>
        if e.classes.testBit k then
          let (targets, blank, best) := state
          let p : Int :=
            if e.blank then 0 else (l.precedences[l.owners[s]?.getD 0]?).getD 0
          let best := match best with
            | some q => max q p
            | none => p
          (targets.push e.next, blank && e.blank, some best)
        else state
      | _ => state) (#[], true, none)
  { targets := normalize targets, blank, precedence := precedence.getD 0 }

/-- Whether terminal `a` wins over terminal `b` on the same text: by precedence, by rank, then by
order in the grammar. -/
def prefers (l : Lexicon) (a b : Nat) : Bool :=
  let p (t : Nat) : Int := l.precedences[t]?.getD 0
  let r (t : Nat) : Nat := l.ranks[t]?.getD 0
  if p a ≠ p b then p a > p b
  else if r a ≠ r b then r a > r b
  else a < b

/-- The winner among the terminals complete in `states`. -/
def winner? (l : Lexicon) (states : Array Nat) : Option Nat :=
  (l.completions states).foldl (fun best t =>
    match best with
    | some b => if l.prefers b t then some b else some t
    | none => some t) none

/-- Whether to go on with `m` although `complete` could end here. -/
def goesOn (l : Lexicon) (m : Move) (complete : Nat) (skipping : Bool) : Bool :=
  let p := l.precedences[complete]?.getD 0
  if m.precedence < p then false
  else if m.precedence = p then
    !m.blank && !(skipping && (l.ownersOf m.targets).any (· ≠ complete))
  else true

end Lexicon

end JavaAtlas.Grammar
