import JavaAtlas.Grammar.Lexicon

namespace JavaAtlas.Grammar

/-! # Overlaps between tokens

Which tokens may be looked for at the same place depends on how their texts overlap. For each
ordered pair of terminals the overlap records what the first can do to the second; it is found
by running both through the lexicon side by side.
-/

/-- What one terminal can do to another. -/
structure Overlap where
  /-- It ends, and is preferred to the other, which could have gone on. -/
  stopsShort : Bool := false
  /-- It goes on, and is preferred to the other, which could have ended. -/
  runsOn : Bool := false
  /-- It does so with a character that could also begin what follows the other. -/
  runsOnValidly : Bool := false
  /-- It is complete where white space is skipped. -/
  takesBlanks : Bool := false
  /-- It wins on a text that both match. -/
  sameText : Bool := false
  /-- It matches a text that the other does not. -/
  otherText : Bool := false
deriving BEq, Inhabited, Repr

/-- What a pair of terminals can do to each other. -/
structure OverlapPair where
  first : Overlap := {}
  second : Overlap := {}
deriving Inhabited

/-- Changes the record of `who`, which is `i` or the other terminal. -/
def OverlapPair.update (p : OverlapPair) (i who : Nat) (f : Overlap → Overlap) : OverlapPair :=
  if who = i then { p with first := f p.first } else { p with second := f p.second }

/-- Notes for each terminal that is complete whether it takes white space, and which of two wins;
gives the winner. -/
def noteCompletions (l : Lexicon) (i : Nat) (skipping : Bool) (pair : OverlapPair) :
    Option Nat → List Nat → OverlapPair × Option Nat
  | best, [] => (pair, best)
  | best, t :: rest =>
    let pair := if skipping then pair.update i t fun o => { o with takesBlanks := true } else pair
    match best with
    | none => noteCompletions l i skipping pair (some t) rest
    | some b =>
      if t = b then noteCompletions l i skipping pair best rest
      else
        let winner := if l.prefers b t then b else t
        noteCompletions l i skipping
          (pair.update i winner fun o => { o with sameText := true }) (some winner) rest

/-- Notes what a character does when `complete` could end before it. -/
def noteMove (l : Lexicon) (follow : Array Nat) (i j : Nat) (skipping : Bool) (k : Nat)
    (m : Lexicon.Move) (complete : Nat) (pair : OverlapPair) : OverlapPair :=
  let owners := l.ownersOf m.targets
  if owners.contains complete then pair
  else match owners.getLast? with
    | none => pair
    | some other =>
      if l.goesOn m complete skipping then
        let behind := if other = i then j else i
        let valid := (follow[behind]?.getD 0).testBit k
        pair.update i other fun o =>
          { o with runsOn := true, runsOnValidly := o.runsOnValidly || valid }
      else pair.update i complete fun o => { o with stopsShort := true }

/-- How the terminals `i` and `j` overlap. `follow` has for each terminal the classes of
characters that may come after it. -/
def overlapOf (l : Lexicon) (follow : Array Nat) (i j : Nat) : OverlapPair :=
  let begin := Lexicon.normalize #[l.starts[i]?.getD 0, l.starts[j]?.getD 0]
  let step : List (Array Nat) × List (Array Nat) × OverlapPair →
      Option (List (Array Nat) × List (Array Nat) × OverlapPair)
    | ([], _, _) => none
    | (raw :: todo, seen, pair) =>
      match l.ownersOf raw with
      | [] => some (todo, seen, pair)
      | [only] => some (todo, seen, pair.update i only fun o => { o with otherText := true })
      | _ =>
        let states := l.closure raw
        let skipping := l.skipsBlanks states
        let (pair, complete) := noteCompletions l i skipping pair none (l.completions states)
        let (todo, seen, pair) :=
          (bitsOf (l.readable states) l.alphabet.size).foldl (fun (todo, seen, pair) k =>
            let m := l.move states k
            let pair := match complete with
              | some c => noteMove l follow i j skipping k m c pair
              | none => pair
            if seen.contains m.targets then (todo, seen, pair)
            else (m.targets :: todo, m.targets :: seen, pair)) (todo, seen, pair)
        some (todo, seen, pair)
  (iterate step (4 * l.edges.size) ([begin], [], {})).2.2

/-- The overlaps of all pairs of terminals. -/
structure Overlaps where
  table : Array (Array Overlap)
deriving Inhabited

namespace Overlaps

/-- Computes the overlaps; `follow` has for each terminal the terminals that may follow it, as a
bit mask. -/
def compute (l : Lexicon) (follow : Array Nat) : Overlaps :=
  let n := l.starts.size
  let firstChars := l.starts.map fun s => l.readable (l.closure #[s])
  let followChars := follow.map fun mask =>
    (bitsOf mask n).foldl (fun chars t => chars ||| (firstChars[t]?.getD 0)) 0
  let empty : Array (Array Overlap) := Array.replicate n (Array.replicate n {})
  ⟨(List.range n).foldl (fun table i =>
    (List.range i).foldl (fun table j =>
      let pair := overlapOf l followChars i j
      let table := table.modify i (·.setIfInBounds j pair.first)
      table.modify j (·.setIfInBounds i pair.second)) table) empty⟩

/-- What terminal `i` can do to terminal `j`. -/
def get (o : Overlaps) (i j : Nat) : Overlap :=
  ((o.table[i]?).bind (·[j]?)).getD {}

/-- Whether looking for `i` can spoil finding `j`. -/
def conflict (o : Overlaps) (i j : Nat) : Bool :=
  let e := o.get i j
  e.runsOnValidly || e.takesBlanks || e.sameText

/-- Whether `i` can take more or less text than `j` where `j` stands. -/
def longerOrShorter (o : Overlaps) (i j : Nat) : Bool :=
  let e := o.get i j
  (e.runsOnValidly || e.takesBlanks) && !(o.get j i).takesBlanks

/-- Whether `i` overlaps `j` in any way. -/
def overlap (o : Overlaps) (i j : Nat) : Bool :=
  let e := o.get i j
  e.takesBlanks || e.stopsShort || e.sameText || e.runsOn

end Overlaps

end JavaAtlas.Grammar
