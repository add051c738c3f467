import JavaAtlas.Archive.Zstd.Basic

namespace JavaAtlas.Archive.Zstd

/-! # Codes with states

A code with states writes a symbol in a fraction of a bit. Every state stands for a symbol and
says how many bits lead to the next state. Which states stand for which symbols follows from how
often the symbols occur.
-/

/-- What a state stands for: its symbol, and the next state, which is that of `bits` more bits
counted from `base`. -/
structure Transition where
  symbol : Nat
  bits : Nat := 0
  base : Nat := 0
deriving DecidableEq, Inhabited, Repr

/-- A code with `2 ^ log` states. -/
structure StateCode where
  log : Nat
  states : Array Transition
deriving Inhabited, Repr

/-- The code that always means one symbol. -/
def StateCode.always (symbol : Nat) : StateCode := { log := 0, states := #[{ symbol }] }

/-! ## How often symbols occur -/

/-- How often symbols occur: how many states each of them has, or that it has the least share. -/
inductive Share where
  | rare
  | states (count : Nat)
deriving DecidableEq, Repr

/-- The number of states. -/
def Share.count : Share → Nat
  | .rare => 1
  | .states n => n

/-- The shares written by numbers; -1 means the least one. -/
def sharesOf (numbers : List Int) : List Share :=
  numbers.map fun n => if n < 0 then .rare else .states n.toNat

/-- Reads how many symbols with no state follow. -/
def emptyRun : Nat → BitReader Nat
  | 0 => throw .corrupt
  | fuel + 1 => do
    let n ← lowNumber 2
    if n = 3 then return 3 + (← emptyRun fuel) else return n

/-- Reads a share when `left` states are left to share out, one too many being counted. Small
numbers take a bit less than great ones. -/
def share (left : Nat) : BitReader Share := do
  let bits := left.log2
  let half := 1 <<< bits
  let few := 2 * half - 1 - left
  let low ← lowNumber bits
  let n ← if low < few then pure low
    else do
      let n := low + half * (← bit)
      pure (if n ≥ half then n - few else n)
  return if n = 0 then .rare else .states (n - 1)

/-- Reads the shares of at most `limit` symbols. -/
def sharesFrom (limit : Nat) : Nat → Nat → List Share → BitReader (List Share)
  | 0, _, _ => throw .corrupt
  | fuel + 1, left, found => do
    if left ≤ 1 ∨ found.length ≥ limit then
      if left = 1 ∧ found.length ≤ limit then return found else throw .corrupt
    else
      let s ← share left
      if s.count ≥ left then throw .corrupt
      else
        let found := found ++ [s]
        let left := left - s.count
        if s = .states 0 ∧ found.length < limit then
          let empty ← emptyRun ((← get).length + 1)
          sharesFrom limit fuel left (found ++ List.replicate empty (.states 0))
        else sharesFrom limit fuel left found

/-- Reads the number of states of a code and the shares of at most `limit` symbols. -/
def shares (limit : Nat) : BitReader (Nat × List Share) := do
  let log := 5 + (← lowNumber 4)
  if log > 15 then throw .corrupt
  else return (log, ← sharesFrom limit ((← get).length + 2) ((1 <<< log) + 1) [])

/-! ## States -/

/-- The symbols of the states. The rare symbols have the last states; the others are spread over
the states before by steps that reach every state once. -/
def stateSymbols (log : Nat) (shares : List Share) : Array Nat :=
  let size := 1 <<< log
  let rare := shares.zipIdx.filterMap fun (s, symbol) => if s = .rare then some symbol else none
  let often := shares.zipIdx.flatMap fun (s, symbol) =>
    match s with
    | .rare => []
    | .states n => List.replicate n symbol
  let step := size / 2 + size / 8 + 3
  let places := ((List.range size).map fun k => k * step % size).filter (· < size - rare.length)
  let spread := (places.zip often).foldl (fun (found : Array Nat) (place, symbol) =>
    found.setIfInBounds place symbol) (Array.replicate size 0)
  rare.zipIdx.foldl (fun found (symbol, i) => found.setIfInBounds (size - 1 - i) symbol) spread

/-- The code in which symbols have these shares. The states of one symbol lead together to every
state once. -/
def stateCode (log : Nat) (shares : List Share) : StateCode :=
  let size := 1 <<< log
  let states := (stateSymbols log shares).foldl
    (fun (s : Array Transition × Array Nat) symbol =>
      let next := s.2[symbol]?.getD 1
      let bits := log - next.log2
      (s.1.push { symbol, bits, base := (next <<< bits) - size },
        s.2.setIfInBounds symbol (next + 1)))
    (#[], (shares.map Share.count).toArray)
  { log, states := states.1 }

/-- Reads the state to start with. -/
def StateCode.start (code : StateCode) : BitReader Transition := do
  return code.states[← highNumber code.log]?.getD default

/-- Reads the state behind a state. -/
def StateCode.next (code : StateCode) (state : Transition) : BitReader Transition := do
  return code.states[state.base + (← highNumber state.bits)]?.getD default

/-- Reads a code of at most `limit` symbols and `2 ^ maxLog` states at the start of bytes, which
takes whole bytes, and gives the bytes behind it. -/
def readStateCode (limit maxLog : Nat) (bytes : List UInt8) :
    Except ZstdError (StateCode × List UInt8) := do
  let ((log, shares), rest) ← (shares limit).run (lowBitsFirst bytes)
  if log > maxLog then .error .corrupt
  else return (stateCode log shares, bytes.drop (bytes.length - rest.length / 8))

end JavaAtlas.Archive.Zstd
