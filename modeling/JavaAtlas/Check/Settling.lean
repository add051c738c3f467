import JavaAtlas.Model.Kinds

namespace JavaAtlas

/-! # When diagnostics have settled

Diagnostics are looked at again and again while an analysis runs. They have settled as soon as
three readings in a row have the same number of them; looks that read nothing neither count nor
interrupt the row.
-/

/-- What one look at the diagnostics of a file finds. -/
inductive Look where
  /-- The index is being built. -/
  | building
  /-- The file has an edit that is not in the index yet. -/
  | uncommitted
  /-- The diagnostics cannot be read. -/
  | unreadable
  | reading (count : Nat)
deriving DecidableEq, Inhabited, Repr

/-- The readings so far: how many there were, the last one, and how many before it in a row were
equal to it. -/
structure Readings where
  total : Nat := 0
  last : Option Nat := none
  streak : Nat := 0
deriving DecidableEq, Inhabited, Repr

namespace Readings

/-- How many readings before the last one have to be equal to it. -/
def neededStreak : Nat := 2

/-- Takes in one more reading. -/
def observe (r : Readings) (count : Nat) : Readings :=
  { total := r.total + 1
    last := some count
    streak := if r.last = some count then r.streak + 1 else 0 }

/-- Takes in what a look found. -/
def take (r : Readings) : Look → Readings
  | .reading count => r.observe count
  | .building | .uncommitted | .unreadable => r

/-- Whether the readings have settled. -/
def settled (r : Readings) : Bool := neededStreak ≤ r.streak

end Readings

/-- Looks at the diagnostics until they have settled, at most so many times. -/
def lookUntilSettled {σ : Type} (look : StateM σ Look) : Nat → Readings → StateM σ (CheckState × Nat)
  | 0, r => return (.timedOut, r.total)
  | rounds + 1, r => do
    let r := r.take (← look)
    if r.settled then return (.stable, r.total) else lookUntilSettled look rounds r

/-- How many looks fit in a time, if there is a pause after each of them. -/
def roundsIn (timeout pause : Nat) : Nat := (timeout + pause - 1) / pause

end JavaAtlas
