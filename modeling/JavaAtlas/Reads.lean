import JavaAtlas.Failure

namespace JavaAtlas

/-! # Nested reads

A thread reads projects through coordinators. A read that is asked for inside another one of the
same coordinator does not begin anew: it shows what the outer one shows, whatever has become of
the project in between.
-/

/-- What a thread knows: the project that each coordinator has open, and the reads that are going
on, innermost first, each with its coordinator. -/
structure Reads (π τ : Type) where
  project : Nat → Option π
  active : List (Nat × τ) := []

namespace Reads

variable {π τ : Type} {m : Type → Type} {α : Type}

/-- Opens a project in place of the one that a coordinator had open. -/
def openProject (r : Reads π τ) (coordinator : Nat) (p : π) : Reads π τ :=
  { r with project := fun c => if c = coordinator then some p else r.project c }

/-- Closes the project of a coordinator. -/
def closeProject (r : Reads π τ) (coordinator : Nat) : Reads π τ :=
  { r with project := fun c => if c = coordinator then none else r.project c }

/-- The innermost read of a coordinator that is going on. -/
def active? (r : Reads π τ) (coordinator : Nat) : Option τ := r.active.lookup coordinator

/-- The reads with one more inside. -/
def enter (r : Reads π τ) (coordinator : Nat) (view : τ) : Reads π τ :=
  { r with active := (coordinator, view) :: r.active }

/-- The reads without the innermost one. -/
def leave (r : Reads π τ) : Reads π τ := { r with active := r.active.tail }

/-- Reads through a coordinator, given how a read of a project begins. -/
def read [Monad m] (start : π → m (Except Failure τ)) (coordinator : Nat)
    (body : τ → StateT (Reads π τ) m α) : StateT (Reads π τ) m (Except QueryError α) := do
  let reads ← get
  match reads.project coordinator, reads.active? coordinator with
  | none, _ => return .error .noProjectOpen
  | some _, some view => return .ok (← body view)
  | some p, none =>
    match ← start p with
    | .error e => return .error (.internal e)
    | .ok view =>
      modify (·.enter coordinator view)
      let result ← body view
      modify leave
      return .ok result

end Reads

end JavaAtlas
