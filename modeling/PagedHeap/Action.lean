import PagedHeap.Error

/-!
# Actions on a state

Every operation that reads or changes stored data is an action: it gets the state, changes it and
either has an answer or fails. What it changed before it failed stays changed, so that what a failed
operation leaves behind is part of its meaning.
-/

namespace PagedHeap

/-- A computation on a state that may fail and then keeps what it changed. -/
abbrev Action (σ : Type) := EStateM Failure σ

namespace Action

variable {σ τ α : Type}

/-- The operation is refused. -/
def refuse (cause : StorageError) : Action σ α := throw (.error cause)

/-- The computation stops. -/
def stop (cause : Trap) : Action σ α := throw (.trap cause)

/-- The result of a computation without state. -/
def ofResult : Result α → Action σ α
  | .ok a => pure a
  | .error e => throw e

/-- Turns a refusal into an answer. A trap stays a trap. -/
def attempt (action : Action σ α) : Action σ (Except StorageError α) := fun s =>
  match action s with
  | .ok a s => .ok (.ok a) s
  | .error (.error e) s => .ok (.error e) s
  | .error (.trap t) s => .error (.trap t) s

/-- Runs an action for what it does; a refusal is not noticed. -/
def quietly (action : Action σ Unit) : Action σ Unit := do
  let _ ← attempt action

/-- Runs both actions, the second also if the first is refused. The first refusal counts. -/
def thenAlways (first second : Action σ Unit) : Action σ Unit := do
  match ← attempt first with
  | .ok () => second
  | .error e =>
    quietly second
    refuse e

/-- If the action is refused, cleans up before the refusal is passed on. -/
def orClean (action : Action σ α) (clean : Action σ Unit) : Action σ α := do
  match ← attempt action with
  | .ok a => pure a
  | .error e =>
    quietly clean
    refuse e

/-- Runs an action on a part of the state. -/
def onPart (get : σ → τ) (set : τ → σ → σ) (action : Action τ α) : Action σ α := fun s =>
  match action (get s) with
  | .ok a t => .ok a (set t s)
  | .error e t => .error e (set t s)

end Action

end PagedHeap
