import ProofToolchain.Error

/-!
# Runs over a state

An engine keeps a state between calls, and what a call did to it stays done when the call fails.
A run is therefore a function of the state that always yields the next state, and beside it a
result or the reason why there is none (`Stop`).

Two ways of cleaning up keep every handle accounted for. `Run.thenAlways` runs an action and then
a second one, whatever came of the first. `Run.extracting` says of a failed reading which field
of which operation was read.
-/

namespace ProofToolchain

/-- **Why a run yields no result.** -/
inductive Stop where
  /-- The call failed with an error, which its caller receives. -/
  | failed (error : Error)
  /-- A callback broke off, and the caller is broken off in turn. -/
  | crashed
  /-- An import walk was led on without an end. -/
  | endless
  deriving DecidableEq, Repr

/-- Whether a stop breaks off the call, so that nothing is done any more. -/
def Stop.breaksOff : Stop → Bool
  | .failed _ => false
  | _ => true

/-- **What a task makes of a stop**: a task that is broken off reports that it did not complete. -/
def Stop.inTask : Stop → Stop
  | .crashed => .failed .unfinishedTask
  | stop => stop

/-- **A run** over a state. -/
abbrev Run (σ α : Type) := ExceptT Stop (StateM σ) α

namespace Run

variable {σ α : Type}

/-- The run that fails. -/
def fail (error : Error) : Run σ α := throw (.failed error)

/-- The run that yields a result or fails, as a computation without a state did. -/
def ofExcept : Except Error α → Run σ α
  | .ok a => pure a
  | .error e => fail e

/-- **One run and then another**, whatever came of the first. -/
def thenAlways (action : Run σ α) (cleanup : StateM σ Unit) : Run σ α :=
  ExceptT.mk do
    let outcome ← action.run
    cleanup
    return outcome

/-- **The reading of a field**: a failure says which field of which operation was read. -/
def extracting (operation field : String) (read : Run σ α) : Run σ α :=
  ExceptT.mk do
    match ← read.run with
    | .error (.failed e) => return .error (.failed (.extraction operation field e))
    | outcome => return outcome

end Run

/-- **A call that was watched**: what came of it, and everything it did to its callback before it
came to an end. -/
structure Watched (τ α : Type) where
  /-- The questions asked or the lines delivered, in order. -/
  trace : List τ
  /-- What came of the call. -/
  outcome : Except Stop α

/-- A run as a call that has no callback. -/
def Run.asCall {σ τ α : Type} (run : Run σ α) : StateM σ (Watched τ α) := do
  return ⟨[], ← run.run⟩

/-- A watched call as a task. -/
def Watched.inTask {τ α : Type} (call : Watched τ α) : Watched τ α :=
  { call with outcome := call.outcome.mapError Stop.inTask }

end ProofToolchain
