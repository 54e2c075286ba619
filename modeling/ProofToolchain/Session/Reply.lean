import ProofToolchain.Artifact
import ProofToolchain.Options.Choice
import ProofToolchain.Run

/-!
# Replies of a session

A command yields a reply or is refused. Beside that a report tells which log lines were delivered
meanwhile, which a command that is refused may have done too.
-/

namespace ProofToolchain

/-- **What a command yields.** -/
inductive Reply where
  /-- Nothing but that it was done. -/
  | done
  /-- A text. -/
  | text (value : String)
  /-- A truth value. -/
  | verdict (value : Bool)
  /-- A blob. -/
  | blob (value : Bytes)
  /-- A JSON value. -/
  | json (value : Json)
  /-- An interface. -/
  | abi (value : Abi)
  /-- The options of a provider. -/
  | options (value : ProviderOptions)
  /-- The number of a new provider. -/
  | provider (number : Nat)
  /-- What a compilation yields. -/
  | artifact (value : CompileArtifact)
  /-- What a witness computation yields. -/
  | witness (value : WitnessResult)
  /-- The keys of a setup. -/
  | keypair (value : Keypair)

/-- **Why a command yields nothing.** -/
inductive Refusal where
  /-- The operation came to no result. -/
  | stopped (stop : Stop)
  /-- The slot holds no handle. -/
  | emptySlot
  /-- There is no such provider. -/
  | noProvider
  /-- The handle has no such field. -/
  | noField
  deriving DecidableEq, Repr

/-- **What came of a command.** -/
structure Report where
  /-- What it yields. -/
  outcome : Except Refusal Reply
  /-- The log lines that were delivered, in order. -/
  logged : List String := []

/-- The report on a watched call. -/
def Report.ofCall (call : Watched String Reply) : Report :=
  ⟨call.outcome.mapError .stopped, call.trace⟩

end ProofToolchain
