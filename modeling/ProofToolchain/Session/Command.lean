import ProofToolchain.Argument.Basic
import ProofToolchain.Artifact
import ProofToolchain.Options.Request

/-!
# Commands of a session

A command asks something of a provider or of a handle. Operations of a provider are reached on one
of three routes (`Route`): through the provider, with other options in place of the provider's, or
as a task, where a callback that breaks off is an error and not the end of everything. Handles are
opened with a call of the engine itself, kept in named slots, and read and released from there.
-/

namespace ProofToolchain

/-- **How a command reaches an operation.** -/
inductive Route where
  /-- Through the provider. -/
  | provider
  /-- With these options in place of the provider's; none given means none bound for a
  compilation, and the provider's own for anything else. -/
  | direct (options : Option ProviderOptions)
  /-- Through the provider, as a task. -/
  | task
  deriving DecidableEq, Repr

/-- The options that are bound for a compilation. -/
def Route.bound (r : Route) (options : ProviderOptions) : Option ProviderOptions :=
  match r with
  | .direct given => given
  | _ => some options

/-- The options that any other operation uses. -/
def Route.options (r : Route) (options : ProviderOptions) : ProviderOptions :=
  (r.bound options).getD options

/-- **The operations of a provider.** -/
inductive Operation where
  /-- Compiles a source. -/
  | compile (source : String) (options : CompileOptions)
  /-- Computes a witness. -/
  | computeWitness (input : ProgramInput) (args : Argument) (options : WitnessOptions)
  /-- Makes the keys of one program. -/
  | setup (program : Bytes) (entropy : Option Bytes)
  /-- Makes a structured reference string. -/
  | universalSetup (size : UInt32) (entropy : Option Bytes)
  /-- Makes the keys of one program from a structured reference string. -/
  | setupFromReference (reference program : Bytes)
  /-- Makes a proof. -/
  | generateProof (program witness provingKey : Bytes) (entropy : Option Bytes)
  /-- Checks a proof. -/
  | verify (verificationKey proof : Bytes)
  /-- Writes a verifier contract. -/
  | exportVerifier (verificationKey : Bytes)
  /-- Restructures a proof for display. -/
  | formatProof (proof : Bytes)

/-- **A call of the engine that opens a handle.** -/
inductive Opening where
  /-- A compilation. -/
  | compile (source : String) (options : CompileOptions)
  /-- A witness computation, its arguments encoded already. -/
  | computeWitness (input : ProgramInput) (args : String) (options : WitnessOptions)

/-- **The fields of handles.** -/
inductive Field where
  /-- The program of a compilation. -/
  | program
  /-- The interface of a compilation. -/
  | abi
  /-- The program of a compilation in the form `snarkjs` reads. -/
  | snarkjsProgram
  /-- The witness of a computation. -/
  | witness
  /-- The output of a computation. -/
  | output
  /-- The witness of a computation in the form `snarkjs` reads. -/
  | snarkjsWitness
  deriving DecidableEq, Repr

/-- What a field is called. -/
def Field.name : Field → String
  | .program => "program"
  | .abi => "abi"
  | .snarkjsProgram => "snarkjs_program"
  | .witness => "witness"
  | .output => "output"
  | .snarkjsWitness => "snarkjs_witness"

/-- **A command of a session.** -/
inductive Command where
  /-- Asks what the engine is called. -/
  | name
  /-- Asks for the options of a provider. -/
  | options (on : Nat)
  /-- Derives a provider with the same options. -/
  | clone (on : Nat)
  /-- Derives a provider with other options. -/
  | rebind (on : Nat) (options : ProviderOptions)
  /-- Runs an operation of a provider. -/
  | perform (on : Nat) (route : Route) (operation : Operation)
  /-- Opens a handle and keeps it in a slot. -/
  | hold (on : Nat) (slot : String) (scope : Option String) (opening : Opening)
  /-- Reads a field of the handle in a slot. -/
  | read (slot : String) (field : Field)
  /-- Releases the handle in a slot. -/
  | release (slot : String)
  /-- Empties a slot. -/
  | drop (slot : String)

end ProofToolchain
