import ProofToolchain.Artifact
import ProofToolchain.Import.Walk
import ProofToolchain.Options.Request
import ProofToolchain.Run

/-!
# Engines

An engine is whatever compiles programs, computes witnesses and makes and checks proofs. It is
given by its entry points, each a run over the engine's own state.

`compile` and `computeWitness` do not return their results but a handle to them. The engine holds
the results until the handle is released, which is to happen once. The fields of a handle may be
read any number of times before that. Both entry points take a callback, so they say what they
did with it beside what came of them (`Watched`): which questions a resolver was asked, and which
lines a listener accepted.
-/

namespace ProofToolchain

/-! ## Operations in errors -/

/-- What errors call the operation that compiles. -/
def compileOperation : String := "compile"

/-- What errors call the operation that computes a witness. -/
def witnessOperation : String := "compute_witness"

/-- The error of a compilation whose resolver raised a failure. -/
def resolverError (failure : Failure) : Error :=
  .callback compileOperation "resolver" failure

/-- **What an obstacle on an import walk makes of a compilation.** -/
def Obstacle.stop : Obstacle → Stop
  | .absent q => .failed (.stage .compile (q.current ++ ": import not found: " ++ q.path))
  | .raised failure => .failed (resolverError failure)
  | .crashed => .crashed
  | .endless => .endless

/-- The sources that a compilation's walk entered. -/
def Walk.sources (w : Walk) : Except Stop (List SourceUnit) :=
  w.outcome.mapError Obstacle.stop

/-! ## The interface -/

/-- **How handles end.** -/
structure HandleOps (σ κ : Type) where
  /-- The results are given up, and the handle is left without them. -/
  release : κ → StateM σ κ
  /-- The handle itself is thrown away, released or not. -/
  discard : κ → StateM σ Unit

/-- **How the handle of a compilation is read.** -/
structure CompileHandleOps (σ κ : Type) extends HandleOps σ κ where
  /-- The program. -/
  program : κ → Run σ Bytes
  /-- The interface of the program. -/
  abi : κ → Run σ Abi
  /-- The program in the form `snarkjs` reads, if it was asked for. -/
  snarkjsProgram : κ → Run σ Bytes

/-- **How the handle of a witness computation is read.** -/
structure WitnessHandleOps (σ ω : Type) extends HandleOps σ ω where
  /-- The witness. -/
  witness : ω → Run σ Bytes
  /-- The program's public output. -/
  output : ω → Run σ Json
  /-- The witness in the form `snarkjs` reads, if it was asked for. -/
  snarkjsWitness : ω → Run σ Bytes

/-- **An engine** with states `σ`, handles `κ` of compilations and handles `ω` of witness
computations. -/
structure Engine (σ κ ω : Type) where
  /-- What the engine is called. -/
  name : String
  /-- Compiles a root source, its imports being looked up with a resolver. -/
  compile : (root : SourceUnit) → Resolver → Flags → Curve → StateM σ (Watched Query κ)
  /-- Computes a witness for encoded arguments. -/
  computeWitness : ProgramInput → (args : String) → (snarkjs : Bool) → Listener σ →
    StateM σ (Watched String ω)
  /-- Makes the keys of one program. -/
  setup : (program : Bytes) → (entropy : Option Bytes) → ProviderOptions → Run σ Keypair
  /-- Makes a structured reference string for circuits of up to two to the `size` constraints. -/
  universalSetup : Curve → (size : UInt32) → (entropy : Option Bytes) → Run σ Bytes
  /-- Makes the keys of one program from a structured reference string. -/
  setupFromReference : (reference program : Bytes) → ProviderOptions → Run σ Keypair
  /-- Makes a proof. -/
  generateProof : (program witness provingKey : Bytes) → (entropy : Option Bytes) →
    ProviderOptions → Run σ Bytes
  /-- Checks a proof. That it is rejected is a result; a failure means it was not checked. -/
  verify : (verificationKey proof : Bytes) → ProviderOptions → Run σ Bool
  /-- Writes a contract that verifies proofs. -/
  exportVerifier : (verificationKey : Bytes) → Run σ String
  /-- Restructures a proof for display. -/
  formatProof : (proof : Bytes) → Run σ Json
  /-- How the handles of compilations are used. -/
  compiled : CompileHandleOps σ κ
  /-- How the handles of witness computations are used. -/
  computed : WitnessHandleOps σ ω

end ProofToolchain
