import ProofToolchain.Pipeline

/-!
# Providers

A provider is an engine together with the backend, the scheme and the curve that its operations
use. Binding other options gives another provider on the same engine. A compilation may name a
curve for itself, which then counts before the bound one.
-/

namespace ProofToolchain

/-- **An engine with bound options.** -/
structure Provider (σ κ ω : Type) where
  /-- The engine. -/
  engine : Engine σ κ ω
  /-- The bound options. -/
  options : ProviderOptions := {}

namespace Provider

variable {σ κ ω : Type}

/-- The provider with other options on the same engine. -/
def withOptions (p : Provider σ κ ω) (options : ProviderOptions) : Provider σ κ ω :=
  { p with options }

/-- Compiles a source, on the bound curve unless the call names another. -/
def compile (p : Provider σ κ ω) (source : String) (options : CompileOptions) :
    Run σ CompileArtifact :=
  p.engine.compileProgram source options (some p.options)

/-- Computes a witness. -/
def computeWitness (p : Provider σ κ ω) (input : ProgramInput) (args : Argument)
    (options : WitnessOptions) : StateM σ (Watched String WitnessResult) :=
  p.engine.runProgram input args options

/-- Makes the keys of one program. -/
def setup (p : Provider σ κ ω) (program : Bytes) (entropy : Option Bytes) : Run σ Keypair :=
  p.engine.setup program entropy p.options

/-- Makes a structured reference string on the bound curve. -/
def universalSetup (p : Provider σ κ ω) (size : UInt32) (entropy : Option Bytes) : Run σ Bytes :=
  p.engine.universalSetup p.options.curve size entropy

/-- Makes the keys of one program from a structured reference string. -/
def setupFromReference (p : Provider σ κ ω) (reference program : Bytes) : Run σ Keypair :=
  p.engine.setupFromReference reference program p.options

/-- Makes a proof. -/
def generateProof (p : Provider σ κ ω) (program witness provingKey : Bytes)
    (entropy : Option Bytes) : Run σ Bytes :=
  p.engine.generateProof program witness provingKey entropy p.options

/-- Checks a proof. -/
def verify (p : Provider σ κ ω) (verificationKey proof : Bytes) : Run σ Bool :=
  p.engine.verify verificationKey proof p.options

/-- Writes a contract that verifies proofs. -/
def exportVerifier (p : Provider σ κ ω) (verificationKey : Bytes) : Run σ String :=
  p.engine.exportVerifier verificationKey

/-- Restructures a proof for display. -/
def formatProof (p : Provider σ κ ω) (proof : Bytes) : Run σ Json :=
  p.engine.formatProof proof

end Provider

end ProofToolchain
