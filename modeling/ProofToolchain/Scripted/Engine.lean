import ProofToolchain.Engine
import ProofToolchain.Scripted.Ledger

/-!
# The scripted engine

The scripted engine answers from a script and keeps a record of everything it was asked, so that
what a caller does can be looked at afterwards. Its results are the blobs the script names. It
walks the imports of a root as a compiler would, refuses what no engine supports, and can be told
to fail at any one place: at the end of a compilation, at the end of a witness computation, or at
the reading of one field.

Its handles are numbers in a ledger (`Ledger`), and they are as forgiving as a handle can be:
reading or releasing one too often is noted and not refused.
-/

namespace ProofToolchain.Scripted

/-- **What the engine answers.** By default it stands for a program that returns one. -/
structure Script where
  /-- The program of every compilation. -/
  program : Bytes := Text.Utf8.encode "mock-program"
  /-- The interface of that program. -/
  abi : Abi := ⟨[], some .field⟩
  /-- The program in the form `snarkjs` reads. -/
  snarkjsProgram : Bytes := Text.Utf8.encode "mock-r1cs"
  /-- The witness of every computation. -/
  witness : Bytes := Text.Utf8.encode "~out_0 1\n~one 1\n"
  /-- The output of every computation. -/
  output : Json := .string "1"
  /-- The witness in the form `snarkjs` reads. -/
  snarkjsWitness : Bytes := Text.Utf8.encode "mock-wtns"
  /-- What the program logs. -/
  logLines : List String := []
  /-- The keys of every setup. -/
  keypair : Keypair := ⟨Text.Utf8.encode "mock-vk", Text.Utf8.encode "mock-pk"⟩
  /-- The structured reference string. -/
  reference : Bytes := Text.Utf8.encode "mock-srs"
  /-- The proof. -/
  proof : Bytes := Text.Utf8.encode "mock-proof"
  /-- The verifier contract. -/
  verifier : String := "contract Verifier \x7b\x7d"
  /-- Whether compilations fail once their imports are resolved. -/
  compileFails : Bool := false
  /-- Whether witness computations fail once their lines are logged. -/
  witnessFails : Bool := false
  /-- The field that cannot be read. -/
  brokenField : Option String := none
  /-- Whether compilations carry on after the resolver has raised a failure. -/
  swallowsFailures : Bool := false

/-- A compilation that was asked for. -/
structure CompileCall where
  /-- The root source. -/
  root : SourceUnit
  /-- The flags. -/
  flags : Flags
  /-- The curve. -/
  curve : Curve
  /-- What the resolver was asked, in order. -/
  queries : List Query

/-- A witness computation that was asked for. -/
structure WitnessCall where
  /-- The program and its interface. -/
  input : ProgramInput
  /-- The encoded arguments. -/
  args : String
  /-- Whether a witness in the form `snarkjs` reads was wanted too. -/
  snarkjs : Bool

/-- **Everything the engine was asked for**, each list in order. -/
structure Calls where
  /-- The compilations whose walk came to an end, in success or failure. -/
  compile : List CompileCall := []
  /-- The witness computations. -/
  computeWitness : List WitnessCall := []
  /-- The options of other operations, with the name of each. -/
  options : List (String × ProviderOptions) := []
  /-- The universal setups. -/
  universalSetup : List (Curve × UInt32) := []
  /-- The entropy given to setups and proofs. -/
  entropy : List (Option Bytes) := []

/-- **The state of the engine.** -/
structure State where
  /-- The handles. -/
  ledger : Ledger := {}
  /-- The calls. -/
  calls : Calls := {}

/-- **A handle** is the number of its record. -/
structure Handle where
  /-- The number. -/
  number : Nat
  deriving DecidableEq, Repr

/-! ## What is recorded -/

/-- A handle is issued. -/
def issue (kind : String) : StateM State Handle :=
  modifyGet fun s => (⟨s.ledger.issued⟩, { s with ledger := s.ledger.issue kind })

/-- A release is noted. -/
def release (h : Handle) : StateM State Handle :=
  modifyGet fun s => (h, { s with ledger := s.ledger.noteRelease h.number })

/-- A reading is noted. -/
def noteExtraction (h : Handle) (field : String) : StateM State Unit :=
  modify fun s => { s with ledger := s.ledger.noteExtraction h.number field }

/-- Something is added to the calls. -/
def recordCall (add : Calls → Calls) : StateM State Unit :=
  modify fun s => { s with calls := add s.calls }

/-- The options of an operation are added to the calls. -/
def recordOptions (entry : String) (options : ProviderOptions) : StateM State Unit :=
  recordCall fun c => { c with options := c.options ++ [(entry, options)] }

/-- The entropy of an operation is added to the calls. -/
def recordEntropy (entropy : Option Bytes) : StateM State Unit :=
  recordCall fun c => { c with entropy := c.entropy ++ [entropy] }

/-! ## What is refused -/

/-- **Which backend supports which scheme.** -/
def supports : Backend → Scheme → Bool
  | .ark, _ => true
  | .bellman, scheme => scheme == .g16

/-- The run that goes on if a backend supports a scheme. -/
def requireSupport (stage : Stage) (options : ProviderOptions) : Run State Unit :=
  if supports options.backend options.scheme then pure ()
  else Run.fail (.stage stage ("backend `" ++ options.backend.name
    ++ "` does not support scheme `" ++ options.scheme.name ++ "`"))

/-- The run that goes on if a condition holds. -/
def require (condition : Bool) (error : Error) : Run State Unit :=
  if condition then pure () else Run.fail error

namespace Script

/-- A field of a handle is read, which is noted even if it cannot be. -/
def read {α : Type} (script : Script) (operation field : String) (value : α) (h : Handle) :
    Run State α := do
  noteExtraction h field
  if script.brokenField = some field then
    Run.fail (.resource operation ("`" ++ field ++ "` unavailable"))
  else
    return value

/-- What the walk along imports passes over. -/
def tolerance (script : Script) : Tolerance := ⟨false, script.swallowsFailures⟩

/-- **Walks the imports and issues a handle.** The call is recorded at the end of the walk, unless
that was broken off. -/
def compile (script : Script) (root : SourceUnit) (resolver : Resolver) (flags : Flags)
    (curve : Curve) : StateM State (Watched Query Handle) := do
  let walk := resolver.walk script.tolerance root
  let call : CompileCall := ⟨root, flags, curve, walk.queries⟩
  let record := recordCall fun c => { c with compile := c.compile ++ [call] }
  match walk.sources with
  | .error stop =>
    unless stop.breaksOff do record
    return ⟨walk.queries, .error stop⟩
  | .ok _ =>
    record
    if script.compileFails then
      let error : Error := .stage .compile (root.location ++ ": scripted failure")
      return ⟨walk.queries, .error (.failed error)⟩
    else
      return ⟨walk.queries, .ok (← issue compileOperation)⟩

/-- **Logs the lines of the script and issues a handle.** -/
def computeWitness (script : Script) (input : ProgramInput) (args : String) (snarkjs : Bool)
    (listener : Listener State) : StateM State (Watched String Handle) := do
  recordCall fun c => { c with computeWitness := c.computeWitness ++ [⟨input, args, snarkjs⟩] }
  let (delivered, complete) ← listener.deliver [] script.logLines
  if !complete then
    return ⟨delivered, .error .crashed⟩
  else if script.witnessFails then
    return ⟨delivered, .error (.failed (.stage .witness "scripted failure"))⟩
  else
    return ⟨delivered, .ok (← issue witnessOperation)⟩

/-- Yields the keys of the script. -/
def setup (script : Script) (entropy : Option Bytes) (options : ProviderOptions) :
    Run State Keypair := do
  recordOptions "setup" options
  recordEntropy entropy
  requireSupport .setup options
  return script.keypair

/-- Yields the reference string of the script. -/
def universalSetup (script : Script) (curve : Curve) (size : UInt32) (entropy : Option Bytes) :
    Run State Bytes := do
  recordCall fun c => { c with universalSetup := c.universalSetup ++ [(curve, size)] }
  recordEntropy entropy
  return script.reference

/-- Yields the keys of the script for its reference string. -/
def setupFromReference (script : Script) (reference : Bytes) (options : ProviderOptions) :
    Run State Keypair := do
  recordOptions "setup_with_srs" options
  requireSupport .setup options
  require (reference == script.reference) (.stage .setup "srs does not match")
  return script.keypair

/-- Yields the proof of the script for its proving key and its witness. -/
def generateProof (script : Script) (witness provingKey : Bytes) (entropy : Option Bytes)
    (options : ProviderOptions) : Run State Bytes := do
  recordOptions "generate_proof" options
  recordEntropy entropy
  require (provingKey == script.keypair.provingKey)
    (.stage .proof "proving key does not match program")
  require (witness == script.witness) (.stage .proof "witness does not match program")
  return script.proof

/-- Accepts the proof of the script under its verification key, and nothing else. -/
def verify (script : Script) (verificationKey proof : Bytes) (options : ProviderOptions) :
    Run State Bool := do
  recordOptions "verify" options
  requireSupport .verify options
  return verificationKey == script.keypair.verificationKey && proof == script.proof

/-- Yields the contract of the script for any verification key there is. -/
def exportVerifier (script : Script) (verificationKey : Bytes) : Run State String := do
  require (!verificationKey.isEmpty) (.stage .exporting "empty verification key")
  return script.verifier

/-- Shows a proof as its bytes and their number. -/
def formatProof (proof : Bytes) : Json :=
  .object [("len", .ofNat proof.length), ("proof", .ofBytes proof)]

/-- **The engine of a script.** Throwing a handle away is not releasing it. -/
def engine (script : Script) : Engine State Handle Handle where
  name := "mock"
  compile := script.compile
  computeWitness := script.computeWitness
  setup _ := script.setup
  universalSetup := script.universalSetup
  setupFromReference reference _ := script.setupFromReference reference
  generateProof _ := script.generateProof
  verify := script.verify
  exportVerifier := script.exportVerifier
  formatProof proof := return formatProof proof
  compiled := {
    release
    discard := fun _ => pure ()
    program := script.read compileOperation "program" script.program
    abi := script.read compileOperation "abi" script.abi
    snarkjsProgram := script.read compileOperation "snarkjs_program" script.snarkjsProgram }
  computed := {
    release
    discard := fun _ => pure ()
    witness := script.read witnessOperation "witness" script.witness
    output := script.read witnessOperation "output" script.output
    snarkjsWitness := script.read witnessOperation "snarkjs_witness" script.snarkjsWitness }

end Script

end ProofToolchain.Scripted
