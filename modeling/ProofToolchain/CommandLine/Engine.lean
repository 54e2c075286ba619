import ProofToolchain.CommandLine.Answers
import ProofToolchain.CommandLine.Handle
import ProofToolchain.CommandLine.Installation
import ProofToolchain.CommandLine.Sources

/-!
# The engine that drives the proof tool

Each operation writes its inputs to a new scratch directory, runs the tool there once, and reads
what the tool left. The directory is removed when the operation is over, except that the handle of
a compilation or a witness computation keeps it until it is released or thrown away.

A rejected proof may make the tool fail, so the words of `verify` decide and not its success. Only
words that decide nothing are a failure.
-/

namespace ProofToolchain.CommandLine

namespace Installation

variable (tool : Installation) (host : Host)

/-- **Compiles the sources** that were written to a directory, the root among them. -/
def compileIn (number : Nat) (written : Except Stop String) (flags : Flags) (curve : Curve) :
    Run Workshop CompileHandle := do
  let stem ← (ExceptT.mk (pure written) : Run Workshop String)
  let root := host.scratchPath number ++ "/" ++ SourceTree.withExtension stem
  let _ ← tool.run host number .compile (compileArgs root flags curve tool.stdlib)
  return ⟨.new compileOperation number, flags.isEnabled Flags.snarkjsFlag⟩

/-- **Compiles a root source** with everything it imports. -/
def compile (root : SourceUnit) (resolver : Resolver) (flags : Flags) (curve : Curve) :
    StateM Workshop (Watched Query CompileHandle) :=
  Workshop.handingOn host fun number => do
    let (written, writing) := (SourceTree.writeRoot host resolver root).run {}
    modify (·.withFiles number (Entries.setAll · writing.saved))
    return ⟨writing.asked, ← (tool.compileIn host number written flags curve).run⟩

/-- The files that a witness computation starts with. -/
def inputFiles (input : ProgramInput) : List (String × Bytes) :=
  (programFile, input.program)
    :: (input.abi.map fun abi => (abiFile, Text.Utf8.encode abi.text)).toList

/-- **Computes a witness** in a directory, and yields what the tool printed. -/
def computeIn (number : Nat) (input : ProgramInput) (args : String) (snarkjs : Bool) :
    Run Workshop String := do
  Workshop.writeAll host number (inputFiles input)
  let (cliArgs, fed) ← Run.ofExcept (witnessArgs input.abi args snarkjs)
  tool.run host number .witness cliArgs fed

/-- **Computes a witness** and hands the lines that the program logged to a listener. -/
def computeWitness (input : ProgramInput) (args : String) (snarkjs : Bool)
    (listener : Listener Workshop) : StateM Workshop (Watched String WitnessHandle) :=
  Workshop.handingOn host fun number => do
    match ← (tool.computeIn host number input args snarkjs).run with
    | .error stop => return ⟨[], .error stop⟩
    | .ok stdout =>
      let (delivered, complete) ← listener.deliver [] (loggedLines stdout)
      if complete then
        return ⟨delivered, .ok ⟨.new witnessOperation number, input.abi, snarkjs⟩⟩
      else
        return ⟨delivered, .error .crashed⟩

/-- The keys that the tool left in a directory. -/
def readKeypair (number : Nat) : Run Workshop Keypair := do
  let verificationKey ← Workshop.read host number verificationKeyFile
  let provingKey ← Workshop.read host number provingKeyFile
  return ⟨verificationKey, provingKey⟩

/-- Makes the keys of one program. -/
def setup (program : Bytes) (entropy : Option Bytes) (options : ProviderOptions) :
    Run Workshop Keypair :=
  Workshop.within host fun number => do
    Workshop.writeAll host number [(programFile, program)]
    let _ ← tool.run host number .setup (setupArgs options ++ entropyArgs entropy)
    readKeypair host number

/-- Makes a structured reference string. -/
def universalSetup (curve : Curve) (size : UInt32) (entropy : Option Bytes) :
    Run Workshop Bytes :=
  Workshop.within host fun number => do
    let _ ← tool.run host number .setup (universalSetupArgs curve size ++ entropyArgs entropy)
    Workshop.read host number referenceStringFile

/-- Makes the keys of one program from a structured reference string. -/
def setupFromReference (reference program : Bytes) (options : ProviderOptions) :
    Run Workshop Keypair :=
  Workshop.within host fun number => do
    Workshop.writeAll host number [(programFile, program), (referenceStringFile, reference)]
    let _ ← tool.run host number .setup (setupFromReferenceArgs options)
    readKeypair host number

/-- Makes a proof. -/
def generateProof (program witness provingKey : Bytes) (entropy : Option Bytes)
    (options : ProviderOptions) : Run Workshop Bytes :=
  Workshop.within host fun number => do
    Workshop.writeAll host number
      [(programFile, program), (witnessFile, witness), (provingKeyFile, provingKey)]
    let _ ← tool.run host number .proof (generateProofArgs options ++ entropyArgs entropy)
    Workshop.read host number proofFile

/-- **Checks a proof.** The tool's words decide, whether it says that it succeeded or not. -/
def verify (verificationKey proof : Bytes) (options : ProviderOptions) : Run Workshop Bool :=
  Workshop.within host fun number => do
    Workshop.writeAll host number [(verificationKeyFile, verificationKey), (proofFile, proof)]
    let run ← tool.launch host number .verify (verifyArgs options) none
    let stderr := Text.Utf8.decodeLossy run.stderr
    match verificationOutcome (Text.Utf8.decodeLossy run.stdout) stderr with
    | some accepted => return accepted
    | none => Run.fail (.stage .verify ("zokrates verify: " ++ trimmed stderr))

/-- Writes a verifier contract, which has to be text. -/
def exportVerifier (verificationKey : Bytes) : Run Workshop String :=
  Workshop.within host fun number => do
    Workshop.writeAll host number [(verificationKeyFile, verificationKey)]
    let _ ← tool.run host number .exporting exportVerifierArgs
    match Text.Utf8.decode? (← Workshop.read host number verifierFile) with
    | some contract => return contract
    | none => Run.fail (.host .invalidData)

/-- Restructures a proof for display. -/
def formatProof (proof : Bytes) : Run Workshop Json :=
  Workshop.within host fun number => do
    Workshop.writeAll host number [(proofFile, proof)]
    return formattedProof (← tool.run host number .format printProofArgs)

/-- **The engine of an installation** on a host. -/
def engine : Engine Workshop CompileHandle WitnessHandle where
  name := "zokrates"
  compile := tool.compile host
  computeWitness := tool.computeWitness host
  setup := tool.setup host
  universalSetup := tool.universalSetup host
  setupFromReference := tool.setupFromReference host
  generateProof := tool.generateProof host
  verify := tool.verify host
  exportVerifier := tool.exportVerifier host
  formatProof := tool.formatProof host
  compiled := CompileHandle.ops host
  computed := WitnessHandle.ops host

end Installation

end ProofToolchain.CommandLine
