import ProofToolchain.Artifact
import ProofToolchain.Argument.Flatten
import ProofToolchain.Options.Choice
import ProofToolchain.Options.Flags

/-!
# Command lines of the proof tool

The tool is run as `zokrates <command> <arguments>` inside a scratch directory, so every file but
the root source is named by a fixed short name. Optional switches come after the fixed arguments
in a fixed order.
-/

namespace ProofToolchain.CommandLine

/-! ## Files in the scratch directory -/

/-- The program. -/
def programFile : String := "out"

/-- The interface of the program. -/
def abiFile : String := "abi.json"

/-- The program in the form `snarkjs` reads. -/
def r1csFile : String := "out.r1cs"

/-- The witness. -/
def witnessFile : String := "witness"

/-- The witness in the form `snarkjs` reads. -/
def circomWitnessFile : String := "out.wtns"

/-- The proving key. -/
def provingKeyFile : String := "proving.key"

/-- The verification key. -/
def verificationKeyFile : String := "verification.key"

/-- The structured reference string. -/
def referenceStringFile : String := "universal_setup.dat"

/-- The proof. -/
def proofFile : String := "proof.json"

/-- The verifier contract. -/
def verifierFile : String := "verifier.sol"

/-! ## Arguments by command -/

/-- Arguments that are there only under a condition. -/
def whenever (condition : Bool) (args : List String) : List String :=
  if condition then args else []

/-- The switch that hands entropy over, in hexadecimal. -/
def entropyArgs : Option Bytes → List String
  | some entropy => ["--entropy", entropy.toHex]
  | none => []

/-- **`compile`.** Three flags have a switch: `snarkjs`, which asks for an extra file, branch
isolation and debug output. -/
def compileArgs (root : String) (flags : Flags) (curve : Curve) (stdlib : Option String) :
    List String :=
  ["compile", "--input", root, "--output", programFile, "--abi-spec", abiFile,
    "--curve", curve.name]
  ++ whenever (flags.isEnabled Flags.snarkjsFlag) ["--r1cs", r1csFile]
  ++ whenever (flags.isEnabled Flags.isolateBranchesFlag) ["--isolate-branches"]
  ++ whenever (flags.isEnabled Flags.debugFlag) ["--debug"]
  ++ match stdlib with
    | some path => ["--stdlib-path", path]
    | none => []

/-- **`compute-witness`**, with the text to be fed to it. With an interface the arguments are fed
as they are encoded; without one they are field elements on the command line, and nothing is
fed. -/
def witnessArgs (abi : Option Abi) (args : String) (snarkjs : Bool) :
    Except Error (List String × Option String) := do
  let fixed := ["compute-witness", "--input", programFile, "--output", witnessFile]
  let extra := whenever snarkjs ["--circom-witness", circomWitnessFile]
  match abi with
  | some _ => return (fixed ++ ["--abi-spec", abiFile, "--abi", "--stdin"] ++ extra, some args)
  | none =>
    let values ← Argument.flattenText args
    return (fixed ++ whenever (!values.isEmpty) ("--arguments" :: values) ++ extra, none)

/-- **`setup`** for one program. -/
def setupArgs (options : ProviderOptions) : List String :=
  ["setup", "--input", programFile, "--proving-key-path", provingKeyFile,
    "--verification-key-path", verificationKeyFile, "--backend", options.backend.name,
    "--proving-scheme", options.scheme.name]

/-- **`setup`** from a structured reference string. -/
def setupFromReferenceArgs (options : ProviderOptions) : List String :=
  setupArgs options ++ ["--universal-setup-path", referenceStringFile]

/-- **`universal-setup`** for circuits of up to two to the `size` constraints. -/
def universalSetupArgs (curve : Curve) (size : UInt32) : List String :=
  ["universal-setup", "--curve", curve.name, "--proving-scheme", Scheme.marlin.name,
    "--size", String.ofList (Text.decimal size.toNat),
    "--universal-setup-path", referenceStringFile]

/-- **`generate-proof`.** -/
def generateProofArgs (options : ProviderOptions) : List String :=
  ["generate-proof", "--input", programFile, "--witness", witnessFile,
    "--proving-key-path", provingKeyFile, "--proof-path", proofFile,
    "--backend", options.backend.name, "--proving-scheme", options.scheme.name]

/-- **`verify`.** The scheme is written in the proof, so it is not given. -/
def verifyArgs (options : ProviderOptions) : List String :=
  ["verify", "--verification-key-path", verificationKeyFile, "--proof-path", proofFile,
    "--backend", options.backend.name]

/-- **`export-verifier`.** -/
def exportVerifierArgs : List String :=
  ["export-verifier", "--input", verificationKeyFile, "--output", verifierFile]

/-- **`print-proof`.** -/
def printProofArgs : List String :=
  ["print-proof", "--proof-path", proofFile, "--format", "json"]

end ProofToolchain.CommandLine
