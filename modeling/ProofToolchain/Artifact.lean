import ProofToolchain.Abi.Basic

/-!
# What the stages hand on

Programs, witnesses, keys, proofs and reference strings are blobs whose contents are the engine's
own matter. A compilation yields a program with its interface, a witness computation the witness
with the program's decoded output, and a setup two keys. As JSON a blob is an array of numbers.
-/

namespace ProofToolchain

/-- **The keys of a setup.** -/
structure Keypair where
  /-- The key that verifies proofs. -/
  verificationKey : Bytes
  /-- The key that proofs are made with. -/
  provingKey : Bytes
  deriving DecidableEq, Repr

/-- The keys as a record. -/
def Keypair.toJson (k : Keypair) : Json :=
  .object [("verification_key", .ofBytes k.verificationKey), ("proving_key", .ofBytes k.provingKey)]

/-- The keys that a literal writes; both must be there. -/
def Keypair.ofLiteral? (l : Json.Literal) : Option Keypair := do
  let fields ← l.fields? ["verification_key", "proving_key"]
  match fields with
  | [verificationKey, provingKey] =>
    let verificationKey ← Json.required Json.Literal.bytes? verificationKey
    let provingKey ← Json.required Json.Literal.bytes? provingKey
    return ⟨verificationKey, provingKey⟩
  | _ => none

/-- The keys that a JSON text spells. -/
def Keypair.parse? (text : String) : Option Keypair :=
  (Json.Literal.parse? text.toList).bind ofLiteral?

/-- The blob that a JSON text spells. -/
def Bytes.parse? (text : String) : Option Bytes :=
  (Json.Literal.parse? text.toList).bind Json.Literal.bytes?

/-- A member that is written only when it is there. -/
def Json.memberIfSome (key : String) (value : Option Bytes) : List (String × Json) :=
  match value with
  | some bytes => [(key, .ofBytes bytes)]
  | none => []

/-- **What a compilation yields.** -/
structure CompileArtifact where
  /-- The program. -/
  program : Bytes
  /-- The interface of its entry point. -/
  abi : Abi
  /-- The program in the form `snarkjs` reads, when it was asked for. -/
  snarkjsProgram : Option Bytes
  deriving Repr

/-- A compilation's yield as a record. -/
def CompileArtifact.toJson (a : CompileArtifact) : Json :=
  .object ([("program", .ofBytes a.program), ("abi", a.abi.toJson)]
    ++ Json.memberIfSome "snarkjs_program" a.snarkjsProgram)

/-- **What a witness computation yields.** -/
structure WitnessResult where
  /-- The witness. -/
  witness : Bytes
  /-- The program's public output. -/
  output : Json
  /-- The witness in the form `snarkjs` reads, when it was asked for. -/
  snarkjsWitness : Option Bytes
  deriving Repr

/-- A witness computation's yield as a record. -/
def WitnessResult.toJson (w : WitnessResult) : Json :=
  .object ([("witness", .ofBytes w.witness), ("output", w.output)]
    ++ Json.memberIfSome "snarkjs_witness" w.snarkjsWitness)

/-- **A program to run**: bare, or with its interface. -/
structure ProgramInput where
  /-- The program. -/
  program : Bytes
  /-- The interface; programs written at a low level have none. -/
  abi : Option Abi
  deriving Repr

/-- What a compilation yields can be run. -/
def CompileArtifact.input (a : CompileArtifact) : ProgramInput := ⟨a.program, some a.abi⟩

end ProofToolchain
