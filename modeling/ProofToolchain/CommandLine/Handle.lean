import ProofToolchain.Abi.Output
import ProofToolchain.CommandLine.Arguments
import ProofToolchain.CommandLine.Workshop
import ProofToolchain.Engine
import ProofToolchain.Witness.Outputs

/-!
# Handles over scratch directories

The handle of a compilation or a witness computation owns the directory that the tool wrote to
(`Lease`). Fields are read from the files there, each time anew. Releasing a handle takes the
directory out of it and has it removed. Whether that succeeds is not looked at: every field is
refused from then on, also where the directory is still there. A second release finds nothing to
remove, and throwing a handle away releases it. A file that was not asked for is refused before
anything else.
-/

namespace ProofToolchain.CommandLine

/-! ## Directories that can be given up once -/

/-- **A directory that is owned until it is given up.** -/
structure Lease where
  /-- The operation in whose name files are refused. -/
  operation : String
  /-- The directory, until it is taken out. -/
  number? : Option Nat
  deriving DecidableEq, Repr

namespace Lease

/-- The directory that an operation hands on. -/
def new (operation : String) (number : Nat) : Lease := ⟨operation, some number⟩

variable (host : Host)

/-- **A file is read**, unless the directory was given up. -/
def read (lease : Lease) (name : String) : Run Workshop Bytes :=
  match lease.number? with
  | some number => Workshop.read host number name
  | none => Run.fail (.resource lease.operation (name ++ " read after release"))

/-- A file is read if it was asked for. -/
def readRequested (lease : Lease) (requested : Bool) (name what : String) : Run Workshop Bytes :=
  if requested then lease.read host name
  else Run.fail (.resource lease.operation (what ++ " was not requested"))

/-- **The directory is taken out and removed**, if there is one. -/
def release (lease : Lease) : StateM Workshop Lease := do
  match lease.number? with
  | some number =>
    Workshop.remove host number
    return { lease with number? := none }
  | none => return lease

/-- What is thrown away is released. -/
def discard (lease : Lease) : StateM Workshop Unit := do
  let _ ← lease.release host

end Lease

/-! ## Compilations -/

/-- **The handle of a compilation.** -/
structure CompileHandle where
  /-- The directory that the tool wrote to. -/
  scratch : Lease
  /-- Whether the form `snarkjs` reads was asked for. -/
  snarkjs : Bool
  deriving DecidableEq, Repr

namespace CompileHandle

variable (host : Host)

/-- The program. -/
def program (h : CompileHandle) : Run Workshop Bytes :=
  h.scratch.read host programFile

/-- The interface of the program. -/
def abi (h : CompileHandle) : Run Workshop Abi := do
  let content ← h.scratch.read host abiFile
  match Abi.ofBlob? content with
  | some abi => return abi
  | none => Run.fail (.stage .compile "unreadable abi.json: no interface is written there")

/-- The program in the form `snarkjs` reads. -/
def snarkjsProgram (h : CompileHandle) : Run Workshop Bytes :=
  h.scratch.readRequested host h.snarkjs r1csFile "snarkjs program"

/-- How these handles are used. -/
def ops : CompileHandleOps Workshop CompileHandle where
  release h := do return { h with scratch := ← h.scratch.release host }
  discard h := h.scratch.discard host
  program := program host
  abi := abi host
  snarkjsProgram := snarkjsProgram host

end CompileHandle

/-! ## Witness computations -/

/-- **The handle of a witness computation.** -/
structure WitnessHandle where
  /-- The directory that the tool wrote to. -/
  scratch : Lease
  /-- The interface of the program that was run. -/
  abi : Option Abi
  /-- Whether the form `snarkjs` reads was asked for. -/
  snarkjs : Bool

namespace WitnessHandle

variable (host : Host)

/-- The witness. -/
def witness (h : WitnessHandle) : Run Workshop Bytes :=
  h.scratch.read host witnessFile

/-- The output that a witness holds. -/
def outputOf (abi : Option Abi) (witness : Bytes) : Except Error Json := do
  decodeOutput (← Witness.outputs (Text.Utf8.decodeLossy witness)) abi

/-- The program's public output. -/
def output (h : WitnessHandle) : Run Workshop Json := do
  Run.ofExcept (outputOf h.abi (← h.witness host))

/-- The witness in the form `snarkjs` reads. -/
def snarkjsWitness (h : WitnessHandle) : Run Workshop Bytes :=
  h.scratch.readRequested host h.snarkjs circomWitnessFile "snarkjs witness"

/-- How these handles are used. -/
def ops : WitnessHandleOps Workshop WitnessHandle where
  release h := do return { h with scratch := ← h.scratch.release host }
  discard h := h.scratch.discard host
  witness := witness host
  output := output host
  snarkjsWitness := snarkjsWitness host

end WitnessHandle

end ProofToolchain.CommandLine
