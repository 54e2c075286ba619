import ProofToolchain.Argument.Basic
import ProofToolchain.Scoped

/-!
# Compiling and computing in one call

A caller wants results and no handles. `Engine.compileProgram` and `Engine.runProgram` call the
entry point of an engine, put the handle in a scope and read every field that is wanted. The scope
gives the handle up once on every path: after the last field, and just as well after the first
field that cannot be read.

A compilation also guards the resolver. An engine may carry on after a resolver has raised, may
fail for another reason later or may even succeed. The caller is told of the first failure in
each of these cases, with the causes it came with; the engine sees failures flattened into one
message only.
-/

namespace ProofToolchain

variable {σ κ ω : Type}

namespace Engine

/-- **A guarded compilation**: its handle in a scope, unless the resolver raised a failure. Then the
scope ends with the handle unread. -/
def compileGuarded (engine : Engine σ κ ω) (source : String) (request : CompileRequest) :
    Run σ (Scoped κ) :=
  ExceptT.mk do
    let call ← engine.compile ⟨request.location, source⟩ request.resolver.guarded request.flags
      request.curve
    let outcome := call.outcome.map (Scoped.new compileOperation)
    match outcome, request.resolver.firstFailure? call.trace with
    | .ok scope, some failure =>
      scope.drop engine.compiled.toHandleOps
      return .error (.failed (resolverError failure))
    | .error (.failed _), some failure =>
      return .error (.failed (resolverError failure))
    | outcome, _ => return outcome

/-- The fields of a compilation that are wanted. -/
def readCompiled (engine : Engine σ κ ω) (scope : Scoped κ) (snarkjs : Bool) :
    Run σ CompileArtifact := do
  let program ← scope.extract "program" engine.compiled.program
  let abi ← scope.extract "abi" engine.compiled.abi
  if snarkjs then
    let snarkjsProgram ← scope.extract "snarkjs_program" engine.compiled.snarkjsProgram
    return ⟨program, abi, some snarkjsProgram⟩
  else
    return ⟨program, abi, none⟩

/-- **Compiles a source** into a program and its interface. -/
def compileProgram (engine : Engine σ κ ω) (source : String) (options : CompileOptions)
    (bound : Option ProviderOptions) : Run σ CompileArtifact := do
  let request := options.request bound
  let scope ← engine.compileGuarded source request
  scope.reading engine.compiled.toHandleOps (engine.readCompiled scope request.snarkjs)

/-- The fields of a witness computation that are wanted. -/
def readComputed (engine : Engine σ κ ω) (scope : Scoped ω) (snarkjs : Bool) :
    Run σ WitnessResult := do
  let witness ← scope.extract "witness" engine.computed.witness
  let output ← scope.extract "output" engine.computed.output
  if snarkjs then
    let snarkjsWitness ← scope.extract "snarkjs_witness" engine.computed.snarkjsWitness
    return ⟨witness, output, some snarkjsWitness⟩
  else
    return ⟨witness, output, none⟩

/-- **Computes a witness** for some arguments, with a listener to what the program logs. Arguments
that cannot be encoded never reach the engine. -/
def runProgramWith (engine : Engine σ κ ω) (input : ProgramInput) (args : Argument)
    (snarkjs : Bool) (listener : Listener σ) : StateM σ (Watched String WitnessResult) := do
  match args.encode with
  | .error e => return ⟨[], .error (.failed e)⟩
  | .ok args =>
    let call ← engine.computeWitness input args snarkjs listener
    match call.outcome with
    | .error stop => return ⟨call.trace, .error stop⟩
    | .ok handle =>
      let scope := Scoped.new witnessOperation handle
      let outcome ← (scope.reading engine.computed.toHandleOps
        (engine.readComputed scope snarkjs)).run
      return ⟨call.trace, outcome⟩

/-- Computes a witness with the logger that the options name. -/
def runProgram (engine : Engine σ κ ω) (input : ProgramInput) (args : Argument)
    (options : WitnessOptions) : StateM σ (Watched String WitnessResult) :=
  engine.runProgramWith input args options.request.snarkjs options.request.logger.listener

end Engine

end ProofToolchain
