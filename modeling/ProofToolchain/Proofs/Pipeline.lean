import ProofToolchain.Pipeline
import ProofToolchain.Proofs.Run

/-!
# How a call in one piece ends

`Engine.compileProgram` and `Engine.runProgramWith` have few ways to end, and which one it is
depends on the engine call alone. Either there is no handle, and the state is the one that the
engine call left; or there is one, and it is given up after the fields are read, or instead of that
where the resolver raised a failure. Each way is one equation here, for any engine.
-/

namespace ProofToolchain.Engine

variable {σ κ ω : Type} {engine : Engine σ κ ω}

/-! ## Compilations -/

section Compilation

variable {source : String} {request : CompileRequest} {s s' : σ} {call : Watched Query κ}

/-- What the engine is asked in a guarded compilation. -/
def compileCall (engine : Engine σ κ ω) (source : String) (request : CompileRequest) :
    StateM σ (Watched Query κ) :=
  engine.compile ⟨request.location, source⟩ request.resolver.guarded request.flags request.curve

/-- What an engine call without a handle becomes: the failure that the resolver raised counts
before any error of the engine, and a call that is broken off stays broken off. -/
def guardedStop (failure : Option Failure) (stop : Stop) : Stop :=
  match stop, failure with
  | .failed _, some failure => .failed (resolverError failure)
  | stop, _ => stop

/-- **How a guarded compilation ends.** A handle is handed on if no failure was raised, and given up
if one was. Without a handle the state is the one that the engine call left. -/
theorem run_compileGuarded (h : engine.compileCall source request s = (call, s')) :
    (engine.compileGuarded source request).run s =
      match call.outcome, request.resolver.firstFailure? call.trace with
      | .ok handle, none => (.ok (.new compileOperation handle), s')
      | .ok handle, some failure =>
        (.error (.failed (resolverError failure)), (engine.compiled.giveUp handle s').2)
      | .error stop, failure => (.error (guardedStop failure stop), s') := by
  have h' : engine.compile ⟨request.location, source⟩ request.resolver.guarded request.flags
      request.curve s = (call, s') := h
  show (engine.compileGuarded source request) s = _
  simp only [compileGuarded, ExceptT.mk, bind, StateT.bind, h']
  cases call.outcome with
  | ok handle => cases request.resolver.firstFailure? call.trace <;> rfl
  | error stop =>
    -- a failure replaces an error of the engine, and nothing replaces a break-off
    cases stop with
    | failed e => cases request.resolver.firstFailure? call.trace <;> rfl
    | crashed => cases request.resolver.firstFailure? call.trace <;> rfl
    | endless => cases request.resolver.firstFailure? call.trace <;> rfl

variable {options : CompileOptions} {bound : Option ProviderOptions}

/-- The fields of a compilation, read off a handle that was just opened. -/
abbrev compiledFields (engine : Engine σ κ ω) (handle : κ) (snarkjs : Bool) :
    Run σ CompileArtifact :=
  engine.readCompiled (.new compileOperation handle) snarkjs

/-- **A handle is read and then given up**, whatever came of the reading. -/
theorem run_compileProgram_of_ok {handle : κ}
    (h : engine.compileCall source (options.request bound) s = (call, s'))
    (hok : call.outcome = .ok handle)
    (hquiet : (options.request bound).resolver.firstFailure? call.trace = none) :
    (engine.compileProgram source options bound).run s
      = (((engine.compiledFields handle (options.request bound).snarkjs).run s').1,
        (engine.compiled.giveUp handle
          ((engine.compiledFields handle (options.request bound).snarkjs).run s').2).2) := by
  refine (Run.run_bind_of_ok (by rw [run_compileGuarded h, hok, hquiet]) _).trans ?_
  rw [Scoped.reading_new]
  rfl

/-- **A raised failure is the error**, and the handle is given up unread. -/
theorem run_compileProgram_of_raised {handle : κ} {failure : Failure}
    (h : engine.compileCall source (options.request bound) s = (call, s'))
    (hok : call.outcome = .ok handle)
    (hraised : (options.request bound).resolver.firstFailure? call.trace = some failure) :
    (engine.compileProgram source options bound).run s
      = (.error (.failed (resolverError failure)), (engine.compiled.giveUp handle s').2) :=
  Run.run_bind_of_error (by rw [run_compileGuarded h, hok, hraised]) _

/-- **Without a handle nothing is read or given up.** -/
theorem run_compileProgram_of_error {stop : Stop}
    (h : engine.compileCall source (options.request bound) s = (call, s'))
    (herr : call.outcome = .error stop) :
    (engine.compileProgram source options bound).run s
      = (.error
          (guardedStop ((options.request bound).resolver.firstFailure? call.trace) stop), s') :=
  Run.run_bind_of_error (by rw [run_compileGuarded h, herr]) _

end Compilation

/-! ## Witness computations -/

section Computation

variable {input : ProgramInput} {args : Argument} {snarkjs : Bool} {listener : Listener σ}
  {s s' : σ} {call : Watched String ω} {text : String}

/-- Arguments that cannot be encoded leave everything as it is. -/
theorem runProgramWith_of_not_encoded {e : Error} (h : args.encode = .error e) :
    engine.runProgramWith input args snarkjs listener s = (⟨[], .error (.failed e)⟩, s) := by
  simp only [runProgramWith, h]
  rfl

/-- The fields of a witness computation, read off a handle that was just opened. -/
abbrev computedFields (engine : Engine σ κ ω) (handle : ω) (snarkjs : Bool) :
    Run σ WitnessResult :=
  engine.readComputed (.new witnessOperation handle) snarkjs

/-- **A handle is read and then given up**, whatever came of the reading. -/
theorem runProgramWith_of_ok {handle : ω} (henc : args.encode = .ok text)
    (h : engine.computeWitness input text snarkjs listener s = (call, s'))
    (hok : call.outcome = .ok handle) :
    engine.runProgramWith input args snarkjs listener s
      = (⟨call.trace, ((engine.computedFields handle snarkjs).run s').1⟩,
        (engine.computed.giveUp handle
          ((engine.computedFields handle snarkjs).run s').2).2) := by
  simp only [runProgramWith, henc, bind, StateT.bind, h, hok, Scoped.reading_new]
  rfl

/-- **Without a handle nothing is read or given up.** -/
theorem runProgramWith_of_error {stop : Stop} (henc : args.encode = .ok text)
    (h : engine.computeWitness input text snarkjs listener s = (call, s'))
    (herr : call.outcome = .error stop) :
    engine.runProgramWith input args snarkjs listener s = (⟨call.trace, .error stop⟩, s') := by
  simp only [runProgramWith, henc, bind, StateT.bind, h, herr]
  rfl

/-! ### With a logger -/

variable {options : WitnessOptions}

/-- What the engine is asked for some encoded arguments. -/
def witnessCall (engine : Engine σ κ ω) (input : ProgramInput) (text : String)
    (options : WitnessOptions) : StateM σ (Watched String ω) :=
  engine.computeWitness input text options.request.snarkjs options.request.logger.listener

theorem runProgram_of_not_encoded {e : Error} (h : args.encode = .error e) :
    engine.runProgram input args options s = (⟨[], .error (.failed e)⟩, s) :=
  runProgramWith_of_not_encoded h

theorem runProgram_of_ok {handle : ω} (henc : args.encode = .ok text)
    (h : engine.witnessCall input text options s = (call, s')) (hok : call.outcome = .ok handle) :
    engine.runProgram input args options s
      = (⟨call.trace, ((engine.computedFields handle options.request.snarkjs).run s').1⟩,
        (engine.computed.giveUp handle
          ((engine.computedFields handle options.request.snarkjs).run s').2).2) :=
  runProgramWith_of_ok henc h hok

theorem runProgram_of_error {stop : Stop} (henc : args.encode = .ok text)
    (h : engine.witnessCall input text options s = (call, s'))
    (herr : call.outcome = .error stop) :
    engine.runProgram input args options s = (⟨call.trace, .error stop⟩, s') :=
  runProgramWith_of_error henc h herr

end Computation

end ProofToolchain.Engine
