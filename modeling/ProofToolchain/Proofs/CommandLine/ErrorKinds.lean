import Mathlib
import ProofToolchain.Proofs.CommandLine.Compilation
import ProofToolchain.Proofs.CommandLine.Computation
import ProofToolchain.Proofs.Complaint
import ProofToolchain.Session.Basic

/-!
# Errors by operation

An error of the engine that drives the proof tool tells of what kind the operation was. Whatever the
tool and the host do, an operation fails as its own stage or as the environment: the tool is
missing, it cannot be fed or waited for, it does not succeed, it leaves files out, or the host does
not do what it is asked for. A compilation may be blamed on the resolver besides, and a witness
computation on arguments that cannot be encoded (`Operation.errorKinds`).

Handles could add one kind more, for a field that is read after the release or was not asked for. It
does not come up. A handle has its directory when it is handed on, and it is released only after
the last field was read, since the scope that reads it owns it; and a file is read only if the
handle was opened for it. So no error of an operation is of that kind
(`Installation.kind_of_perform`).
-/

namespace ProofToolchain

/-- **The stage that an operation is part of.** -/
def Operation.stage : Operation → Stage
  | .compile .. => .compile
  | .computeWitness .. => .witness
  | .setup .. | .universalSetup .. | .setupFromReference .. => .setup
  | .generateProof .. => .proof
  | .verify .. => .verify
  | .exportVerifier .. => .exporting
  | .formatProof .. => .format

/-- **The kinds of errors** that an operation may fail with: its own stage, the environment, and for
two of them one more. -/
def Operation.errorKinds (operation : Operation) : List ErrorKind :=
  .stage operation.stage :: .environment ::
    match operation with
    | .compile .. => [.callback]
    | .computeWitness .. => [.encoding]
    | _ => []

/-- No operation fails for a handle that was misused. -/
theorem Operation.resource_not_mem_errorKinds (operation : Operation) :
    .resource ∉ operation.errorKinds := by
  cases operation <;> simp [errorKinds]

/-- **A stop whose error is of one of some kinds**, if it is an error. -/
def Stop.IsOf (kinds : List ErrorKind) : Stop → Prop
  | .failed e => e.kind ∈ kinds
  | .crashed | .endless => True

/-- A task that is broken off fails as the environment. -/
theorem Stop.IsOf.inTask {kinds : List ErrorKind} {stop : Stop} (h : stop.IsOf kinds)
    (henv : .environment ∈ kinds) : stop.inTask.IsOf kinds := by
  cases stop with
  | failed e => exact h
  | crashed => exact henv
  | endless => trivial

namespace CommandLine

open Run (StopsOnly)

section Operations

variable {kinds : List ErrorKind} (henv : .environment ∈ kinds)

include henv

variable (host : Host)

/-! ## Reading handles -/

/-- The host's failures are those of the environment. -/
theorem isOf_host (e : HostError) : (Stop.failed (.host e)).IsOf kinds := henv

/-- A handle that was not released reads a file or is refused by the host. -/
theorem Lease.stopsOnly_read_new (operation : String) (number : Nat) (name : String) :
    StopsOnly (Stop.IsOf kinds) ((Lease.new operation number).read host name) :=
  Workshop.stopsOnly_read (isOf_host henv) number name

variable (tool : Installation)

/-- **The fields of a compilation** are read before the handle is released, and the form for
`snarkjs` only where it was asked for. -/
theorem stopsOnly_compiledFields (hstage : .stage .compile ∈ kinds) (number : Nat)
    (snarkjs : Bool) :
    StopsOnly (Stop.IsOf kinds)
      ((tool.engine host).compiledFields ⟨.new compileOperation number, snarkjs⟩ snarkjs) := by
  have hread := Lease.stopsOnly_read_new henv host compileOperation number
  have habi : StopsOnly (Stop.IsOf kinds)
      (CompileHandle.abi host ⟨.new compileOperation number, snarkjs⟩) :=
    CompileHandle.stopsOnly_abi (hread _) fun _ => hstage
  refine ((hread programFile).extracting fun e he => he).bind fun program => ?_
  refine (habi.extracting fun e he => he).bind fun abi => ?_
  cases snarkjs with
  | false => exact .pure _
  | true =>
    have hform : StopsOnly (Stop.IsOf kinds)
        (CompileHandle.snarkjsProgram host ⟨.new compileOperation number, true⟩) := hread r1csFile
    exact (hform.extracting fun e he => he).bind fun _ => .pure _

/-- **The fields of a witness computation**, likewise. -/
theorem stopsOnly_computedFields (hstage : .stage .witness ∈ kinds) (number : Nat)
    (abi : Option Abi) (snarkjs : Bool) :
    StopsOnly (Stop.IsOf kinds)
      ((tool.engine host).computedFields ⟨.new witnessOperation number, abi, snarkjs⟩ snarkjs) := by
  have hread := Lease.stopsOnly_read_new henv host witnessOperation number
  have hof : ∀ e : Error, e.IsOfWitness → e.kind ∈ kinds := fun e he => by rwa [he]
  have houtput : StopsOnly (Stop.IsOf kinds)
      (WitnessHandle.output host ⟨.new witnessOperation number, abi, snarkjs⟩) := by
    refine (hread witnessFile).bind fun witness => .ofExcept fun e he => hof e ?_
    refine FailsOnly.bind (Witness.failsOnly_outputs (fun _ => rfl) _) (fun raw => ?_) e he
    exact failsOnly_decodeOutput (fun _ => rfl) raw abi
  refine ((hread witnessFile).extracting fun e he => he).bind fun witness => ?_
  refine (houtput.extracting fun e he => he).bind fun output => ?_
  cases snarkjs with
  | false => exact .pure _
  | true =>
    have hform : StopsOnly (Stop.IsOf kinds)
        (WitnessHandle.snarkjsWitness host ⟨.new witnessOperation number, abi, true⟩) :=
      hread circomWitnessFile
    exact (hform.extracting fun e he => he).bind fun _ => .pure _

namespace Installation

/-! ## Calls within a directory -/

omit host tool in
theorem stopsOnly_readKeypair (host : Host) (number : Nat) :
    StopsOnly (Stop.IsOf kinds) (readKeypair host number) :=
  (Workshop.stopsOnly_read (isOf_host henv) number _).bind fun _ =>
    (Workshop.stopsOnly_read (isOf_host henv) number _).bind fun _ => .pure _

/-- **A call that writes some files, runs the tool and reads what it left** is stopped as its stage
or as the environment. -/
theorem stopsOnly_oneShot {α : Type} {stage : Stage} (hstage : .stage stage ∈ kinds)
    (written : List (String × Bytes)) (args : List String)
    {rest : Nat → String → Run Workshop α}
    (hrest : ∀ number printed, StopsOnly (Stop.IsOf kinds) (rest number printed)) :
    StopsOnly (Stop.IsOf kinds) (Workshop.within host fun number => do
      Workshop.writeAll host number written
      let printed ← tool.run host number stage args
      rest number printed) := by
  refine Workshop.stopsOnly_within (isOf_host henv) fun number => ?_
  refine (Workshop.stopsOnly_writeAll (isOf_host henv) number written).bind fun _ => ?_
  exact (tool.stopsOnly_run host henv (fun _ => hstage) number args none).bind (hrest number)

theorem stopsOnly_setup (hstage : .stage .setup ∈ kinds) (program : Bytes)
    (entropy : Option Bytes) (options : ProviderOptions) :
    StopsOnly (Stop.IsOf kinds) (tool.setup host program entropy options) :=
  tool.stopsOnly_oneShot henv host hstage _ _ fun number _ =>
    stopsOnly_readKeypair henv host number

theorem stopsOnly_universalSetup (hstage : .stage .setup ∈ kinds) (curve : Curve) (size : UInt32)
    (entropy : Option Bytes) :
    StopsOnly (Stop.IsOf kinds) (tool.universalSetup host curve size entropy) :=
  tool.stopsOnly_oneShot henv host hstage [] _ fun number _ =>
    Workshop.stopsOnly_read (isOf_host henv) number _

theorem stopsOnly_setupFromReference (hstage : .stage .setup ∈ kinds) (reference program : Bytes)
    (options : ProviderOptions) :
    StopsOnly (Stop.IsOf kinds) (tool.setupFromReference host reference program options) :=
  tool.stopsOnly_oneShot henv host hstage _ _ fun number _ =>
    stopsOnly_readKeypair henv host number

theorem stopsOnly_generateProof (hstage : .stage .proof ∈ kinds)
    (program witness provingKey : Bytes) (entropy : Option Bytes) (options : ProviderOptions) :
    StopsOnly (Stop.IsOf kinds)
      (tool.generateProof host program witness provingKey entropy options) :=
  tool.stopsOnly_oneShot henv host hstage _ _ fun number _ =>
    Workshop.stopsOnly_read (isOf_host henv) number _

/-- **A verification** that cannot be decided fails as one. -/
theorem stopsOnly_verify (hstage : .stage .verify ∈ kinds) (verificationKey proof : Bytes)
    (options : ProviderOptions) :
    StopsOnly (Stop.IsOf kinds) (tool.verify host verificationKey proof options) := by
  refine Workshop.stopsOnly_within (isOf_host henv) fun number => ?_
  refine (Workshop.stopsOnly_writeAll (isOf_host henv) number _).bind fun _ => ?_
  refine (tool.stopsOnly_launch host henv (fun _ => hstage) number _ _).bind fun run => ?_
  dsimp only
  split
  · exact .pure _
  · exact .fail hstage

theorem stopsOnly_exportVerifier (hstage : .stage .exporting ∈ kinds) (verificationKey : Bytes) :
    StopsOnly (Stop.IsOf kinds) (tool.exportVerifier host verificationKey) := by
  refine tool.stopsOnly_oneShot henv host hstage _ _ fun number _ => ?_
  refine (Workshop.stopsOnly_read (isOf_host henv) number _).bind fun content => ?_
  split
  · exact .pure _
  · exact .fail henv

theorem stopsOnly_formatProof (hstage : .stage .format ∈ kinds) (proof : Bytes) :
    StopsOnly (Stop.IsOf kinds) (tool.formatProof host proof) :=
  tool.stopsOnly_oneShot henv host hstage _ _ fun _ _ => .pure _

/-! ## Compilations -/

section Compilation

variable (hcallback : .callback ∈ kinds) (hstage : .stage .compile ∈ kinds)

include hcallback hstage

omit henv in
/-- An obstacle on the walk is blamed on the compilation or on the resolver. -/
theorem isOf_obstacle (obstacle : Obstacle) : obstacle.stop.IsOf kinds := by
  cases obstacle with
  | absent q => exact hstage
  | raised failure => exact hcallback
  | crashed | endless => trivial

/-- **A compilation** is stopped as such, by the resolver or by the host, or its handle is handed on.
-/
theorem compile_spec (root : SourceUnit) (resolver : Resolver) (flags : Flags) (curve : Curve)
    (w : Workshop) :
    match (tool.compile host root resolver flags curve w).1.outcome with
    | .error stop => stop.IsOf kinds
    | .ok handle =>
      handle = ⟨.new compileOperation w.requested, flags.isEnabled Flags.snarkjsFlag⟩ := by
  rcases tool.compile_ends host root resolver flags curve w with
    ⟨e, hout, -⟩ | ⟨obstacle, hout, -⟩ | ⟨units, -, hown⟩
  · rw [hout]
    exact henv
  · rw [hout]
    exact isOf_obstacle hcallback hstage obstacle
  · cases hout : (tool.compile host root resolver flags curve w).1.outcome with
    | ok handle => exact tool.eq_of_compile_ok host hout
    | error stop =>
      rcases hown stop hout with rfl | ⟨text, rfl⟩
      · exact henv
      · exact hstage

/-- **A compilation in one call** fails as a compilation, by the resolver or as the environment. -/
theorem stopsOnly_compileProgram (source : String) (options : CompileOptions)
    (bound : Option ProviderOptions) :
    StopsOnly (Stop.IsOf kinds) ((tool.engine host).compileProgram source options bound) := by
  intro w stop hstop
  have hspec := tool.compile_spec henv host hcallback hstage
    ⟨(options.request bound).location, source⟩ (options.request bound).resolver.guarded
    (options.request bound).flags (options.request bound).curve w
  rw [CompileOptions.isEnabled_request] at hspec
  cases hcall : (tool.engine host).compileCall source (options.request bound) w with
  | mk call w' =>
    have hcompile : tool.compile host ⟨(options.request bound).location, source⟩
        (options.request bound).resolver.guarded (options.request bound).flags
        (options.request bound).curve w = (call, w') := hcall
    rw [hcompile] at hspec
    cases hout : call.outcome with
    | error own =>
      rw [hout] at hspec
      rw [Engine.run_compileProgram_of_error hcall hout] at hstop
      cases hstop
      -- a failure that the resolver raised counts before the engine's own error
      unfold Engine.guardedStop
      split
      · exact hcallback
      · exact hspec
    | ok handle =>
      rw [hout] at hspec
      cases hfailure : (options.request bound).resolver.firstFailure? call.trace with
      | some failure =>
        rw [Engine.run_compileProgram_of_raised hcall hout hfailure] at hstop
        cases hstop
        exact hcallback
      | none =>
        rw [Engine.run_compileProgram_of_ok hcall hout hfailure] at hstop
        have hhandle : handle
            = ⟨.new compileOperation w.requested, (options.request bound).snarkjs⟩ := hspec
        subst hhandle
        exact stopsOnly_compiledFields henv host tool hstage _ _ w' stop hstop

end Compilation

/-! ## Witness computations -/

section Computation

variable (hencoding : .encoding ∈ kinds) (hstage : .stage .witness ∈ kinds)

include hencoding hstage

/-- **Computing a witness in a directory** fails by the arguments, the tool or the host. -/
theorem stopsOnly_computeIn (number : Nat) (input : ProgramInput) (args : String)
    (snarkjs : Bool) :
    StopsOnly (Stop.IsOf kinds) (tool.computeIn host number input args snarkjs) := by
  refine (Workshop.stopsOnly_writeAll (isOf_host henv) number _).bind fun _ => ?_
  refine StopsOnly.bind (.ofExcept fun e he => ?_) fun line =>
    tool.stopsOnly_run host henv (fun _ => hstage) number line.1 line.2
  show e.kind ∈ kinds
  rcases failsOnly_witnessArgs _ _ _ e he with hwitness | hkind
  · rwa [hwitness]
  · rwa [hkind]

/-- **A handle is handed on unreleased** here as well. -/
theorem computeWitness_spec (input : ProgramInput) (args : String) (snarkjs : Bool)
    (listener : Listener Workshop) (w : Workshop) :
    match (tool.computeWitness host input args snarkjs listener w).1.outcome with
    | .error stop => stop.IsOf kinds
    | .ok handle => handle = ⟨.new witnessOperation w.requested, input.abi, snarkjs⟩ := by
  cases hmake : host.makeFailure? w.requested with
  | some e =>
    rw [tool.computeWitness_of_unmade host hmake]
    exact henv
  | none =>
    cases hmade : (tool.computeIn host w.requested input args snarkjs).run w.withNew with
    | mk made w' =>
      cases made with
      | error stop =>
        rw [tool.computeWitness_of_error host hmake hmade]
        exact tool.stopsOnly_computeIn henv host hencoding hstage _ _ _ _ _ stop
          (congrArg Prod.fst hmade)
      | ok stdout =>
        cases hheard : listener.deliver [] (loggedLines stdout) w' with
        | mk heard w'' =>
          obtain ⟨delivered, complete⟩ := heard
          cases complete with
          | true =>
            rw [tool.computeWitness_of_heard host hmake hmade hheard]
          | false =>
            rw [tool.computeWitness_of_brokenOff host hmake hmade hheard]
            trivial

/-- **A witness computation in one call** fails as one, by its arguments or as the environment. -/
theorem isOf_of_runProgram (input : ProgramInput) (args : Argument) (options : WitnessOptions)
    (w : Workshop) {stop : Stop}
    (hstop : ((tool.engine host).runProgram input args options w).1.outcome = .error stop) :
    stop.IsOf kinds := by
  cases hencoded : args.encode with
  | error e =>
    rw [Engine.runProgram_of_not_encoded hencoded] at hstop
    cases hstop
    have hkind : e.kind = .encoding := args.failsOnly_encode e hencoded
    show e.kind ∈ kinds
    rwa [hkind]
  | ok text =>
    have hspec := tool.computeWitness_spec henv host hencoding hstage input text
      options.request.snarkjs options.request.logger.listener w
    cases hcall : (tool.engine host).witnessCall input text options w with
    | mk call w' =>
      have hcompute : tool.computeWitness host input text options.request.snarkjs
          options.request.logger.listener w = (call, w') := hcall
      rw [hcompute] at hspec
      cases hout : call.outcome with
      | error own =>
        rw [hout] at hspec
        rw [Engine.runProgram_of_error hencoded hcall hout] at hstop
        cases hstop
        exact hspec
      | ok handle =>
        rw [hout] at hspec
        rw [Engine.runProgram_of_ok hencoded hcall hout] at hstop
        have hhandle : handle = ⟨.new witnessOperation w.requested, input.abi,
            options.request.snarkjs⟩ := hspec
        subst hhandle
        exact stopsOnly_computedFields henv host tool hstage _ _ _ w' stop hstop

end Computation

end Installation

end Operations

/-! ## All operations -/

namespace Installation

variable (tool : Installation) (host : Host)

/-- A stop of an operation is of one of its kinds. -/
theorem isOf_of_perform (options : ProviderOptions) (route : Route) (operation : Operation)
    (w : Workshop) {stop : Stop}
    (hstop : ((tool.engine host).perform options route operation w).1.outcome = .error stop) :
    stop.IsOf operation.errorKinds := by
  have hstage : .stage operation.stage ∈ operation.errorKinds := List.mem_cons_self
  have henv : .environment ∈ operation.errorKinds := List.mem_cons_of_mem _ List.mem_cons_self
  cases operation with
  | compile source call =>
    have hcallback : .callback ∈ (Operation.compile source call).errorKinds := by
      simp [Operation.errorKinds]
    exact ((tool.stopsOnly_compileProgram henv host hcallback hstage source call _).map _) w stop
      hstop
  | computeWitness input args call =>
    have hencoding : .encoding ∈ (Operation.computeWitness input args call).errorKinds := by
      simp [Operation.errorKinds]
    refine tool.isOf_of_runProgram henv host hencoding hstage input args call w ?_
    have hmap : ((tool.engine host).runProgram input args call w).1.outcome.map Reply.witness
        = .error stop := hstop
    cases hout : ((tool.engine host).runProgram input args call w).1.outcome with
    | error own =>
      rw [hout] at hmap
      exact congrArg Except.error (Except.error.inj hmap)
    | ok result =>
      rw [hout] at hmap
      cases hmap
  | setup program entropy =>
    exact ((tool.stopsOnly_setup henv host hstage program entropy _).map _) w stop hstop
  | universalSetup size entropy =>
    exact ((tool.stopsOnly_universalSetup henv host hstage _ size entropy).map _) w stop hstop
  | setupFromReference reference program =>
    exact ((tool.stopsOnly_setupFromReference henv host hstage reference program _).map _) w stop
      hstop
  | generateProof program witness provingKey entropy =>
    exact ((tool.stopsOnly_generateProof henv host hstage program witness provingKey entropy _).map
      _) w stop hstop
  | verify verificationKey proof =>
    exact ((tool.stopsOnly_verify henv host hstage verificationKey proof _).map _) w stop hstop
  | exportVerifier verificationKey =>
    exact ((tool.stopsOnly_exportVerifier henv host hstage verificationKey).map _) w stop hstop
  | formatProof proof =>
    exact ((tool.stopsOnly_formatProof henv host hstage proof).map _) w stop hstop

/-- **An error tells of what kind the operation was**, whatever the tool and the host do, whatever
the operation is given and on whatever route it is reached: it is of the operation's stage or of the
environment, or a compilation is blamed on its resolver, or the arguments of a witness computation
cannot be encoded. It is never that a handle was misused. -/
theorem kind_of_perform (options : ProviderOptions) (route : Route) (operation : Operation)
    (w : Workshop) {e : Error}
    (h : ((tool.engine host).perform options route operation w).1.outcome = .error (.failed e)
      ∨ ((tool.engine host).perform options route operation w).1.inTask.outcome
        = .error (.failed e)) :
    e.kind ∈ operation.errorKinds ∧ e.kind ≠ .resource := by
  have hmem : (Stop.failed e).IsOf operation.errorKinds := by
    rcases h with hcall | htask
    · exact tool.isOf_of_perform host options route operation w hcall
    · cases hout : ((tool.engine host).perform options route operation w).1.outcome with
      | ok reply =>
        rw [Watched.inTask, hout] at htask
        cases htask
      | error stop =>
        rw [Watched.inTask, hout] at htask
        rw [← Except.error.inj htask]
        exact (tool.isOf_of_perform host options route operation w hout).inTask
          (List.mem_cons_of_mem _ List.mem_cons_self)
  refine ⟨hmem, fun hresource => operation.resource_not_mem_errorKinds ?_⟩
  rw [← hresource]
  exact hmem

/-- A host on which the tool says that it succeeded and leaves nothing. -/
def idleHost : Host where
  scratchPath _ := "/scratch"
  launch _ := .ran ⟨[], [], true, []⟩
  finds _ := true

/-- The witness that the tool did not leave cannot be read off the handle. That is a matter of the
environment, and the form for `snarkjs` is not looked for any more. -/
theorem kind_of_perform_idleHost :
    ((Installation.engine {} idleHost).perform {} .provider
        (.computeWitness ⟨[], none⟩ (.sequence []) { snarkjs := true }) {}).1.outcome
        = .error (.failed (.extraction "compute_witness" "witness" (.host .notFound)))
      ∧ (Error.extraction "compute_witness" "witness" (.host .notFound)).kind
        ∈ [.stage .witness, .environment, .encoding]
      ∧ (Error.extraction "compute_witness" "witness" (.host .notFound)).kind ≠ .resource := by
  have hout : ((Installation.engine {} idleHost).perform {} .provider
      (.computeWitness ⟨[], none⟩ (.sequence []) { snarkjs := true }) {}).1.outcome
      = .error (.failed (.extraction "compute_witness" "witness" (.host .notFound))) := by cbv
  exact ⟨hout, kind_of_perform {} idleHost {} .provider _ {} (.inl hout)⟩

end Installation

end CommandLine

end ProofToolchain
