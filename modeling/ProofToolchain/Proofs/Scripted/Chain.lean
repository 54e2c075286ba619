import Mathlib
import ProofToolchain.Proofs.Import.Agreement
import ProofToolchain.Provider

/-!
# From a source to a verified proof

Five operations lead from a source to a verified proof, and each is handed what earlier ones yielded
(`Provider.proveAndVerify`). With the scripted engine they fit together: a script that is not told
to fail yields its own program, witness, keys and proof, and what it is handed on the way are just
these, so nothing is refused. Nothing else is accepted either. A proof is made for the script's
witness and proving key alone, and no other proof is verified, nor under any other key.

What an operation yields does not depend on what was done before, since the script decides and the
engine's state only records (`Run.Always`). The one step that asks anything of the caller's data is
the compilation, where all imports that are reached have to resolve (`Resolver.ResolvesFrom`).
-/

namespace ProofToolchain

/-- **A run comes to one outcome**, whatever the state. -/
def Run.Always {σ α : Type} (x : Run σ α) (outcome : Except Stop α) : Prop :=
  ∀ s, (x.run s).1 = outcome

namespace Run.Always

variable {σ α β : Type} {x : Run σ α} {f : α → Run σ β}

/-- The rest of a run is handed what its first action yields. -/
theorem bind {a : α} {outcome : Except Stop β} (hx : x.Always (.ok a))
    (hf : (f a).Always outcome) : (x >>= f).Always outcome := by
  intro s
  have hok := hx s
  cases h : x.run s with
  | mk r s' =>
    rw [h] at hok
    subst hok
    rw [Run.run_bind_of_ok h]
    exact hf s'

/-- There is no rest if its first action is stopped. -/
theorem bind_error {stop : Stop} (hx : x.Always (.error stop)) :
    (x >>= f).Always (.error stop) := by
  intro s
  have herr := hx s
  cases h : x.run s with
  | mk r s' =>
    rw [h] at herr
    subst herr
    rw [Run.run_bind_of_error h]

end Run.Always

/-! ## The chain -/

/-- **Where keys come from.** -/
inductive KeySource where
  /-- A setup for the program. -/
  | program (entropy : Option Bytes)
  /-- A universal setup, and then one from its reference string. -/
  | reference (size : UInt32) (entropy : Option Bytes)

/-- **What a caller decides** on the way from a source to a verified proof. -/
structure Undertaking where
  /-- The source. -/
  source : String
  /-- How it is compiled. -/
  compile : CompileOptions
  /-- Whether the program is run without its interface. -/
  bare : Bool
  /-- The arguments. -/
  args : Argument
  /-- How the witness is computed. -/
  witness : WitnessOptions
  /-- Where the keys come from. -/
  keys : KeySource
  /-- The entropy for the proof. -/
  entropy : Option Bytes

/-- What is run of a compilation. -/
def Undertaking.input (u : Undertaking) (artifact : CompileArtifact) : ProgramInput :=
  if u.bare then ⟨artifact.program, none⟩ else artifact.input

namespace Provider

variable {σ κ ω : Type}

/-- A witness computation, its log lines aside. -/
def witness (p : Provider σ κ ω) (input : ProgramInput) (args : Argument)
    (options : WitnessOptions) : Run σ WitnessResult :=
  ExceptT.mk do return (← p.computeWitness input args options).outcome

/-- The keys of a program. -/
def makeKeys (p : Provider σ κ ω) (program : Bytes) : KeySource → Run σ Keypair
  | .program entropy => p.setup program entropy
  | .reference size entropy => do
    let reference ← p.universalSetup size entropy
    p.setupFromReference reference program

/-- **The whole way**: a program is compiled and run, keys are made, a proof is made, and the proof
is verified. -/
def proveAndVerify (p : Provider σ κ ω) (u : Undertaking) : Run σ Bool := do
  let artifact ← p.compile u.source u.compile
  let result ← p.witness (u.input artifact) u.args u.witness
  let keys ← p.makeKeys artifact.program u.keys
  let proof ← p.generateProof artifact.program result.witness keys.provingKey u.entropy
  p.verify keys.verificationKey proof

end Provider

/-! ## Imports that resolve -/

/-- **All imports that are reached from a root resolve**: a walk along them finds a source for
whatever it asks, and comes to its end. -/
structure Resolver.ResolvesFrom (r : Resolver) (root : SourceUnit) : Prop where
  /-- Whatever is asked is found. -/
  found : ∀ e ∈ r.exchanges (r.walk ⟨false, false⟩ root).queries,
    ∃ unit, e.resolution = .found unit
  /-- The walk is not led on without an end. -/
  ends : (r.walk ⟨false, false⟩ root).outcome ≠ .error .endless

namespace Resolver.ResolvesFrom

variable {r : Resolver} {root : SourceUnit}

/-- What is passed over makes no difference, as nothing is. -/
theorem walk_eq (h : r.ResolvesFrom root) (tolerance : Tolerance) :
    r.walk tolerance root = r.walk ⟨false, false⟩ root := by
  refine walkFrom_eq_of_passes fun e he => ?_
  obtain ⟨unit, hanswer⟩ := h.found e he
  rw [hanswer]
  rfl

/-- The walk meets no obstacle. -/
theorem exists_outcome (h : r.ResolvesFrom root) (tolerance : Tolerance) :
    ∃ units, (r.walk tolerance root).outcome = .ok units := by
  rw [h.walk_eq]
  cases hout : (r.walk ⟨false, false⟩ root).outcome with
  | ok units => exact ⟨units, rfl⟩
  | error obstacle =>
    exfalso
    have hmet := isMet_of_walk hout
    cases obstacle with
    | absent q =>
      obtain ⟨unit, hanswer⟩ := h.found _ hmet
      cases hanswer
    | raised failure | crashed =>
      obtain ⟨q, hq⟩ := hmet
      obtain ⟨unit, hanswer⟩ := h.found _ hq
      cases hanswer
    | endless => exact h.ends hout

/-- The engine finds the sources as well. -/
theorem exists_sources_guarded (h : r.ResolvesFrom root) (tolerance : Tolerance) :
    ∃ units, (r.guarded.walk tolerance root).sources = .ok units := by
  obtain ⟨units, hout⟩ := h.exists_outcome tolerance
  exact ⟨units, by rw [walk_guarded, Walk.sources, Walk.passedOn, hout]; rfl⟩

/-- No failure is raised. -/
theorem firstFailure?_eq_none (h : r.ResolvesFrom root) (tolerance : Tolerance) :
    r.firstFailure? (r.guarded.walk tolerance root).queries = none := by
  refine firstFailure?_eq_none_iff.2 fun e he failure hraised => ?_
  rw [walk_guarded, Walk.passedOn, h.walk_eq] at he
  obtain ⟨unit, hanswer⟩ := h.found e he
  cases hanswer.symm.trans hraised

end Resolver.ResolvesFrom

namespace Scripted.Script

/-- **A script that is not told to fail.** -/
structure NeverFails (script : Script) : Prop where
  /-- Compilations succeed. -/
  compiles : script.compileFails = false
  /-- Witness computations succeed. -/
  computes : script.witnessFails = false
  /-- No field is broken. -/
  reads : script.brokenField = none

/-- A provider on the scripted engine. -/
def provider (script : Script) (options : ProviderOptions) : Provider State Handle Handle :=
  ⟨script.engine, options⟩

variable {script : Script} {options : ProviderOptions}

/-! ## What each operation yields -/

/-- All wanted fields are read. -/
theorem NeverFails.readOutcome {α : Type} (h : script.NeverFails) (operation : String)
    (wanted : List String) (value : α) :
    script.readOutcome operation wanted value = .ok value := by
  have hnone : wanted.find? (script.brokenField = some ·) = none := by
    simp [h.reads]
  rw [Script.readOutcome, hnone]

/-- **A compilation yields the program and the interface of the script.** -/
theorem NeverFails.always_compile (h : script.NeverFails) {source : String} {call : CompileOptions}
    (hresolves : (call.request (some options)).resolver.ResolvesFrom
      ⟨(call.request (some options)).location, source⟩) :
    ((script.provider options).compile source call).Always
      (.ok ⟨script.program, script.abi,
        if call.snarkjs then some script.snarkjsProgram else none⟩) := by
  intro s
  obtain ⟨units, hsources⟩ := hresolves.exists_sources_guarded script.tolerance
  have hquiet := hresolves.firstFailure?_eq_none script.tolerance
  have hfst := script.compile_fst ⟨(call.request (some options)).location, source⟩
    (call.request (some options)).resolver.guarded (call.request (some options)).flags
    (call.request (some options)).curve s
  cases hcall : script.engine.compileCall source (call.request (some options)) s with
  | mk answer s' =>
    have hanswer : answer = _ := (congrArg Prod.fst hcall).symm.trans hfst
    have hok : answer.outcome = .ok ⟨s.ledger.issued⟩ := by
      rw [hanswer]
      simp [hsources, h.compiles]
    have hraised : (call.request (some options)).resolver.firstFailure? answer.trace = none := by
      rw [hanswer]
      exact hquiet
    show ((script.engine.compileProgram source call (some options)).run s).1 = _
    rw [Engine.run_compileProgram_of_ok hcall hok hraised]
    show ((script.engine.compiledFields ⟨s.ledger.issued⟩ call.snarkjs).run s').1 = _
    rw [run_compiledFields, h.readOutcome]

/-- **A witness computation yields the witness and the output of the script**, whatever program is
run. -/
theorem NeverFails.always_witness (h : script.NeverFails) {input : ProgramInput} {args : Argument}
    {text : String} (hencoded : args.encode = .ok text) {call : WitnessOptions}
    (haccepts : (call.request.logger.deliver [] script.logLines).2 = true) :
    ((script.provider options).witness input args call).Always
      (.ok ⟨script.witness, script.output,
        if call.snarkjs then some script.snarkjsWitness else none⟩) := by
  intro s
  have hok : (script.engine.witnessCall input text call s).1.outcome
      = .ok ⟨s.ledger.issued⟩ := by
    have hheard := call.request.logger.deliver_listener [] script.logLines
      (computing s input text call.request.snarkjs)
    show (script.computeWitness input text call.request.snarkjs
      call.request.logger.listener s).1.outcome = _
    rw [computeWitness_of_heard hheard, haccepts, h.computes]
    rfl
  cases hcall : script.engine.witnessCall input text call s with
  | mk answer s' =>
    rw [hcall] at hok
    show (script.engine.runProgram input args call s).1.outcome = _
    rw [Engine.runProgram_of_ok hencoded hcall hok]
    show ((script.engine.computedFields ⟨s.ledger.issued⟩ call.snarkjs).run s').1 = _
    rw [run_computedFields, h.readOutcome]

/-- What is required holds, or the run ends there. -/
theorem always_require_bind {α : Type} {condition : Bool} {e : Error} {x : Run State α}
    {outcome : Except Stop α} (h : x.Always outcome) :
    (require condition e >>= fun _ => x).Always
      (if condition then outcome else .error (.failed e)) := by
  cases condition with
  | true => exact Run.Always.bind (a := ()) (fun _ => rfl) h
  | false => exact Run.Always.bind_error fun _ => rfl

/-- What is recorded decides nothing. -/
theorem always_recordCall_bind {α : Type} {add : Calls → Calls} {x : Run State α}
    {outcome : Except Stop α} (h : x.Always outcome) :
    ((liftM (recordCall add) : Run State Unit) >>= fun _ => x).Always outcome :=
  Run.Always.bind (a := ()) (fun _ => rfl) h

/-- The error for a backend that does not support a scheme. -/
def unsupported (stage : Stage) (options : ProviderOptions) : Error :=
  .stage stage ("backend `" ++ options.backend.name ++ "` does not support scheme `"
    ++ options.scheme.name ++ "`")

/-- **A setup** yields the keys of the script, if the scheme is supported. -/
theorem always_setup (script : Script) (options : ProviderOptions) (program : Bytes)
    (entropy : Option Bytes) :
    ((script.provider options).setup program entropy).Always
      (if supports options.backend options.scheme then .ok script.keypair
        else .error (.failed (unsupported .setup options))) := by
  refine always_recordCall_bind (always_recordCall_bind ?_)
  exact always_require_bind fun _ => rfl

/-- A universal setup yields the reference string of the script. -/
theorem always_universalSetup (script : Script) (size : UInt32) (entropy : Option Bytes) :
    ((script.provider options).universalSetup size entropy).Always (.ok script.reference) :=
  always_recordCall_bind (always_recordCall_bind fun _ => rfl)

/-- **A setup from a reference string** yields the same keys, if it is the string of the script. -/
theorem always_setupFromReference (script : Script) (options : ProviderOptions)
    (reference program : Bytes) :
    ((script.provider options).setupFromReference reference program).Always
      (if supports options.backend options.scheme then
        if reference == script.reference then .ok script.keypair
        else .error (.failed (.stage .setup "srs does not match"))
      else .error (.failed (unsupported .setup options))) := by
  refine always_recordCall_bind ?_
  exact always_require_bind (always_require_bind fun _ => rfl)

/-- **A proof** is made for the proving key and the witness of the script. -/
theorem always_generateProof (script : Script) (options : ProviderOptions)
    (program witness provingKey : Bytes) (entropy : Option Bytes) :
    ((script.provider options).generateProof program witness provingKey entropy).Always
      (if provingKey == script.keypair.provingKey then
        if witness == script.witness then .ok script.proof
        else .error (.failed (.stage .proof "witness does not match program"))
      else .error (.failed (.stage .proof "proving key does not match program"))) := by
  refine always_recordCall_bind (always_recordCall_bind ?_)
  exact always_require_bind (always_require_bind fun _ => rfl)

/-- **A verification** accepts the proof of the script under its verification key. -/
theorem always_verify (script : Script) (options : ProviderOptions)
    (verificationKey proof : Bytes) :
    ((script.provider options).verify verificationKey proof).Always
      (if supports options.backend options.scheme then
        .ok (verificationKey == script.keypair.verificationKey && proof == script.proof)
      else .error (.failed (unsupported .verify options))) := by
  refine always_recordCall_bind ?_
  exact always_require_bind fun _ => rfl

/-- **Keys are those of the script**, wherever they come from. -/
theorem always_makeKeys (script : Script) (program : Bytes)
    (h : supports options.backend options.scheme = true) (keys : KeySource) :
    ((script.provider options).makeKeys program keys).Always (.ok script.keypair) := by
  cases keys with
  | program entropy =>
    have hsetup := script.always_setup options program entropy
    rwa [if_pos h] at hsetup
  | reference size entropy =>
    have hsetup := script.always_setupFromReference options script.reference program
    rw [if_pos h, if_pos (beq_self_eq_true _)] at hsetup
    exact (script.always_universalSetup size entropy).bind hsetup

/-! ## The operations together -/

/-- **A caller's decisions that nothing stands in the way of.** -/
structure Feasible (script : Script) (options : ProviderOptions) (u : Undertaking) : Prop where
  /-- All imports that are reached resolve. -/
  resolves : (u.compile.request (some options)).resolver.ResolvesFrom
    ⟨(u.compile.request (some options)).location, u.source⟩
  /-- The arguments can be encoded. -/
  encodes : ∃ text, u.args.encode = .ok text
  /-- The logger does not break off at what the program logs. -/
  logs : (u.witness.request.logger.deliver [] script.logLines).2 = true

/-- **The whole way leads to a verified proof.** -/
theorem NeverFails.always_proveAndVerify (h : script.NeverFails)
    (hsupports : supports options.backend options.scheme = true) {u : Undertaking}
    (hu : script.Feasible options u) :
    ((script.provider options).proveAndVerify u).Always (.ok true) := by
  obtain ⟨text, hencoded⟩ := hu.encodes
  have hproof := script.always_generateProof options script.program script.witness
    script.keypair.provingKey u.entropy
  have hverdict := script.always_verify options script.keypair.verificationKey
    script.proof
  simp only [beq_self_eq_true, if_true] at hproof
  simp only [hsupports, beq_self_eq_true, Bool.and_self, if_true] at hverdict
  refine (h.always_compile hu.resolves).bind ?_
  refine (h.always_witness hencoded hu.logs).bind ?_
  refine (script.always_makeKeys script.program hsupports u.keys).bind ?_
  exact hproof.bind hverdict

/-- **The scripted engine is complete and sound**, on a provider with any backend, scheme and curve.
Keys can be made if the backend supports the scheme, and then a script that is not told to fail
leads from a source to a verified proof, whatever the caller decides on the way and whatever was
done before; and a proof is verified if it is the proof of the script, under its key, and no other
is. A proof is made for the proving key and the witness of the script, and for nothing else. -/
theorem proveAndVerify_complete_and_sound (script : Script) (options : ProviderOptions) :
    (∀ program entropy s,
      (∃ keys, (((script.provider options).setup program entropy).run s).1 = .ok keys)
        ↔ supports options.backend options.scheme = true)
      ∧ (supports options.backend options.scheme = true →
        (script.NeverFails → ∀ u s, script.Feasible options u →
          (((script.provider options).proveAndVerify u).run s).1 = .ok true)
        ∧ ∀ verificationKey proof s, ∃ verdict,
          (((script.provider options).verify verificationKey proof).run s).1 = .ok verdict
            ∧ (verdict = true
              ↔ verificationKey = script.keypair.verificationKey ∧ proof = script.proof))
      ∧ ∀ program witness provingKey entropy s,
        (∃ proof, (((script.provider options).generateProof program witness provingKey
            entropy).run s).1 = .ok proof)
          ↔ provingKey = script.keypair.provingKey ∧ witness = script.witness := by
  refine ⟨fun program entropy s => ?_, fun hsupports => ⟨fun h u s hu => ?_, ?_⟩, ?_⟩
  · rw [script.always_setup options program entropy s]
    split <;> simp_all
  · exact h.always_proveAndVerify hsupports hu s
  · intro verificationKey proof s
    have hverdict := script.always_verify options verificationKey proof s
    rw [if_pos hsupports] at hverdict
    exact ⟨_, hverdict, by simp⟩
  · intro program witness provingKey entropy s
    rw [script.always_generateProof options program witness provingKey entropy s]
    split_ifs <;> simp_all

/-- A source with an import, which is found. The program is run without its interface, and its keys
come from a reference string. -/
def importing : Undertaking where
  source := "import \"lib\";"
  compile :=
    { resolver := some (Lookup.resolver ⟨fun _ path => .found ⟨path, ""⟩, 1⟩), snarkjs := true }
  bare := true
  args := .sequence [.text "3"]
  witness := {}
  keys := .reference 10 none
  entropy := some [1]

/-- **One whole way**, with lines logged on it. The proof at its end is verified, another one is
not, and no proof is made for another witness. -/
theorem proveAndVerify_complete_and_sound_importing :
    (((Script.provider { logLines := ["step"] } {}).proveAndVerify importing).run {}).1 = .ok true
      ∧ (((Script.provider {} {}).verify (Text.Utf8.encode "mock-vk") []).run {}).1 = .ok false
      ∧ ¬ ∃ proof, (((Script.provider {} {}).generateProof [] [] (Text.Utf8.encode "mock-pk")
          none).run {}).1 = .ok proof := by
  obtain ⟨-, hsupported, -⟩ := proveAndVerify_complete_and_sound { logLines := ["step"] } {}
  obtain ⟨-, hplain, hproofs⟩ := proveAndVerify_complete_and_sound {} {}
  have hends : ((importing.compile.request (some {})).resolver.walk ⟨false, false⟩
      ⟨"main.zok", importing.source⟩).outcome ≠ .error .endless := by
    intro h
    cbv at h
    cases h
  have hencoded : ∃ text, importing.args.encode = .ok text := ⟨"[\"3\"]", by cbv⟩
  have hlogs : (importing.witness.request.logger.deliver [] ["step"]).2 = true := by cbv
  refine ⟨(hsupported rfl).1 ⟨rfl, rfl, rfl⟩ importing {} ⟨⟨?_, hends⟩, hencoded, hlogs⟩, ?_, ?_⟩
  · intro e he
    obtain ⟨q, -, rfl⟩ := List.mem_map.1 (Lookup.exchanges_resolver _ _ ▸ he)
    exact ⟨⟨q.path, ""⟩, rfl⟩
  · obtain ⟨verdict, hverdict, hiff⟩ := (hplain rfl).2 (Text.Utf8.encode "mock-vk") [] {}
    have hfalse : verdict = false := by
      refine Bool.eq_false_iff.2 fun htrue => ?_
      have hproof := (hiff.1 htrue).2
      cbv at hproof
      cases hproof
    rw [hverdict, hfalse]
  · rw [hproofs]
    rintro ⟨-, hwitness⟩
    cbv at hwitness
    cases hwitness

end Scripted.Script

end ProofToolchain
