import Mathlib
import ProofToolchain.Proofs.Import.Exchange
import ProofToolchain.Proofs.Pipeline
import ProofToolchain.Proofs.Scripted.Reading
import ProofToolchain.Session.Basic

/-!
# Every handle is accounted for

Providers hand out results and no handles, so whoever works through providers has nothing to
release. That is only right if each operation cleans up after itself, and there are many ways out
of one: a resolver that raises while the engine carries on, each of three readings that can fail,
an engine that fails or is broken off by a callback.

The ledger of the scripted engine tells. An operation adds at most one record to it, which is
complete when the operation is over: it was released once, it was not read after that, and the
fields it was read for are the ones that the way out allows (`Script.operationRecord?`). No other
record is touched (`Script.records_perform`), so what holds of one operation holds of a session of
any length over any number of providers (`Script.isAccountedFor_after`).
-/

namespace ProofToolchain

namespace Scripted

/-! ## What the engine itself does -/

/-- **What an engine call does to the ledger**: a handle that it yields is issued, and nothing
else is. -/
def Issues (kind : String) (s : State) (outcome : Except Stop Handle) (s' : State) : Prop :=
  match outcome with
  | .ok handle => handle = ⟨s.ledger.issued⟩ ∧ s'.ledger = s.ledger.issue kind
  | .error _ => s'.ledger = s.ledger

namespace Script

theorem issues_compile (script : Script) (root : SourceUnit) (resolver : Resolver)
    (flags : Flags) (curve : Curve) (s : State) :
    Issues compileOperation s (script.compile root resolver flags curve s).1.outcome
      (script.compile root resolver flags curve s).2 := by
  unfold compile
  dsimp only
  cases (resolver.walk script.tolerance root).sources with
  | error stop => cases stop <;> rfl
  | ok units =>
    by_cases hf : script.compileFails = true
    · simp only [hf, if_true]
      rfl
    · simp only [hf]
      exact ⟨rfl, rfl⟩

/-- The state once a witness computation is recorded. -/
def computing (s : State) (input : ProgramInput) (args : String) (snarkjs : Bool) : State :=
  { s with calls := { s.calls with
      computeWitness := s.calls.computeWitness ++ [⟨input, args, snarkjs⟩] } }

/-- **How a witness computation ends** once its listener has heard what it hears. -/
theorem computeWitness_of_heard {script : Script} {input : ProgramInput} {args : String}
    {snarkjs : Bool} {listener : Listener State} {s s' : State} {delivered : List String}
    {complete : Bool}
    (h : listener.deliver [] script.logLines (computing s input args snarkjs)
      = ((delivered, complete), s')) :
    script.computeWitness input args snarkjs listener s
      = if !complete then (⟨delivered, .error .crashed⟩, s')
        else if script.witnessFails then
          (⟨delivered, .error (.failed (.stage .witness "scripted failure"))⟩, s')
        else
          (⟨delivered, .ok ⟨s'.ledger.issued⟩⟩,
            { s' with ledger := s'.ledger.issue witnessOperation }) := by
  have h' : listener.deliver [] script.logLines { s with calls := { s.calls with
      computeWitness := s.calls.computeWitness ++ [⟨input, args, snarkjs⟩] } } = _ := h
  simp only [computeWitness, recordCall, bind, StateT.bind, modify, modifyGet, MonadState.modifyGet,
    MonadStateOf.modifyGet, StateT.modifyGet, pure, h']
  cases complete with
  | false => rfl
  | true => by_cases hf : script.witnessFails = true <;> simp only [hf] <;> rfl

theorem issues_computeWitness (script : Script) (input : ProgramInput) (args : String)
    (snarkjs : Bool) (logger : Logger) (s : State) :
    Issues witnessOperation s
      (script.computeWitness input args snarkjs logger.listener s).1.outcome
      (script.computeWitness input args snarkjs logger.listener s).2 := by
  have hheard := logger.deliver_listener [] script.logLines (computing s input args snarkjs)
  generalize logger.deliver [] script.logLines = heard at hheard
  obtain ⟨delivered, complete⟩ := heard
  rw [computeWitness_of_heard hheard]
  cases complete with
  | false => rfl
  | true => by_cases hf : script.witnessFails = true <;> simp [hf, Issues, computing]

/-! ## What an operation leaves behind -/

/-- **The record that a compilation adds to the ledger**, if the engine call yields a handle. A
failure that the resolver raised leaves the handle unread. -/
def compileRecord? (script : Script) (source : String) (request : CompileRequest) (s : State) :
    Option HandleRecord :=
  let call := (script.engine.compileCall source request s).1
  match call.outcome with
  | .error _ => none
  | .ok _ =>
    if (request.resolver.exchanges call.trace).any fun e => e.failure?.isSome then
      some (.spent "compile" [])
    else some (.spent "compile" (script.fieldsRead (compileFields request.snarkjs)))

/-- **The record that a witness computation adds to the ledger**, if its arguments are encoded and
the engine call yields a handle. -/
def witnessRecord? (script : Script) (input : ProgramInput) (args : Argument)
    (options : WitnessOptions) (s : State) : Option HandleRecord :=
  match args.encode with
  | .error _ => none
  | .ok text =>
    match (script.engine.witnessCall input text options s).1.outcome with
    | .error _ => none
    | .ok _ =>
      some (.spent "compute_witness" (script.fieldsRead (witnessFields options.snarkjs)))

/-- **The record that an operation adds to the ledger.** -/
def operationRecord? (script : Script) (bound : Option ProviderOptions) (s : State) :
    Operation → Option HandleRecord
  | .compile source options => script.compileRecord? source (options.request bound) s
  | .computeWitness input args options => script.witnessRecord? input args options s
  | _ => none

/-- An answer that raised a failure makes a first failure, and there is no other way to one. -/
theorem isSome_firstFailure? (r : Resolver) (asked : List Query) :
    (r.firstFailure? asked).isSome = (r.exchanges asked).any fun e => e.failure?.isSome := by
  rw [Resolver.firstFailure?_eq, List.isSome_findSome?]

/-- A handle that is issued, read and released adds its record to the ledger. -/
theorem records_of_issues {kind : String} {s s' : State} {handle : Handle}
    (h : Issues kind s (.ok handle) s') (fields : List String) :
    ((s'.ledger.noteAll handle.number fields).noteRelease handle.number).records
      = s.ledger.records ++ [.spent kind fields] := by
  obtain ⟨rfl, hledger⟩ := h
  rw [hledger]
  exact Ledger.records_spent s.ledger kind fields

/-- **A compilation adds its record to the ledger** and touches no other. -/
theorem records_compileProgram (script : Script) (source : String) (options : CompileOptions)
    (bound : Option ProviderOptions) (s : State) :
    ((script.engine.compileProgram source options bound).run s).2.ledger.records
      = s.ledger.records
        ++ (script.compileRecord? source (options.request bound) s).toList := by
  have hissues := script.issues_compile ⟨(options.request bound).location, source⟩
    (options.request bound).resolver.guarded (options.request bound).flags
    (options.request bound).curve s
  unfold compileRecord?
  cases hcall : script.engine.compileCall source (options.request bound) s with
  | mk call s' =>
    rw [show script.compile _ _ _ _ s = (call, s') from hcall] at hissues
    dsimp only at hissues ⊢
    rw [← isSome_firstFailure?]
    cases hout : call.outcome with
    | error stop =>
      rw [hout] at hissues
      rw [Engine.run_compileProgram_of_error hcall hout]
      simpa using congrArg Ledger.records hissues
    | ok handle =>
      rw [hout] at hissues
      -- there is a handle, and whether it is read depends on what the resolver did meanwhile
      cases hraised : (options.request bound).resolver.firstFailure? call.trace with
      | some failure =>
        rw [Engine.run_compileProgram_of_raised hcall hout hraised]
        exact records_of_issues hissues []
      | none =>
        rw [Engine.run_compileProgram_of_ok hcall hout hraised, run_compiledFields]
        exact records_of_issues hissues _

/-- **A witness computation adds its record to the ledger** and touches no other. -/
theorem records_runProgram (script : Script) (input : ProgramInput) (args : Argument)
    (options : WitnessOptions) (s : State) :
    (script.engine.runProgram input args options s).2.ledger.records
      = s.ledger.records ++ (script.witnessRecord? input args options s).toList := by
  unfold witnessRecord?
  cases henc : args.encode with
  | error e =>
    rw [Engine.runProgram_of_not_encoded henc]
    simp
  | ok text =>
    have hissues := script.issues_computeWitness input text options.request.snarkjs
      options.request.logger s
    dsimp only
    cases hcall : script.engine.witnessCall input text options s with
    | mk call s' =>
      rw [show script.computeWitness _ _ _ _ s = (call, s') from hcall] at hissues
      dsimp only at hissues ⊢
      cases hout : call.outcome with
      | error stop =>
        rw [hout] at hissues
        rw [Engine.runProgram_of_error henc hcall hout]
        simpa using congrArg Ledger.records hissues
      | ok handle =>
        rw [hout] at hissues
        rw [Engine.runProgram_of_ok henc hcall hout, run_computedFields]
        exact records_of_issues hissues _

/-! ### Operations without a handle -/

theorem keeps_recordCall (add : Calls → Calls) :
    Run.Keeps State.ledger (liftM (recordCall add) : Run State Unit) :=
  Run.Keeps.modify fun _ => rfl

theorem keeps_recordOptions (entry : String) (options : ProviderOptions) :
    Run.Keeps State.ledger (liftM (recordOptions entry options) : Run State Unit) :=
  keeps_recordCall _

theorem keeps_recordEntropy (entropy : Option Bytes) :
    Run.Keeps State.ledger (liftM (recordEntropy entropy) : Run State Unit) :=
  keeps_recordCall _

theorem keeps_require (condition : Bool) (error : Error) :
    Run.Keeps State.ledger (require condition error) := by
  cases condition with
  | true => exact Run.Keeps.pure ()
  | false => exact Run.Keeps.fail error

theorem keeps_requireSupport (stage : Stage) (options : ProviderOptions) :
    Run.Keeps State.ledger (requireSupport stage options) :=
  keeps_require (supports options.backend options.scheme) _

theorem keeps_setup (script : Script) (entropy : Option Bytes) (options : ProviderOptions) :
    Run.Keeps State.ledger (script.setup entropy options) :=
  (keeps_recordOptions _ _).bind fun _ => (keeps_recordEntropy _).bind fun _ =>
    (keeps_requireSupport _ _).bind fun _ => .pure _

theorem keeps_universalSetup (script : Script) (curve : Curve) (size : UInt32)
    (entropy : Option Bytes) : Run.Keeps State.ledger (script.universalSetup curve size entropy) :=
  (keeps_recordCall _).bind fun _ => (keeps_recordEntropy _).bind fun _ => .pure _

theorem keeps_setupFromReference (script : Script) (reference : Bytes)
    (options : ProviderOptions) :
    Run.Keeps State.ledger (script.setupFromReference reference options) :=
  (keeps_recordOptions _ _).bind fun _ => (keeps_requireSupport _ _).bind fun _ =>
    (keeps_require _ _).bind fun _ => .pure _

theorem keeps_generateProof (script : Script) (witness provingKey : Bytes)
    (entropy : Option Bytes) (options : ProviderOptions) :
    Run.Keeps State.ledger (script.generateProof witness provingKey entropy options) :=
  (keeps_recordOptions _ _).bind fun _ => (keeps_recordEntropy _).bind fun _ =>
    (keeps_require _ _).bind fun _ => (keeps_require _ _).bind fun _ => .pure _

theorem keeps_verify (script : Script) (verificationKey proof : Bytes)
    (options : ProviderOptions) :
    Run.Keeps State.ledger (script.verify verificationKey proof options) :=
  (keeps_recordOptions _ _).bind fun _ => (keeps_requireSupport _ _).bind fun _ => .pure _

theorem keeps_exportVerifier (script : Script) (verificationKey : Bytes) :
    Run.Keeps State.ledger (script.exportVerifier verificationKey) :=
  (keeps_require _ _).bind fun _ => .pure _

/-- A run without a handle adds no record. -/
theorem records_of_keeps {α : Type} {run : Run State α} (h : Run.Keeps State.ledger run)
    (f : α → Reply) (s : State) :
    (Run.asCall (τ := String) (f <$> run) s).2.ledger.records = s.ledger.records :=
  congrArg Ledger.records (h.map f s)

/-- **An operation adds its record to the ledger** and touches no other, on every route. -/
theorem records_perform (script : Script) (options : ProviderOptions) (route : Route)
    (operation : Operation) (s : State) :
    (script.engine.perform options route operation s).2.ledger.records
      = s.ledger.records
        ++ (script.operationRecord? (route.bound options) s operation).toList := by
  cases operation with
  | compile source call =>
    have hmap := Run.run_map Reply.artifact
      (script.engine.compileProgram source call (route.bound options)) s
    refine Eq.trans ?_ (records_compileProgram script source call (route.bound options) s)
    exact congrArg (·.2.ledger.records) hmap
  | computeWitness input args call => exact records_runProgram script input args call s
  | setup program entropy =>
    exact (records_of_keeps (keeps_setup script entropy _) _ s).trans (List.append_nil _).symm
  | universalSetup size entropy =>
    exact (records_of_keeps (keeps_universalSetup script _ size entropy) _ s).trans
      (List.append_nil _).symm
  | setupFromReference reference program =>
    exact (records_of_keeps (keeps_setupFromReference script reference _) _ s).trans
      (List.append_nil _).symm
  | generateProof program witness provingKey entropy =>
    exact (records_of_keeps (keeps_generateProof script witness provingKey entropy _) _ s).trans
      (List.append_nil _).symm
  | verify verificationKey proof =>
    exact (records_of_keeps (keeps_verify script verificationKey proof _) _ s).trans
      (List.append_nil _).symm
  | exportVerifier verificationKey =>
    exact (records_of_keeps (keeps_exportVerifier script verificationKey) _ s).trans
      (List.append_nil _).symm
  | formatProof proof =>
    exact (records_of_keeps (Run.Keeps.pure (Script.formatProof proof)) _ s).trans
      (List.append_nil _).symm

end Script

end Scripted

/-! ## Sessions through providers -/

/-- **Whether a command works through a provider**, so that no handle is its caller's. -/
def Command.isPipeline : Command → Bool
  | .name | .options _ | .clone _ | .rebind .. | .perform .. => true
  | .hold .. | .read .. | .release _ | .drop _ => false

/-- What is asked of a missing provider changes nothing, and neither does what changes no
engine. -/
theorem Session.state_withProvider {σ κ ω : Type} {s : Session σ κ ω} {on : Nat}
    {act : ProviderOptions → Report × Session σ κ ω}
    (h : ∀ options, (act options).2.state = s.state) :
    (s.withProvider on act).2.state = s.state := by
  unfold withProvider
  split
  · exact h _
  · rfl

namespace Scripted

/-- A session with the scripted engine. -/
abbrev ScriptedSession := Session State Handle Handle

namespace Script

/-- **The record that a command adds to the ledger**, which is that of its operation if it has one
and there is a provider for it. -/
def commandRecord? (script : Script) (s : ScriptedSession) : Command → Option HandleRecord
  | .perform on route operation =>
    s.providers[on]?.bind fun options =>
      script.operationRecord? (route.bound options) s.state operation
  | _ => none

/-- **A command adds its record to the ledger** and touches no other. -/
theorem records_step (script : Script) (s : ScriptedSession) {command : Command}
    (h : command.isPipeline = true) :
    (s.step script.engine command).2.state.ledger.records
      = s.state.ledger.records ++ (script.commandRecord? s command).toList := by
  have hkept : ∀ s' : ScriptedSession, s'.state = s.state →
      s'.state.ledger.records = s.state.ledger.records ++ (none : Option HandleRecord).toList := by
    intro s' hs'
    rw [hs', Option.toList_none, List.append_nil]
  cases command with
  | name => exact hkept _ rfl
  | options on => exact hkept _ (Session.state_withProvider fun _ => rfl)
  | clone on => exact hkept _ (Session.state_withProvider fun _ => rfl)
  | rebind on options => exact hkept _ (Session.state_withProvider fun _ => rfl)
  | perform on route operation =>
    simp only [Session.step, Session.withProvider, commandRecord?]
    cases s.providers[on]? with
    | none => exact hkept s rfl
    | some options => exact records_perform script options route operation s.state
  | hold | read | release | drop => cases h

/-! ## Sessions of any length -/

/-- **A handle is accounted for**: it was released once and not read after that, and it was read
for what its operation reads, in that order and from the first field on. -/
structure IsAccountedFor (r : HandleRecord) : Prop where
  /-- It was released, and not twice. -/
  releases : r.releases = 1
  /-- It was not read once it was released. -/
  extractedAfterRelease : r.extractedAfterRelease = 0
  /-- The fields it was read for start a compilation's or a witness computation's. -/
  extractions :
    (r.kind = "compile" ∧ r.extractions <+: ["program", "abi", "snarkjs_program"])
      ∨ (r.kind = "compute_witness" ∧ r.extractions <+: ["witness", "output", "snarkjs_witness"])

/-- What is wanted without the form that `snarkjs` reads starts what is wanted with it. -/
theorem isPrefix_wantedFields (first second third : String) (snarkjs : Bool) :
    wantedFields first second third snarkjs <+: [first, second, third] := by
  cases snarkjs with
  | true => exact List.prefix_rfl
  | false => exact ⟨[third], rfl⟩

theorem isAccountedFor_of_compileRecord? {script : Script} {source : String}
    {request : CompileRequest} {s : State} {r : HandleRecord}
    (h : r ∈ script.compileRecord? source request s) : IsAccountedFor r := by
  unfold compileRecord? at h
  dsimp only at h
  split at h
  · cases h
  · split at h
    · cases h
      exact ⟨rfl, rfl, .inl ⟨rfl, List.nil_prefix⟩⟩
    · cases h
      exact ⟨rfl, rfl, .inl ⟨rfl,
        (script.isPrefix_fieldsRead _).trans (isPrefix_wantedFields _ _ _ _)⟩⟩

theorem isAccountedFor_of_witnessRecord? {script : Script} {input : ProgramInput}
    {args : Argument} {options : WitnessOptions} {s : State} {r : HandleRecord}
    (h : r ∈ script.witnessRecord? input args options s) : IsAccountedFor r := by
  unfold witnessRecord? at h
  split at h
  · cases h
  · split at h
    · cases h
    · cases h
      exact ⟨rfl, rfl, .inr ⟨rfl,
        (script.isPrefix_fieldsRead _).trans (isPrefix_wantedFields _ _ _ _)⟩⟩

/-- Whatever a command adds to the ledger is accounted for. -/
theorem isAccountedFor_of_commandRecord? {script : Script} {s : ScriptedSession}
    {command : Command} {r : HandleRecord} (h : r ∈ script.commandRecord? s command) :
    IsAccountedFor r := by
  cases command with
  | perform on route operation =>
    obtain ⟨options, -, hr⟩ := Option.bind_eq_some_iff.1 h
    cases operation with
    | compile source call => exact isAccountedFor_of_compileRecord? hr
    | computeWitness input args call => exact isAccountedFor_of_witnessRecord? hr
    | _ => cases hr
  | _ => cases h

/-- The session after some commands, all run with the scripted engine. -/
def after (script : Script) (s : ScriptedSession) (commands : List Command) : ScriptedSession :=
  (s.runAll (commands.map fun command => (script.engine, command))).2

@[simp] theorem after_nil (script : Script) (s : ScriptedSession) : script.after s [] = s := rfl

@[simp] theorem after_cons (script : Script) (s : ScriptedSession) (command : Command)
    (rest : List Command) :
    script.after s (command :: rest) = script.after (s.step script.engine command).2 rest := rfl

theorem after_append (script : Script) (s : ScriptedSession) (commands more : List Command) :
    script.after s (commands ++ more) = script.after (script.after s commands) more := by
  induction commands generalizing s with
  | nil => rfl
  | cons command rest ih => exact ih (s.step script.engine command).2

/-- **Commands keep the ledger accounted for**, one after another. -/
theorem isAccountedFor_after {script : Script} {s : ScriptedSession} {commands : List Command}
    (hs : ∀ r ∈ s.state.ledger.records, IsAccountedFor r)
    (hcommands : ∀ command ∈ commands, command.isPipeline = true) :
    ∀ r ∈ (script.after s commands).state.ledger.records, IsAccountedFor r := by
  induction commands generalizing s with
  | nil => exact hs
  | cons command rest ih =>
    -- the command adds a record that is accounted for, and keeps those before it
    have hstep : ∀ r ∈ (s.step script.engine command).2.state.ledger.records,
        IsAccountedFor r := by
      intro r hr
      rw [records_step script s (hcommands command List.mem_cons_self)] at hr
      rcases List.mem_append.1 hr with hr | hr
      · exact hs r hr
      · exact isAccountedFor_of_commandRecord? (Option.mem_toList.1 hr)
    exact ih hstep fun c hc => hcommands c (List.mem_cons_of_mem command hc)

/-- **Between operations every handle is accounted for.** After any commands through any number of
providers each record of the ledger is complete. A further command leaves all of them as they are
and adds at most one, that of its own handle: none where the engine call yields none, one without a
reading where the resolver raised a failure, and otherwise one with the fields that were read. These
are the wanted fields up to and including a broken one, and all of them where none is broken. -/
theorem handles_accounted_for (script : Script) (providers : List ProviderOptions)
    (commands : List Command) (hcommands : ∀ command ∈ commands, command.isPipeline = true) :
    (∀ r ∈ (script.after { state := {}, providers } commands).state.ledger.records,
      IsAccountedFor r)
    ∧ (∀ command : Command, command.isPipeline = true →
        (script.after { state := {}, providers } (commands ++ [command])).state.ledger.records
          = (script.after { state := {}, providers } commands).state.ledger.records
            ++ (script.commandRecord? (script.after { state := {}, providers } commands)
                command).toList)
    ∧ (∀ field before rest, script.brokenField = some field → field ∉ before →
        script.fieldsRead (before ++ field :: rest) = before ++ [field])
    ∧ ∀ wanted, (∀ field ∈ wanted, script.brokenField ≠ some field) →
        script.fieldsRead wanted = wanted := by
  refine ⟨isAccountedFor_after (fun r hr => absurd hr List.not_mem_nil) hcommands, ?_,
    fun _ _ _ => fieldsRead_of_broken, fun _ => fieldsRead_of_forall_ne⟩
  intro command hcommand
  -- what comes after the further command is one step from what was there before
  rw [after_append, after_cons, after_nil]
  exact records_step script _ hcommand

/-- An engine that carries on after a failure, and whose outputs cannot be read. -/
def swallowing : Script := { swallowsFailures := true, brokenField := some "output" }

/-- A compilation whose resolver raises a failure, and a witness computation as a task of another
provider. -/
def mixedCommands : List Command :=
  [.perform 0 .provider (.compile "import \"./lib\";"
      { resolver := some (Lookup.resolver ⟨fun _ _ => .raised ⟨"offline", []⟩, 0⟩) }),
    .clone 0,
    .perform 1 .task (.computeWitness ⟨[], none⟩ (.sequence []) { snarkjs := true })]

/-- Both handles are accounted for: one is released unread, the other after the field that cannot
be read. -/
theorem handles_accounted_for_mixedCommands :
    (∀ command ∈ mixedCommands, command.isPipeline = true)
    ∧ (swallowing.after { state := {}, providers := [{}] } mixedCommands).state.ledger.records
        = [.spent "compile" [], .spent "compute_witness" ["witness", "output"]]
    ∧ ∀ r ∈ (swallowing.after { state := {}, providers := [{}] }
          mixedCommands).state.ledger.records, IsAccountedFor r :=
  ⟨by decide, by cbv, (handles_accounted_for swallowing [{}] mixedCommands (by decide)).1⟩

end Script

end Scripted

end ProofToolchain
