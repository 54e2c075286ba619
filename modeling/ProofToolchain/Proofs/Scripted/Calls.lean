import ProofToolchain.Proofs.Import.DepthFirst
import ProofToolchain.Proofs.Scripted.Accounting

/-!
# What the scripted engine was asked for

The scripted engine writes down what it is asked for, and all providers of a session share it. So
its calls are a view of the whole session, taken through the options that each provider was made
with. What one operation adds depends on nothing but the operation and the options it is called
with (`Operation.record`): whether it succeeds or fails, what the engine was asked before and which
other providers there are makes no difference. Hence the calls of a session are what its commands
add, one after another (`Script.calls_after`).
-/

namespace ProofToolchain

namespace Scripted

namespace Calls

/-- **Calls and then some more**, kind by kind. -/
instance : Append Calls where
  append c d := ⟨c.compile ++ d.compile, c.computeWitness ++ d.computeWitness,
    c.options ++ d.options, c.universalSetup ++ d.universalSetup, c.entropy ++ d.entropy⟩

theorem append_eq (c d : Calls) :
    c ++ d = ⟨c.compile ++ d.compile, c.computeWitness ++ d.computeWitness,
      c.options ++ d.options, c.universalSetup ++ d.universalSetup, c.entropy ++ d.entropy⟩ := rfl

@[simp] theorem append_none (c : Calls) : c ++ ({} : Calls) = c := by
  simp [append_eq]

theorem append_assoc (c d e : Calls) : c ++ d ++ e = c ++ (d ++ e) := by
  simp [append_eq]

end Calls

end Scripted

open Scripted

/-! ## What operations and commands add -/

/-- **What an operation adds to the calls**, when it is reached on a route through a provider with
some options. -/
def Operation.record (script : Script) (options : ProviderOptions) (route : Route) :
    Operation → Calls
  | .compile source call =>
    let root : SourceUnit := ⟨call.location.getD defaultLocation, source⟩
    let curve := call.curve.getD ((route.bound options).elim .bn128 (·.curve))
    { compile := [⟨root, call.flags.withSnarkjs call.snarkjs, curve,
        ((call.resolver.getD .empty).walk script.tolerance root).queries⟩] }
  | .computeWitness input args call =>
    match args.encode with
    | .ok text => { computeWitness := [⟨input, text, call.snarkjs⟩] }
    | .error _ => {}
  | .setup _ entropy =>
    { options := [("setup", route.options options)], entropy := [entropy] }
  | .universalSetup size entropy =>
    { universalSetup := [((route.options options).curve, size)], entropy := [entropy] }
  | .setupFromReference .. => { options := [("setup_with_srs", route.options options)] }
  | .generateProof _ _ _ entropy =>
    { options := [("generate_proof", route.options options)], entropy := [entropy] }
  | .verify .. => { options := [("verify", route.options options)] }
  | .exportVerifier _ | .formatProof _ => {}

/-- **What a command adds to the calls**, given the options of the providers there are. -/
def Command.record (script : Script) (providers : List ProviderOptions) : Command → Calls
  | .perform on route operation =>
    match providers[on]? with
    | some own => operation.record script own route
    | none => {}
  | _ => {}

/-- **The options of the provider that a command makes**, if it makes one. -/
def Command.made? (providers : List ProviderOptions) : Command → Option ProviderOptions
  | .clone on => providers[on]?
  | .rebind on given => providers[on]?.map fun _ => given
  | _ => none

/-- The providers after some commands, each with the options that it was made with. -/
def Command.providersAfter (providers : List ProviderOptions) :
    List Command → List ProviderOptions
  | [] => providers
  | command :: rest => providersAfter (providers ++ (command.made? providers).toList) rest

/-- **What commands add to the calls**, one after another. -/
def Command.recordAll (script : Script) (providers : List ProviderOptions) :
    List Command → Calls
  | [] => {}
  | command :: rest => command.record script providers
      ++ recordAll script (providers ++ (command.made? providers).toList) rest

/-- **A resolver answers a compilation's walk**: it breaks off at no import, and it leads to an
end. -/
def Resolver.Answers (r : Resolver) (tolerance : Tolerance) (root : SourceUnit) : Prop :=
  (r.walk tolerance root).outcome ≠ .error .crashed
    ∧ (r.walk tolerance root).outcome ≠ .error .endless

/-- **An operation is answered** if its resolver answers, where it has one. -/
def Operation.IsAnswered (script : Script) : Operation → Prop
  | .compile source call =>
    (call.resolver.getD .empty).Answers script.tolerance
      ⟨call.location.getD defaultLocation, source⟩
  | _ => True

/-- A command is answered if its operation is. -/
def Command.IsAnswered (script : Script) : Command → Prop
  | .perform _ _ operation => operation.IsAnswered script
  | _ => True

/-- What is answered does not break off, behind a guard as well as without one. -/
theorem Resolver.Answers.breaksOff {r : Resolver} {tolerance : Tolerance} {root : SourceUnit}
    (h : r.Answers tolerance root) {stop : Stop}
    (hstop : (r.guarded.walk tolerance root).sources = .error stop) : stop.breaksOff = false := by
  obtain ⟨obstacle, hout, rfl⟩ := Walk.exists_of_sources hstop
  rw [Resolver.walk_guarded] at hout
  cases hwalk : (r.walk tolerance root).outcome with
  | ok units =>
    rw [Walk.passedOn, hwalk] at hout
    cases hout
  | error met =>
    rw [Walk.passedOn, hwalk] at hout
    cases hout
    cases met with
    | absent | raised => rfl
    | crashed => exact absurd hwalk h.1
    | endless => exact absurd hwalk h.2

namespace Scripted

namespace Script

/-! ## What does not add to the calls -/

theorem keepsCalls_require (condition : Bool) (error : Error) :
    Run.Keeps State.calls (require condition error) := by
  cases condition with
  | true => exact .pure ()
  | false => exact .fail error

theorem keepsCalls_read {α : Type} (script : Script) (operation field : String) (value : α)
    (h : Handle) : Run.Keeps State.calls (script.read operation field value h) := by
  have hnote : Run.Keeps State.calls (liftM (noteExtraction h field) : Run State Unit) :=
    .modify fun _ => rfl
  refine hnote.bind fun _ => ?_
  split
  · exact .fail _
  · exact .pure _

theorem keepsCalls_compiledFields (script : Script) (handle : Handle) (snarkjs : Bool) :
    Run.Keeps State.calls (script.engine.compiledFields handle snarkjs) := by
  refine (Run.Keeps.extracting (script.keepsCalls_read _ _ _ _) _ _).bind fun _ => ?_
  refine (Run.Keeps.extracting (script.keepsCalls_read _ _ _ _) _ _).bind fun _ => ?_
  split
  · exact (Run.Keeps.extracting (script.keepsCalls_read _ _ _ _) _ _).bind fun _ => .pure _
  · exact .pure _

theorem keepsCalls_computedFields (script : Script) (handle : Handle) (snarkjs : Bool) :
    Run.Keeps State.calls (script.engine.computedFields handle snarkjs) := by
  refine (Run.Keeps.extracting (script.keepsCalls_read _ _ _ _) _ _).bind fun _ => ?_
  refine (Run.Keeps.extracting (script.keepsCalls_read _ _ _ _) _ _).bind fun _ => ?_
  split
  · exact (Run.Keeps.extracting (script.keepsCalls_read _ _ _ _) _ _).bind fun _ => .pure _
  · exact .pure _

/-! ## What operations add -/

/-- **A compilation adds one record**, whatever comes of it, if its resolver answers. -/
theorem calls_compileCall (script : Script) (source : String) (request : CompileRequest) (s : State)
    (h : request.resolver.Answers script.tolerance ⟨request.location, source⟩) :
    (script.engine.compileCall source request s).2.calls
      = s.calls ++ { compile := [⟨⟨request.location, source⟩, request.flags, request.curve,
          (request.resolver.walk script.tolerance ⟨request.location, source⟩).queries⟩] } := by
  have hqueries : (request.resolver.guarded.walk script.tolerance
      ⟨request.location, source⟩).queries
      = (request.resolver.walk script.tolerance ⟨request.location, source⟩).queries := by
    rw [Resolver.walk_guarded]
    rfl
  show (script.compile ⟨request.location, source⟩ request.resolver.guarded request.flags
    request.curve s).2.calls = _
  unfold compile
  dsimp only
  rw [hqueries]
  cases hsources : (request.resolver.guarded.walk script.tolerance
      ⟨request.location, source⟩).sources with
  | error stop =>
    have hstop := h.breaksOff hsources
    cases stop with
    | failed e =>
      simp only [Calls.append_eq, List.append_nil]
      rfl
    | crashed | endless => cases hstop
  | ok units =>
    simp only [Calls.append_eq, List.append_nil]
    cases script.compileFails <;> rfl

/-- What comes after the engine call adds nothing. -/
theorem calls_compileProgram (script : Script) (source : String) (options : CompileOptions)
    (bound : Option ProviderOptions) (s : State) :
    ((script.engine.compileProgram source options bound).run s).2.calls
      = (script.engine.compileCall source (options.request bound) s).2.calls := by
  cases hcall : script.engine.compileCall source (options.request bound) s with
  | mk call s' =>
    cases hout : call.outcome with
    | error stop => rw [Engine.run_compileProgram_of_error hcall hout]
    | ok handle =>
      cases hfailure : (options.request bound).resolver.firstFailure? call.trace with
      | some failure =>
        rw [Engine.run_compileProgram_of_raised hcall hout hfailure]
        rfl
      | none =>
        rw [Engine.run_compileProgram_of_ok hcall hout hfailure]
        exact script.keepsCalls_compiledFields handle _ s'

/-- **A witness computation adds one record**, if its arguments are encoded. -/
theorem calls_runProgram (script : Script) (input : ProgramInput) (args : Argument)
    (options : WitnessOptions) {text : String} (henc : args.encode = .ok text) (s : State) :
    (script.engine.runProgram input args options s).2.calls
      = s.calls ++ { computeWitness := [⟨input, text, options.snarkjs⟩] } := by
  have hrecord : (script.engine.witnessCall input text options s).2.calls
      = s.calls ++ { computeWitness := [⟨input, text, options.snarkjs⟩] } := by
    have hcomputing : (computing s input text options.snarkjs).calls
        = s.calls ++ { computeWitness := [⟨input, text, options.snarkjs⟩] } := by
      simp only [computing, Calls.append_eq, List.append_nil]
    have hheard := options.request.logger.deliver_listener [] script.logLines
      (computing s input text options.snarkjs)
    show (script.computeWitness input text options.snarkjs
      options.request.logger.listener s).2.calls = _
    rw [computeWitness_of_heard hheard, ← hcomputing]
    split
    · rfl
    · split <;> rfl
  cases hcall : script.engine.witnessCall input text options s with
  | mk call s' =>
    rw [hcall] at hrecord
    cases hout : call.outcome with
    | error stop =>
      rw [Engine.runProgram_of_error henc hcall hout]
      exact hrecord
    | ok handle =>
      rw [Engine.runProgram_of_ok henc hcall hout]
      exact (script.keepsCalls_computedFields handle _ s').trans hrecord

/-- **What is recorded last is all there is**, if the rest of a run records nothing. -/
theorem calls_record_bind {α : Type} (add : Calls → Calls) {rest : Unit → Run State α}
    (hrest : ∀ u, Run.Keeps State.calls (rest u)) (s : State) :
    (((liftM (recordCall add) : Run State Unit) >>= rest).run s).2.calls = add s.calls := by
  rw [Run.view_run_bind hrest]
  rfl

/-- Options and entropy are recorded one after the other. -/
theorem calls_record_record_bind {α : Type} (entry : String) (options : ProviderOptions)
    (entropy : Option Bytes) {rest : Unit → Run State α}
    (hrest : ∀ u, Run.Keeps State.calls (rest u)) (s : State) :
    (((liftM (recordOptions entry options) : Run State Unit) >>= fun _ =>
      (liftM (recordEntropy entropy) : Run State Unit) >>= rest).run s).2.calls
      = s.calls ++ { options := [(entry, options)], entropy := [entropy] } := by
  have hfirst : (liftM (recordOptions entry options) : Run State Unit).run s
      = (.ok (), { s with
          calls := { s.calls with options := s.calls.options ++ [(entry, options)] } }) := rfl
  rw [Run.run_bind_of_ok hfirst, recordEntropy, calls_record_bind _ hrest]
  simp only [Calls.append_eq, List.append_nil]

theorem calls_setup (script : Script) (entropy : Option Bytes) (options : ProviderOptions)
    (s : State) :
    ((script.setup entropy options).run s).2.calls
      = s.calls ++ { options := [("setup", options)], entropy := [entropy] } :=
  calls_record_record_bind _ _ _
    (fun _ => (keepsCalls_require _ _).bind fun _ => .pure _) s

theorem calls_universalSetup (script : Script) (curve : Curve) (size : UInt32)
    (entropy : Option Bytes) (s : State) :
    ((script.universalSetup curve size entropy).run s).2.calls
      = s.calls ++ { universalSetup := [(curve, size)], entropy := [entropy] } := by
  have hfirst : (liftM (recordCall fun c => { c with
        universalSetup := c.universalSetup ++ [(curve, size)] }) : Run State Unit).run s
      = (.ok (), { s with calls := { s.calls with
          universalSetup := s.calls.universalSetup ++ [(curve, size)] } }) := rfl
  unfold universalSetup recordEntropy
  rw [Run.run_bind_of_ok hfirst, calls_record_bind _ fun _ => .pure _]
  simp only [Calls.append_eq, List.append_nil]

theorem calls_setupFromReference (script : Script) (reference : Bytes) (options : ProviderOptions)
    (s : State) :
    ((script.setupFromReference reference options).run s).2.calls
      = s.calls ++ { options := [("setup_with_srs", options)] } := by
  unfold setupFromReference recordOptions
  rw [calls_record_bind]
  · simp only [Calls.append_eq, List.append_nil]
  · exact fun _ => (keepsCalls_require _ _).bind fun _ => (keepsCalls_require _ _).bind fun _ =>
      .pure _

theorem calls_generateProof (script : Script) (witness provingKey : Bytes)
    (entropy : Option Bytes) (options : ProviderOptions) (s : State) :
    ((script.generateProof witness provingKey entropy options).run s).2.calls
      = s.calls ++ { options := [("generate_proof", options)], entropy := [entropy] } :=
  calls_record_record_bind _ _ _
    (fun _ => (keepsCalls_require _ _).bind fun _ => (keepsCalls_require _ _).bind fun _ =>
      .pure _) s

theorem calls_verify (script : Script) (verificationKey proof : Bytes) (options : ProviderOptions)
    (s : State) :
    ((script.verify verificationKey proof options).run s).2.calls
      = s.calls ++ { options := [("verify", options)] } := by
  unfold verify recordOptions
  rw [calls_record_bind]
  · simp only [Calls.append_eq, List.append_nil]
  · exact fun _ => (keepsCalls_require _ _).bind fun _ => .pure _

theorem keepsCalls_exportVerifier (script : Script) (verificationKey : Bytes) :
    Run.Keeps State.calls (script.exportVerifier verificationKey) :=
  (keepsCalls_require _ _).bind fun _ => .pure _

/-- **An operation adds its record to the calls**, whether it succeeds or fails. -/
theorem calls_perform (script : Script) (options : ProviderOptions) (route : Route)
    (operation : Operation) (s : State)
    (h : operation.IsAnswered script) :
    (script.engine.perform options route operation s).2.calls
      = s.calls ++ operation.record script options route := by
  cases operation with
  | compile source call =>
    have hcurve : (call.request (route.bound options)).curve
        = call.curve.getD ((route.bound options).elim .bn128 (·.curve)) := by
      simp only [CompileOptions.request]
      cases call.curve <;> cases route.bound options <;> rfl
    simp only [Engine.perform, Run.asCall_map_snd]
    rw [calls_compileProgram,
      calls_compileCall script source (call.request (route.bound options)) s h, hcurve]
    rfl
  | computeWitness input args call =>
    show (script.engine.runProgram input args call s).2.calls = _
    cases henc : args.encode with
    | error e =>
      rw [Engine.runProgram_of_not_encoded henc]
      simp [Operation.record, henc]
    | ok text =>
      rw [calls_runProgram script input args call henc]
      simp [Operation.record, henc]
  | setup program entropy =>
    simp only [Engine.perform, Run.asCall_map_snd]
    exact script.calls_setup entropy _ s
  | universalSetup size entropy =>
    simp only [Engine.perform, Run.asCall_map_snd]
    exact script.calls_universalSetup _ size entropy s
  | setupFromReference reference program =>
    simp only [Engine.perform, Run.asCall_map_snd]
    exact script.calls_setupFromReference reference _ s
  | generateProof program witness provingKey entropy =>
    simp only [Engine.perform, Run.asCall_map_snd]
    exact script.calls_generateProof witness provingKey entropy _ s
  | verify verificationKey proof =>
    simp only [Engine.perform, Run.asCall_map_snd]
    exact script.calls_verify verificationKey proof _ s
  | exportVerifier verificationKey =>
    simp only [Engine.perform, Run.asCall_map_snd]
    exact (script.keepsCalls_exportVerifier verificationKey s).trans (Calls.append_none _).symm
  | formatProof proof => exact (Calls.append_none _).symm

/-! ## Sessions -/

/-- **A command adds its record to the calls** and its provider to the providers. -/
theorem calls_step (script : Script) (s : ScriptedSession) {command : Command}
    (h : command.isPipeline = true) (hanswered : command.IsAnswered script) :
    (s.step script.engine command).2.state.calls
        = s.state.calls ++ command.record script s.providers
      ∧ (s.step script.engine command).2.providers
        = s.providers ++ (command.made? s.providers).toList := by
  cases command with
  | name => exact ⟨(Calls.append_none _).symm, (List.append_nil _).symm⟩
  | options on =>
    simp only [Session.step, Session.withProvider, Command.record, Command.made?]
    cases s.providers[on]? <;> exact ⟨(Calls.append_none _).symm, (List.append_nil _).symm⟩
  | clone on =>
    simp only [Session.step, Session.withProvider, Command.record, Command.made?]
    cases s.providers[on]? with
    | none => exact ⟨(Calls.append_none _).symm, (List.append_nil _).symm⟩
    | some options => exact ⟨(Calls.append_none _).symm, rfl⟩
  | rebind on given =>
    simp only [Session.step, Session.withProvider, Command.record, Command.made?]
    cases s.providers[on]? with
    | none => exact ⟨(Calls.append_none _).symm, (List.append_nil _).symm⟩
    | some options => exact ⟨(Calls.append_none _).symm, rfl⟩
  | perform on route operation =>
    simp only [Session.step, Session.withProvider, Command.record, Command.made?]
    cases s.providers[on]? with
    | none => exact ⟨(Calls.append_none _).symm, (List.append_nil _).symm⟩
    | some options =>
      exact ⟨script.calls_perform options route operation s.state hanswered,
        (List.append_nil _).symm⟩
  | hold | read | release | drop => cases h

/-- Arguments that cannot be encoded leave a session as it is, and log nothing. -/
theorem step_of_not_encoded (script : Script) (s : ScriptedSession) (on : Nat) (route : Route)
    (input : ProgramInput) {args : Argument} (options : WitnessOptions) {e : Error}
    (henc : args.encode = .error e) :
    (s.step script.engine (.perform on route (.computeWitness input args options))).2 = s
      ∧ (s.step script.engine (.perform on route (.computeWitness input args options))).1.logged
        = [] := by
  simp only [Session.step, Session.withProvider]
  cases s.providers[on]? with
  | none => exact ⟨rfl, rfl⟩
  | some own =>
    have hcall : script.engine.perform own route (.computeWitness input args options) s.state
        = (⟨[], .error (.failed e)⟩, s.state) := by
      show (_ : Watched String Reply × State) = _
      simp only [Engine.perform, Provider.computeWitness, bind, StateT.bind,
        Engine.runProgram_of_not_encoded henc]
      rfl
    simp only [Session.perform, Session.run, hcall]
    split <;> exact ⟨trivial, rfl⟩

/-- **Commands add their records to the calls** and their providers to the providers. -/
theorem calls_after_eq (script : Script) {s : ScriptedSession} {commands : List Command}
    (h : ∀ command ∈ commands, command.isPipeline = true ∧ command.IsAnswered script) :
    (script.after s commands).state.calls
        = s.state.calls ++ Command.recordAll script s.providers commands
      ∧ (script.after s commands).providers = Command.providersAfter s.providers commands := by
  induction commands generalizing s with
  | nil => exact ⟨(Calls.append_none _).symm, rfl⟩
  | cons command rest ih =>
    obtain ⟨hpipeline, hanswered⟩ := h command List.mem_cons_self
    obtain ⟨hcalls, hproviders⟩ := script.calls_step s hpipeline hanswered
    obtain ⟨hmore, hlast⟩ := ih fun c hc => h c (List.mem_cons_of_mem command hc)
    rw [after_cons]
    refine ⟨?_, ?_⟩
    · rw [hmore, hcalls, hproviders, Calls.append_assoc]
      rfl
    · rw [hlast, hproviders]
      rfl

/-- Providers that were made stay as they were made. -/
theorem prefix_providersAfter (providers : List ProviderOptions) (commands : List Command) :
    providers <+: Command.providersAfter providers commands := by
  induction commands generalizing providers with
  | nil => exact List.prefix_rfl
  | cons command rest ih => exact (List.prefix_append _ _).trans (ih _)

/-- **Providers are isolated snapshots of their options.** Whatever commands are run through any
number of providers, made from each other before or on the way, the calls of the engine they share
are what the commands add, one after another and each with the options of the provider that it was
given to. The providers there were keep their options, each new one has those it was made with, and
these are what it says when it is asked. Arguments that cannot be encoded leave no trace. -/
theorem calls_after (script : Script) (s : ScriptedSession) (commands : List Command)
    (h : ∀ command ∈ commands, command.isPipeline = true ∧ command.IsAnswered script) :
    (script.after s commands).state.calls
        = s.state.calls ++ Command.recordAll script s.providers commands
      ∧ (script.after s commands).providers = Command.providersAfter s.providers commands
      ∧ s.providers <+: (script.after s commands).providers
      ∧ (∀ (on : Nat) (own : ProviderOptions),
          (Command.providersAfter s.providers commands)[on]? = some own →
          ((script.after s commands).step script.engine (.options on)).1.outcome
            = .ok (.options own))
      ∧ ∀ (on : Nat) (route : Route) (input : ProgramInput) (args : Argument)
          (options : WitnessOptions) (e : Error), args.encode = .error e →
          ((script.after s commands).step script.engine
              (.perform on route (.computeWitness input args options))).2
            = script.after s commands
          ∧ ((script.after s commands).step script.engine
              (.perform on route (.computeWitness input args options))).1.logged = [] := by
  obtain ⟨hcalls, hproviders⟩ := script.calls_after_eq h
  refine ⟨hcalls, hproviders, ?_, ?_, ?_⟩
  · rw [hproviders]
    exact prefix_providersAfter _ _
  · intro on own hown
    rw [← hproviders] at hown
    simp only [Session.step, Session.withProvider, hown]
  · intro on route input args options e henc
    exact script.step_of_not_encoded _ on route input options henc

/-- A provider for another backend is rebound from the first one and then copied. All three are
called, on their own curves and on another, and some calls fail. -/
def threeProviders : List Command :=
  [.rebind 0 { backend := .bellman, scheme := .marlin, curve := .bls12_377 },
    .perform 1 .provider (.setup [] none),
    .clone 1,
    .perform 2 .task (.compile "import \"./lib\";" {}),
    .perform 0 .provider (.compile "" { curve := some .bw6_761, snarkjs := true }),
    .perform 0 .provider (.verify [] []),
    .perform 2 .provider (.exportVerifier [1]),
    .perform 2 .provider (.universalSetup 4 (some [7]))]

/-- The setup and the compilation that fail are written down with the options of the providers that
they were given to, and so is all the rest. -/
theorem calls_after_threeProviders :
    (∀ command ∈ threeProviders, command.isPipeline = true ∧ command.IsAnswered {})
    ∧ (after {} { state := {} } threeProviders).state.calls
      = { compile :=
            [⟨⟨"main.zok", "import \"./lib\";"⟩, Flags.empty.withSnarkjs false, .bls12_377,
                [⟨"main.zok", "./lib"⟩]⟩,
              ⟨⟨"main.zok", ""⟩, Flags.empty.withSnarkjs true, .bw6_761, []⟩]
          options := [("setup", { backend := .bellman, scheme := .marlin, curve := .bls12_377 }),
            ("verify", {})]
          universalSetup := [(.bls12_377, 4)]
          entropy := [none, some [7]] }
    ∧ (after {} { state := {} } threeProviders).providers
      = [{}, { backend := .bellman, scheme := .marlin, curve := .bls12_377 },
          { backend := .bellman, scheme := .marlin, curve := .bls12_377 }] := by
  have hempty : Resolver.empty.walk ⟨false, false⟩ ⟨"main.zok", ""⟩
      = ⟨[], .ok [⟨"main.zok", ""⟩]⟩ := by cbv
  have habsent : Resolver.empty.walk ⟨false, false⟩ ⟨"main.zok", "import \"./lib\";"⟩
      = ⟨[⟨"main.zok", "./lib"⟩], .error (.absent ⟨"main.zok", "./lib"⟩)⟩ := by cbv
  have hcommands : ∀ command ∈ threeProviders,
      command.isPipeline = true ∧ command.IsAnswered {} := by
    have hlib : Resolver.empty.Answers ⟨false, false⟩ ⟨"main.zok", "import \"./lib\";"⟩ := by
      simp [Resolver.Answers, habsent]
    have hnone : Resolver.empty.Answers ⟨false, false⟩ ⟨"main.zok", ""⟩ := by
      simp [Resolver.Answers, hempty]
    simp only [threeProviders, List.forall_mem_cons, List.not_mem_nil, false_implies, implies_true]
    exact ⟨⟨rfl, trivial⟩, ⟨rfl, trivial⟩, ⟨rfl, trivial⟩, ⟨rfl, hlib⟩, ⟨rfl, hnone⟩,
      ⟨rfl, trivial⟩, ⟨rfl, trivial⟩, ⟨rfl, trivial⟩, trivial⟩
  obtain ⟨hcalls, hproviders, -⟩ := calls_after {} { state := {} } threeProviders hcommands
  refine ⟨hcommands, ?_, ?_⟩
  · rw [hcalls]
    simp [threeProviders, Command.recordAll, Command.record, Command.made?, Operation.record,
      Calls.append_eq, Route.bound, Route.options, Script.tolerance, defaultLocation, habsent,
      hempty]
  · rw [hproviders]
    rfl

end Script

end Scripted

end ProofToolchain
