import Mathlib
import ProofToolchain.Proofs.CommandLine.ErrorKinds
import ProofToolchain.Proofs.CommandLine.Lifetime
import ProofToolchain.Proofs.RaisedFailure

/-!
# Failures reach the caller as they are

An operation calls the engine once and may then read some fields off a handle. Whatever fails on
the way is what the caller is told. An error of the entry point is passed on as it is, and an error
of the handle is wrapped once, with the operation and the field that was read
(`Engine.SurfacesFailures`).

This is so for any engine whose handles are read steadily: a field reads the same whether or not
another one was read before it, and what a reading fails with is an error of its own, wrapped in
nothing (`Engine.ReadsSteadily`). The fields that are wanted are then as they were when the handle
was opened, so the first of them that could not be read then is the one that is reported
(`Engine.reportsFirst_bind` takes one field at a time). Both engines are such engines, the scripted
one because it answers from its script and the other one because it only looks at files.
-/

namespace ProofToolchain

/-! ## Wrapped errors -/

namespace Error

/-- Whether an error says of a field that it could not be extracted. -/
def isExtraction : Error → Bool
  | .extraction .. => true
  | _ => false

/-- **An error wrapped** for some operations and fields, the last of them innermost. -/
def wrapped (layers : List (String × String)) (e : Error) : Error :=
  layers.foldr (fun layer source => .extraction layer.1 layer.2 source) e

/-- **The error behind all wrapping.** -/
def innermost : Error → Error
  | .extraction _ _ source => source.innermost
  | e => e

/-- **Wrapping changes no kind.** -/
theorem kind_wrapped (layers : List (String × String)) (e : Error) :
    (e.wrapped layers).kind = e.kind := by
  induction layers with
  | nil => rfl
  | cons layer layers ih => exact ih

/-- Every error is its innermost one, wrapped. -/
theorem exists_wrapped (e : Error) :
    e.innermost.isExtraction = false ∧ ∃ layers, e = e.innermost.wrapped layers := by
  induction e with
  | extraction operation field source ih =>
    obtain ⟨hplain, layers, hsource⟩ := ih
    refine ⟨hplain, (operation, field) :: layers, ?_⟩
    show extraction operation field source = extraction operation field _
    exact congrArg _ hsource
  | _ => exact ⟨rfl, [], rfl⟩

end Error

/-- **A stop that is an error**, and one that wraps no other. -/
def Stop.IsPlain : Stop → Prop
  | .failed e => e.isExtraction = false
  | _ => False

/-- The error that an outcome is, if it is one. -/
def errorOf? {α : Type} : Except Stop α → Option Error
  | .error (.failed e) => some e
  | _ => none

variable {σ κ ω α β : Type}

/-! ## What an operation comes to -/

/-- The name in which the fields of a handle are read. -/
def AnyHandle.operation : AnyHandle κ ω → String
  | .compiled _ => compileOperation
  | .computed _ => witnessOperation

/-- **The fields that are wanted of a handle**, in the order in which they are read. -/
def AnyHandle.wanted (snarkjs : Bool) : AnyHandle κ ω → List Field
  | .compiled _ => .program :: .abi :: if snarkjs then [.snarkjsProgram] else []
  | .computed _ => .witness :: .output :: if snarkjs then [.snarkjsWitness] else []

/-- **How far an operation comes** before any field is read. -/
inductive Begun (σ κ ω : Type) where
  /-- There is no result. -/
  | refused (stop : Stop)
  /-- There is a handle, and fields of it are wanted, in the state that the engine is in. -/
  | opened (handle : AnyHandle κ ω) (snarkjs : Bool) (s : σ)
  /-- There is the result. -/
  | finished

/-- What a call without a handle comes to. -/
def Begun.ofOutcome : Except Stop α → Begun σ κ ω
  | .error stop => .refused stop
  | .ok _ => .finished

/-- What a call with a handle comes to. -/
def Begun.ofCall (handle : α → AnyHandle κ ω) (snarkjs : Bool) :
    Except Stop α × σ → Begun σ κ ω
  | (.error stop, _) => .refused stop
  | (.ok a, s) => .opened (handle a) snarkjs s

namespace Engine

/-- **What the entry point of an operation comes to**, the engine being called as the options and
the route say. Arguments that cannot be encoded are refused before the engine is called. -/
def begun (engine : Engine σ κ ω) (options : ProviderOptions) (route : Route) :
    Operation → σ → Begun σ κ ω
  | .compile source call, s =>
    let answer := engine.compileCall source (call.request (route.bound options)) s
    .ofCall .compiled call.snarkjs (answer.1.outcome, answer.2)
  | .computeWitness input args call, s =>
    match args.encode with
    | .error e => .refused (.failed e)
    | .ok text =>
      let answer := engine.witnessCall input text call s
      .ofCall .computed call.snarkjs (answer.1.outcome, answer.2)
  | .setup program entropy, s =>
    .ofOutcome ((engine.setup program entropy (route.options options)).run s).1
  | .universalSetup size entropy, s =>
    .ofOutcome ((engine.universalSetup (route.options options).curve size entropy).run s).1
  | .setupFromReference reference program, s =>
    .ofOutcome ((engine.setupFromReference reference program (route.options options)).run s).1
  | .generateProof program witness provingKey entropy, s =>
    .ofOutcome
      ((engine.generateProof program witness provingKey entropy (route.options options)).run s).1
  | .verify verificationKey proof, s =>
    .ofOutcome ((engine.verify verificationKey proof (route.options options)).run s).1
  | .exportVerifier verificationKey, s =>
    .ofOutcome ((engine.exportVerifier verificationKey).run s).1
  | .formatProof proof, s => .ofOutcome ((engine.formatProof proof).run s).1

/-- The first failure that the resolver of an operation raises, if the operation has one. -/
def raised? (engine : Engine σ κ ω) (options : ProviderOptions) (route : Route) :
    Operation → σ → Option Failure
  | .compile source call, s =>
    let request := call.request (route.bound options)
    request.resolver.firstFailure? (engine.compileCall source request s).1.trace
  | _, _ => none

/-- **What the caller of an operation receives**, as a task or not. -/
def outcome (engine : Engine σ κ ω) (options : ProviderOptions) (route : Route)
    (operation : Operation) (s : σ) : Except Stop Reply :=
  let call := (engine.perform options route operation s).1
  (if route = .task then call.inTask else call).outcome

/-- **The handle's own error** for a field. -/
def unreadable? (engine : Engine σ κ ω) (handle : AnyHandle κ ω) (s : σ) (field : Field) :
    Option Error :=
  (engine.read? handle field).bind fun read => errorOf? (read.run s).1

/-- **The first of some fields that cannot be read**, with the handle's own error. -/
def firstUnreadable? (engine : Engine σ κ ω) (handle : AnyHandle κ ω) (s : σ)
    (fields : List Field) : Option (Field × Error) :=
  fields.findSome? fun field => (engine.unreadable? handle s field).map (field, ·)

end Engine

/-- **An outcome reports the first field that cannot be read**, wrapping its error, and there is a
result if there is no such field. -/
def ReportsFirst (operation : String) (first? : Option (Field × Error))
    (outcome : Except Stop α) : Prop :=
  match first? with
  | some (field, e) => outcome = .error (.failed (.extraction operation field.name e))
  | none => ∃ a, outcome = .ok a

/-- A result put into a reply reports what the result did. -/
theorem ReportsFirst.map {operation : String} {first? : Option (Field × Error)}
    {outcome : Except Stop α} (h : ReportsFirst operation first? outcome) (f : α → β) :
    ReportsFirst operation first? (outcome.map f) := by
  cases first? with
  | some x =>
    rw [show outcome = _ from h]
    exact rfl
  | none =>
    obtain ⟨a, rfl⟩ := h
    exact ⟨f a, rfl⟩

namespace Engine

/-- **An engine's failures reach the caller as they are.** -/
structure SurfacesFailures (engine : Engine σ κ ω) : Prop where
  /-- An error of the entry point is what the caller receives. -/
  refused : ∀ options route operation s e,
    engine.begun options route operation s = .refused (.failed e) →
    engine.raised? options route operation s = none →
    engine.outcome options route operation s = .error (.failed e)
  /-- An error of the handle is wrapped in the name of the operation and of the first field that
  cannot be read. -/
  opened : ∀ options route operation s handle snarkjs s',
    engine.begun options route operation s = .opened handle snarkjs s' →
    engine.raised? options route operation s = none →
    ReportsFirst handle.operation (engine.firstUnreadable? handle s' (handle.wanted snarkjs))
      (engine.outcome options route operation s)
  /-- It is wrapped this once, being no wrapped error itself. -/
  once : ∀ handle s field e, engine.unreadable? handle s field = some e → e.isExtraction = false
  /-- There is no other way to fail. -/
  finished : ∀ options route operation s,
    engine.begun options route operation s = .finished →
    ∃ reply, engine.outcome options route operation s = .ok reply

/-! ## Reading field after field -/

/-- **An engine whose handles are read steadily.** -/
structure ReadsSteadily (engine : Engine σ κ ω) : Prop where
  /-- A field reads the same after any other one was read. -/
  undisturbed : ∀ handle field read s other, engine.read? handle field = some read →
    engine.unreadable? handle (read.run s).2 other = engine.unreadable? handle s other
  /-- A reading yields a value or fails with an error of its own. -/
  plain : ∀ handle field read, engine.read? handle field = some read →
    Run.StopsOnly Stop.IsPlain read

section Reading

variable {engine : Engine σ κ ω} {handle : AnyHandle κ ω} {field : Field} {s : σ}

/-- A handle's own error is wrapped in nothing. -/
theorem ReadsSteadily.isExtraction (h : engine.ReadsSteadily) {e : Error}
    (he : engine.unreadable? handle s field = some e) : e.isExtraction = false := by
  obtain ⟨read, hread, hfails⟩ := Option.bind_eq_some_iff.1 he
  have hplain := h.plain handle field read hread s
  unfold errorOf? at hfails
  split at hfails
  · next own hout =>
    cases hfails
    exact hplain _ hout
  · cases hfails

/-- **One field and then the others.** If a run goes on to report the first of the other fields that
cannot be read, it reports the first of all of them. -/
theorem reportsFirst_bind (h : engine.ReadsSteadily) (field : Field) {read : Run σ α}
    (reply : α → Reply) (hread : engine.read? handle field = some (reply <$> read))
    {fields : List Field}
    {operation : String} {next : α → Run σ β}
    (hrest : ∀ a s, ReportsFirst operation (engine.firstUnreadable? handle s fields)
      ((next a).run s).1) :
    ReportsFirst operation (engine.firstUnreadable? handle s (field :: fields))
      ((Run.extracting operation field.name read >>= next).run s).1 := by
  have hown : engine.unreadable? handle s field = errorOf? ((reply <$> read).run s).1 := by
    rw [unreadable?, hread]
    rfl
  have hplain := h.plain handle field _ hread s
  have hafter : ∀ other, engine.unreadable? handle ((reply <$> read).run s).2 other
      = engine.unreadable? handle s other := fun other => h.undisturbed handle field _ s other hread
  rw [Run.run_map] at hown hplain
  simp only [Run.run_map] at hafter
  unfold firstUnreadable?
  rw [List.findSome?_cons, hown]
  cases hrun : read.run s with
  | mk result s' =>
    rw [hrun] at hplain hafter
    cases result with
    | ok a =>
      rw [Run.run_bind_of_ok (Run.run_extracting_of_ok hrun operation field.name)]
      have hnext := hrest a s'
      unfold firstUnreadable? at hnext
      simp only [hafter] at hnext
      exact hnext
    | error stop =>
      have hstop := hplain stop rfl
      cases stop with
      | failed e =>
        rw [Run.run_bind_of_error (Run.run_extracting_of_failed hrun operation field.name)]
        exact rfl
      | crashed | endless => exact hstop.elim

/-- **The reading of a compilation** reports the first field that cannot be read. -/
theorem reportsFirst_compiledFields (h : engine.ReadsSteadily) (handle : κ) (snarkjs : Bool)
    (s : σ) :
    ReportsFirst compileOperation
      (engine.firstUnreadable? (.compiled handle) s
        ((AnyHandle.compiled handle : AnyHandle κ ω).wanted snarkjs))
      ((engine.compiledFields handle snarkjs).run s).1 := by
  refine reportsFirst_bind h .program .blob rfl fun program s => ?_
  refine reportsFirst_bind h .abi .abi rfl fun abi s => ?_
  cases snarkjs with
  | false => exact ⟨_, rfl⟩
  | true =>
    refine reportsFirst_bind h .snarkjsProgram .blob rfl fun form s => ?_
    exact ⟨_, rfl⟩

/-- **The reading of a witness computation**, likewise. -/
theorem reportsFirst_computedFields (h : engine.ReadsSteadily) (handle : ω) (snarkjs : Bool)
    (s : σ) :
    ReportsFirst witnessOperation
      (engine.firstUnreadable? (.computed handle) s
        ((AnyHandle.computed handle : AnyHandle κ ω).wanted snarkjs))
      ((engine.computedFields handle snarkjs).run s).1 := by
  refine reportsFirst_bind h .witness .blob rfl fun witness s => ?_
  refine reportsFirst_bind h .output .json rfl fun output s => ?_
  cases snarkjs with
  | false => exact ⟨_, rfl⟩
  | true =>
    refine reportsFirst_bind h .snarkjsWitness .blob rfl fun form s => ?_
    exact ⟨_, rfl⟩

end Reading

/-! ## Operations -/

/-- What a task makes of an outcome is the outcome, unless the operation was broken off. -/
theorem outcome_of_error {engine : Engine σ κ ω} {options : ProviderOptions} {route : Route}
    {operation : Operation} {s : σ} {e : Error}
    (h : (engine.perform options route operation s).1.outcome = .error (.failed e)) :
    engine.outcome options route operation s = .error (.failed e) := by
  unfold outcome
  dsimp only
  split
  · rw [Watched.inTask, h]
    rfl
  · exact h

theorem outcome_of_ok {engine : Engine σ κ ω} {options : ProviderOptions} {route : Route}
    {operation : Operation} {s : σ} {reply : Reply}
    (h : (engine.perform options route operation s).1.outcome = .ok reply) :
    engine.outcome options route operation s = .ok reply := by
  unfold outcome
  dsimp only
  split
  · rw [Watched.inTask, h]
    rfl
  · exact h

/-- What is reported is reported as a task too. -/
theorem reportsFirst_outcome {engine : Engine σ κ ω} {options : ProviderOptions} {route : Route}
    {operation : Operation} {s : σ} {name : String} {first? : Option (Field × Error)}
    (h : ReportsFirst name first? (engine.perform options route operation s).1.outcome) :
    ReportsFirst name first? (engine.outcome options route operation s) := by
  cases first? with
  | some x => exact outcome_of_error h
  | none =>
    obtain ⟨reply, hreply⟩ := h
    exact ⟨reply, outcome_of_ok hreply⟩

/-- **How an operation ends** that began in some way. -/
def EndsAs (engine : Engine σ κ ω) (begun : Begun σ κ ω) (outcome : Except Stop Reply) : Prop :=
  match begun with
  | .refused stop => outcome = .error stop
  | .opened handle snarkjs s =>
    ReportsFirst handle.operation (engine.firstUnreadable? handle s (handle.wanted snarkjs)) outcome
  | .finished => ∃ reply, outcome = .ok reply

section Operations

variable {engine : Engine σ κ ω} {options : ProviderOptions} {route : Route} {s : σ}

/-- A call without a handle is the whole operation. -/
theorem endsAs_ofOutcome (x : Run σ α) (reply : α → Reply) :
    engine.EndsAs (.ofOutcome (x.run s).1)
      ((Run.asCall (reply <$> x) s).1 : Watched String Reply).outcome := by
  have hout : ((Run.asCall (reply <$> x) s).1 : Watched String Reply).outcome
      = (x.run s).1.map reply := congrArg Prod.fst (Run.run_map reply x s)
  rw [hout]
  cases (x.run s).1 with
  | error stop => exact rfl
  | ok a => exact ⟨reply a, rfl⟩

/-- **A compilation** whose resolver raises nothing. -/
theorem endsAs_compile (h : engine.ReadsSteadily) {source : String} {call : CompileOptions}
    (hquiet : engine.raised? options route (.compile source call) s = none) :
    engine.EndsAs (engine.begun options route (.compile source call) s)
      (engine.perform options route (.compile source call) s).1.outcome := by
  have hout : (engine.perform options route (.compile source call) s).1.outcome
      = ((engine.compileProgram source call (route.bound options)).run s).1.map .artifact :=
    congrArg Prod.fst
      (Run.run_map Reply.artifact (engine.compileProgram source call (route.bound options)) s)
  rw [hout]
  simp only [raised?] at hquiet
  simp only [begun]
  cases hcall : engine.compileCall source (call.request (route.bound options)) s with
  | mk answer s' =>
    rw [hcall] at hquiet
    cases hanswer : answer.outcome with
    | error stop =>
      rw [run_compileProgram_of_error hcall hanswer, hquiet]
      cases stop <;> exact rfl
    | ok handle =>
      rw [run_compileProgram_of_ok hcall hanswer hquiet]
      exact (reportsFirst_compiledFields h handle call.snarkjs s').map _

/-- **A witness computation.** -/
theorem endsAs_computeWitness (h : engine.ReadsSteadily) {input : ProgramInput} {args : Argument}
    {call : WitnessOptions} :
    engine.EndsAs (engine.begun options route (.computeWitness input args call) s)
      (engine.perform options route (.computeWitness input args call) s).1.outcome := by
  have hout : (engine.perform options route (.computeWitness input args call) s).1.outcome
      = (engine.runProgram input args call s).1.outcome.map .witness := rfl
  rw [hout]
  cases hencoded : args.encode with
  | error e =>
    simp only [begun, hencoded, runProgram_of_not_encoded hencoded]
    exact rfl
  | ok text =>
    simp only [begun, hencoded]
    cases hcall : engine.witnessCall input text call s with
    | mk answer s' =>
      cases hanswer : answer.outcome with
      | error stop =>
        rw [runProgram_of_error hencoded hcall hanswer]
        exact rfl
      | ok handle =>
        rw [runProgram_of_ok hencoded hcall hanswer]
        exact (reportsFirst_computedFields h handle call.snarkjs s').map _

/-- **Every operation ends as it began**, if no resolver raises a failure. -/
theorem endsAs_perform (h : engine.ReadsSteadily) {operation : Operation}
    (hquiet : engine.raised? options route operation s = none) :
    engine.EndsAs (engine.begun options route operation s)
      (engine.perform options route operation s).1.outcome := by
  cases operation with
  | compile source call => exact endsAs_compile h hquiet
  | computeWitness input args call => exact endsAs_computeWitness h
  | setup program entropy => exact endsAs_ofOutcome _ _
  | universalSetup size entropy => exact endsAs_ofOutcome _ _
  | setupFromReference reference program => exact endsAs_ofOutcome _ _
  | generateProof program witness provingKey entropy => exact endsAs_ofOutcome _ _
  | verify verificationKey proof => exact endsAs_ofOutcome _ _
  | exportVerifier verificationKey => exact endsAs_ofOutcome _ _
  | formatProof proof => exact endsAs_ofOutcome _ _

/-- Only a compilation begins with a resolver. -/
theorem raised?_of_finished {operation : Operation}
    (hbegun : engine.begun options route operation s = .finished) :
    engine.raised? options route operation s = none := by
  cases operation with
  | compile source call =>
    simp only [begun, Begun.ofCall] at hbegun
    split at hbegun <;> cases hbegun
  | _ => rfl

end Operations

/-- **An engine whose handles are read steadily surfaces failures as they are.** -/
theorem ReadsSteadily.surfacesFailures {engine : Engine σ κ ω} (h : engine.ReadsSteadily) :
    engine.SurfacesFailures where
  refused options route operation s e hbegun hquiet := by
    have hends := endsAs_perform h hquiet
    rw [hbegun] at hends
    exact outcome_of_error hends
  opened options route operation s handle snarkjs s' hbegun hquiet := by
    have hends := endsAs_perform h hquiet
    rw [hbegun] at hends
    exact reportsFirst_outcome hends
  once handle s field e := h.isExtraction
  finished options route operation s hbegun := by
    have hends := endsAs_perform h (raised?_of_finished hbegun)
    rw [hbegun] at hends
    obtain ⟨reply, hreply⟩ := hends
    exact ⟨reply, outcome_of_ok hreply⟩

end Engine

/-! ## The scripted engine -/

namespace Scripted.Script

variable (script : Script)

/-- What is said of a broken field, by the handle itself. -/
def breakage (operation field : String) : Error :=
  .resource operation ("`" ++ field ++ "` unavailable")

/-- A reading is the script's, whatever was read before. -/
theorem read_fst (operation field : String) (value : α) (h : Handle) (s : State) :
    ((script.read operation field value h).run s).1
      = if script.brokenField = some field then .error (.failed (breakage operation field))
        else .ok value := by
  have hnote : (liftM (noteExtraction h field) : Run State Unit).run s
      = (.ok (), { s with ledger := s.ledger.noteExtraction h.number field }) := rfl
  rw [read, Run.run_bind_of_ok hnote]
  split <;> rfl

/-- Every reading of a handle is one of the script. -/
theorem exists_of_read? {handle : AnyHandle Handle Handle} {field : Field} {read : Run State Reply}
    (h : script.engine.read? handle field = some read) :
    ∃ (α : Type) (operation name : String) (value : α) (reply : α → Reply) (number : Handle),
      read = reply <$> script.read operation name value number := by
  cases handle <;> cases field <;> cases h <;> exact ⟨_, _, _, _, _, _, rfl⟩

/-- **Scripted handles are read steadily.** -/
theorem readsSteadily : script.engine.ReadsSteadily where
  undisturbed handle field read s other _ := by
    unfold Engine.unreadable?
    cases hother : script.engine.read? handle other with
    | none => rfl
    | some read =>
      obtain ⟨α, operation, name, value, reply, number, rfl⟩ := script.exists_of_read? hother
      simp only [Option.bind_some, Run.run_map, read_fst]
  plain handle field read hread := by
    obtain ⟨α, operation, name, value, reply, number, rfl⟩ := script.exists_of_read? hread
    exact (script.stopsOnly_read (fun _ => rfl) name value number).map reply

end Scripted.Script

/-! ## The engine that drives the proof tool -/

namespace CommandLine

open Run (StopsOnly Keeps)

theorem WitnessHandle.stopsOnly_output {host : Host} {P : Stop → Prop} {handle : WitnessHandle}
    (hread : StopsOnly P (handle.scratch.read host witnessFile))
    (hstage : ∀ text, P (.failed (.stage .witness text))) : StopsOnly P (handle.output host) := by
  refine hread.bind fun witness => .ofExcept fun e he => ?_
  refine FailsOnly.bind (P := fun e => P (.failed e)) (Witness.failsOnly_outputs hstage _)
    (fun raw => ?_) e he
  exact failsOnly_decodeOutput hstage raw handle.abi

namespace Installation

variable (tool : Installation) (host : Host)

/-- A reading only looks at files. -/
theorem keeps_of_read? {handle : AnyHandle CompileHandle WitnessHandle} {field : Field}
    {read : Run Workshop Reply} (h : (tool.engine host).read? handle field = some read) :
    Keeps id read := by
  cases handle with
  | compiled handle =>
    cases field <;> cases h
    · exact (handle.scratch.keeps_read host _).map _
    · exact (handle.keeps_abi host).map _
    · exact (handle.scratch.keeps_readRequested host _ _ _).map _
  | computed handle =>
    cases field <;> cases h
    · exact (handle.scratch.keeps_read host _).map _
    · exact (handle.keeps_output host).map _
    · exact (handle.scratch.keeps_readRequested host _ _ _).map _

/-- **Its handles are read steadily.** -/
theorem readsSteadily : (tool.engine host).ReadsSteadily where
  undisturbed handle field read w other hread := by
    have hkeeps : (read.run w).2 = w := tool.keeps_of_read? host hread w
    rw [hkeeps]
  plain handle field read hread := by
    have hhost : ∀ e, Stop.IsPlain (.failed (.host e)) := fun _ => rfl
    cases handle with
    | compiled handle =>
      cases field <;> cases hread
      · exact (Lease.stopsOnly_read hhost (fun _ => rfl) _).map _
      · exact (CompileHandle.stopsOnly_abi (Lease.stopsOnly_read hhost (fun _ => rfl) _)
          fun _ => rfl).map _
      · exact (Lease.stopsOnly_readRequested hhost (fun _ => rfl) _ _ _).map _
    | computed handle =>
      cases field <;> cases hread
      · exact (Lease.stopsOnly_read hhost (fun _ => rfl) _).map _
      · exact (WitnessHandle.stopsOnly_output (Lease.stopsOnly_read hhost (fun _ => rfl) _)
          fun _ => rfl).map _
      · exact (Lease.stopsOnly_readRequested hhost (fun _ => rfl) _ _ _).map _

end Installation

end CommandLine

/-! ## Both engines -/

/-- **Failures surface unchanged**, on either engine, whatever it is told to answer and whatever the
tool does. If no resolver raised a failure, an error of the entry point is what the caller receives,
on any route. A field that cannot be read is reported with the handle's own error, wrapped once in
the name of the operation; of several such fields it is the first one that is wanted. And wrapping
changes no kind, however often it is done: every error has the kind of its innermost one. -/
theorem failures_surface :
    (∀ script : Scripted.Script, script.engine.SurfacesFailures)
      ∧ (∀ (tool : CommandLine.Installation) (host : CommandLine.Host),
        (tool.engine host).SurfacesFailures)
      ∧ (∀ layers (e : Error), (e.wrapped layers).kind = e.kind)
      ∧ ∀ e : Error, e.kind = e.innermost.kind ∧ e.innermost.isExtraction = false
        ∧ ∃ layers, e = e.innermost.wrapped layers := by
  refine ⟨fun script => script.readsSteadily.surfacesFailures,
    fun tool host => (tool.readsSteadily host).surfacesFailures, Error.kind_wrapped, fun e => ?_⟩
  obtain ⟨hplain, layers, he⟩ := e.exists_wrapped
  refine ⟨?_, hplain, layers, he⟩
  calc
    e.kind = (e.innermost.wrapped layers).kind := congrArg Error.kind he
    _ = e.innermost.kind := Error.kind_wrapped layers _

/-- An engine whose interfaces cannot be read. -/
def withoutAbi : Scripted.Script := { brokenField := some "abi" }

/-- An engine whose witness computations fail. -/
def withoutWitness : Scripted.Script := { witnessFails := true }

/-- **Three failures.** A handle without an interface, in a task; a witness computation that fails;
and a tool that leaves no files, so that of three fields the first one is reported. -/
theorem failures_surface_withoutAbi :
    withoutAbi.engine.outcome {} .task (.compile "" { snarkjs := true }) {}
        = .error (.failed (.extraction "compile" "abi" (.resource "compile" "`abi` unavailable")))
      ∧ withoutWitness.engine.outcome {} .provider
          (.computeWitness ⟨[], none⟩ (.sequence []) {}) {}
        = .error (.failed (.stage .witness "scripted failure"))
      ∧ (CommandLine.Installation.engine {} CommandLine.Installation.idleHost).outcome {} .provider
          (.computeWitness ⟨[], none⟩ (.sequence []) { snarkjs := true }) {}
        = .error (.failed (.extraction "compute_witness" "witness" (.host .notFound)))
      ∧ (Error.extraction "compute_witness" "witness" (.host .notFound)).kind = .environment := by
  obtain ⟨hscripted, htool, hkind, -⟩ := failures_surface
  refine ⟨?_, ?_, ?_, ?_⟩
  · have hopened := (hscripted withoutAbi).opened {} .task (.compile "" { snarkjs := true }) {}
      (.compiled ⟨0⟩) true _ (by cbv) (by cbv)
    exact hopened
  · exact (hscripted withoutWitness).refused {} .provider
      (.computeWitness ⟨[], none⟩ (.sequence []) {}) {} _ (by cbv) rfl
  · have hopened := (htool {} CommandLine.Installation.idleHost).opened {} .provider
      (.computeWitness ⟨[], none⟩ (.sequence []) { snarkjs := true }) {}
      (.computed ⟨.new "compute_witness" 0, none, true⟩) true _ (by cbv) rfl
    exact hopened
  · exact hkind [("compute_witness", "witness")] (.host .notFound)

end ProofToolchain
