import ProofToolchain.Proofs.CommandLine.Positional
import ProofToolchain.Proofs.CommandLine.Scratches
import ProofToolchain.Proofs.Scripted.Calls

/-!
# The form for `snarkjs`

Programs and witnesses come in a second form, which a call may ask for. Three places look at what
was asked. The request overrides what the caller wrote among the flags, the proof tool is given a
switch, and the reading of a handle stops before the second form or does not. They have to agree
for every call, since a form that was not made cannot be read.

They do agree in what is asked for and in what comes of it, on any engine. The switch of a
compilation is there exactly when it is asked for. That of a witness computation is there as well
when it is asked for, but the values of a program without an interface stand on the command line
as they are, and one of them may be the switch.
-/

namespace ProofToolchain

open Run (YieldsOnly)

/-! ## What is asked for -/

/-- **Flags are merged with a request** if `snarkjs` is what the request says and all other flags
are as they were given. -/
structure Flags.IsMerged (f given : Flags) (snarkjs : Bool) : Prop where
  /-- The flag is set to the truth value of the request. -/
  snarkjs : f.get? snarkjsFlag = some (.bool snarkjs)
  /-- No other flag is touched. -/
  others : ∀ key, key ≠ snarkjsFlag → f.get? key = given.get? key

/-- Whatever a caller wrote under the key, the request decides. -/
theorem Flags.isMerged_withSnarkjs (f : Flags) (snarkjs : Bool) :
    (f.withSnarkjs snarkjs).IsMerged f snarkjs where
  snarkjs := f.get?_set_self _ _
  others _ hkey := f.get?_set_of_ne hkey _

/-! ## What comes of it -/

/-- What is read within a scope is the result, and giving the handle up changes none. -/
theorem Scoped.yieldsOnly_reading {σ κ α : Type} {Q : α → Prop} {ops : HandleOps σ κ}
    {scope : Scoped κ} {read : Run σ α} (h : YieldsOnly Q read) :
    YieldsOnly Q (scope.reading ops read) := by
  intro s a ha
  cases hread : read.run s with
  | mk outcome s' =>
    simp only [reading, ExceptT.run_mk, bind, StateT.bind, hread] at ha
    cases outcome with
    | ok b =>
      cases ha
      exact h s a (congrArg Prod.fst hread)
    | error stop => cases ha

namespace Engine

variable {σ κ ω : Type} (engine : Engine σ κ ω)

/-- **A compilation that succeeds** has the form for `snarkjs` if it was asked for, on any
engine. -/
theorem yieldsOnly_compileProgram (source : String) (options : CompileOptions)
    (bound : Option ProviderOptions) :
    YieldsOnly (fun artifact => artifact.snarkjsProgram.isSome = options.snarkjs)
      (engine.compileProgram source options bound) := by
  refine .bind fun scope => Scoped.yieldsOnly_reading ?_
  refine .bind fun program => .bind fun abi => ?_
  show YieldsOnly _ (if options.snarkjs then _ else _)
  cases options.snarkjs with
  | true => exact .bind fun _ => .pure rfl
  | false => exact .pure rfl

/-- The artifact of a compilation is what the engine made. -/
theorem ok_of_artifact {options : ProviderOptions} {route : Route} {source : String}
    {call : CompileOptions} {s : σ} {artifact : CompileArtifact}
    (h : (engine.perform options route (.compile source call) s).1.outcome
      = .ok (.artifact artifact)) :
    ((engine.compileProgram source call (route.bound options)).run s).1 = .ok artifact := by
  have hmap : ((Reply.artifact <$> engine.compileProgram source call (route.bound options)).run
      s).1 = .ok (.artifact artifact) := h
  rw [Run.run_map] at hmap
  cases hout : ((engine.compileProgram source call (route.bound options)).run s).1 with
  | error stop =>
    rw [hout] at hmap
    cases hmap
  | ok made =>
    rw [hout] at hmap
    cases hmap
    rfl

theorem yieldsOnly_computedFields (handle : ω) (snarkjs : Bool) :
    YieldsOnly (fun result => result.snarkjsWitness.isSome = snarkjs)
      (engine.computedFields handle snarkjs) := by
  refine .bind fun witness => .bind fun output => ?_
  cases snarkjs with
  | true => exact .bind fun _ => .pure rfl
  | false => exact .pure rfl

/-- **A witness computation that succeeds**, likewise. -/
theorem isSome_of_runProgram {input : ProgramInput} {args : Argument} {options : WitnessOptions}
    {s : σ} {result : WitnessResult}
    (h : (engine.runProgram input args options s).1.outcome = .ok result) :
    result.snarkjsWitness.isSome = options.snarkjs := by
  cases henc : args.encode with
  | error e =>
    rw [runProgram_of_not_encoded henc] at h
    cases h
  | ok text =>
    cases hcall : engine.witnessCall input text options s with
    | mk call s' =>
      cases hout : call.outcome with
      | error stop =>
        rw [runProgram_of_error henc hcall hout] at h
        cases h
      | ok handle =>
        rw [runProgram_of_ok henc hcall hout] at h
        exact engine.yieldsOnly_computedFields handle _ s' result h

end Engine

/-! ## What the tool is given -/

namespace CommandLine

/-- The switch that asks for the program in the form `snarkjs` reads, with its file. -/
def r1csPair : List String := ["--r1cs", r1csFile]

/-- The switch that asks for the witness in that form, with its file. -/
def circomPair : List String := [circomSwitch, circomWitnessFile]

/-- **The starts of the tool** between two states of a workshop. -/
def Workshop.runsSince (w w' : Workshop) : List Invocation :=
  (w'.history.drop w.history.length).map Prod.snd

/-- **The starts of the tool in a call** are the one that it may come to. -/
theorem Workshop.LeftBy.eq_of_mem_runsSince {w w' : Workshop} {host : Host}
    {start? : Option Invocation} (h : w.LeftBy host start? w') {i : Invocation}
    (hi : i ∈ w.runsSince w') : start? = some i := by
  rcases h with ⟨-, hunmade⟩ | ⟨files, runs, hleft, rfl | rfl⟩
  · rw [hunmade] at hi
    simp [runsSince, withoutNew] at hi
  · rw [hleft] at hi
    simp [runsSince, left] at hi
  · rw [hleft] at hi
    simpa [runsSince, left] using hi

/-- **Every start of the tool is given some arguments** exactly if they are asked for. -/
def Workshop.GivesWhenAsked (w w' : Workshop) (args : List String) (asked : Prop) : Prop :=
  ∀ i ∈ w.runsSince w', args <:+: i.args ↔ asked

/-- **The command line of a compilation has the switch** if its flag is on, after the curve, and
nowhere else. -/
theorem infix_compileArgs_iff (root : String) (flags : Flags) (curve : Curve)
    (stdlib : Option String) :
    r1csPair <:+: compileArgs root flags curve stdlib
      ↔ flags.isEnabled Flags.snarkjsFlag = true := by
  unfold compileArgs r1csPair
  cases flags.isEnabled Flags.snarkjsFlag <;> cases flags.isEnabled Flags.isolateBranchesFlag
    <;> cases flags.isEnabled Flags.debugFlag <;> cases stdlib
    <;> simp [whenever, List.infix_cons_iff, List.cons_prefix_cons, programFile, abiFile, r1csFile]

/-- What comes before the switch ends with the curve. -/
theorem exists_compileArgs_eq (root : String) (flags : Flags) (curve : Curve)
    (stdlib : Option String) :
    ∃ before rest, compileArgs root flags curve stdlib
      = before ++ ["--curve", curve.name]
        ++ whenever (flags.isEnabled Flags.snarkjsFlag) r1csPair ++ rest := by
  unfold compileArgs r1csPair
  simp only [List.append_assoc]
  exact ⟨["compile", "--input", root, "--output", programFile, "--abi-spec", abiFile], _, rfl⟩

/-- **The command line of a computation without an interface has the switch** if it is asked for, or
if the values have it. -/
theorem infix_positionalArgs_iff (values : List String) (snarkjs : Bool) :
    circomPair <:+: positionalArgs values snarkjs
      ↔ snarkjs = true ∨ circomPair <:+: values := by
  cases snarkjs with
  | true => exact iff_of_true (List.suffix_append _ _).isInfix (.inl rfl)
  | false =>
    unfold positionalArgs circomPair
    cases values <;> simp [whenever, circomSwitch, List.infix_cons_iff, List.cons_prefix_cons,
      programFile, circomWitnessFile]

/-- What comes before the switch does not depend on whether it is asked for. -/
theorem exists_witnessArgs_eq {abi : Option Abi} {text : String} {snarkjs : Bool}
    {line : List String × Option String} (h : witnessArgs abi text snarkjs = .ok line) :
    ∃ before, line.1 = before ++ whenever snarkjs circomPair := by
  cases abi with
  | some abi =>
    cases h
    exact ⟨_, rfl⟩
  | none =>
    obtain ⟨values, -, hargs, -⟩ := witnessArgs_none_eq_ok_iff.1 h
    exact ⟨_, hargs⟩

/-- **The command line of a computation has the switch** if it is asked for, or if there is no
interface and the values have it. -/
theorem infix_witnessArgs_iff {abi : Option Abi} {text : String} {snarkjs : Bool}
    {line : List String × Option String} (h : witnessArgs abi text snarkjs = .ok line) :
    circomPair <:+: line.1 ↔ snarkjs = true
      ∨ abi = none ∧ ∃ values, Argument.flattenText text = .ok values ∧ circomPair <:+: values := by
  cases abi with
  | some abi =>
    cases h
    cases snarkjs <;> simp [whenever, circomPair, circomSwitch, List.infix_cons_iff,
      List.cons_prefix_cons, programFile, abiFile, circomWitnessFile]
  | none =>
    obtain ⟨values, hvalues, hargs, -⟩ := witnessArgs_none_eq_ok_iff.1 h
    rw [hargs, infix_positionalArgs_iff, hvalues]
    simp

namespace Installation

variable (tool : Installation) (host : Host) (options : ProviderOptions) (route : Route)

/-- So it is with an operation. -/
theorem start?_of_mem_runsSince {w : Workshop} (hw : w.IsNumbered) {operation : Operation}
    {i : Invocation}
    (hi : i ∈ w.runsSince ((tool.engine host).perform options route operation w).2) :
    tool.start? host options route w.requested operation = some i := by
  rcases tool.leftBy_perform host hw options route operation with hsame | hleft
  · rw [hsame] at hi
    simp [Workshop.runsSince] at hi
  · exact hleft.eq_of_mem_runsSince hi

/-- The arguments of such a start are the command line of the operation. -/
theorem commandLine?_of_mem_runsSince {w : Workshop} (hw : w.IsNumbered) {operation : Operation}
    {i : Invocation}
    (hi : i ∈ w.runsSince ((tool.engine host).perform options route operation w).2) :
    ∃ line, tool.commandLine? host options route w.requested operation = some line
      ∧ i.args = line.1 := by
  obtain ⟨files, -, hstart⟩ :=
    Option.bind_eq_some_iff.1 (tool.start?_of_mem_runsSince host options route hw hi)
  obtain ⟨line, hline, rfl⟩ := Option.map_eq_some_iff.1 hstart
  exact ⟨line, hline, rfl⟩

/-- **A compilation asks the tool as it was asked.** -/
structure CompilesAsAsked (source : String) (call : CompileOptions) (w : Workshop) : Prop where
  /-- The tool is given the switch exactly if the form is asked for. -/
  switch : w.GivesWhenAsked ((tool.engine host).perform options route (.compile source call) w).2
    r1csPair (call.snarkjs = true)
  /-- It comes right after the curve. -/
  place : ∀ i ∈ w.runsSince ((tool.engine host).perform options route (.compile source call) w).2,
    ∃ before rest, i.args = before
      ++ ["--curve", (call.request (route.bound options)).curve.name]
      ++ whenever call.snarkjs r1csPair ++ rest
  /-- No field is read that was not asked for, nor one of a handle that is gone. -/
  readable : ∀ e, ((tool.engine host).perform options route (.compile source call) w).1.outcome
    = .error (.failed e) → e.kind ≠ .resource

/-- **A witness computation asks the tool as it was asked**, but for what its values say. -/
structure ComputesAsAsked (input : ProgramInput) (args : Argument) (call : WitnessOptions)
    (w : Workshop) : Prop where
  /-- The tool is given the switch if the form is asked for, or if there is no interface and the
  values have the switch in them. -/
  switch : w.GivesWhenAsked
    ((tool.engine host).perform options route (.computeWitness input args call) w).2 circomPair
    (call.snarkjs = true ∨ input.abi = none ∧ ∃ text values, args.encode = .ok text
      ∧ Argument.flattenText text = .ok values ∧ circomPair <:+: values)
  /-- What is given because it is asked for comes last. -/
  place : ∀ i ∈ w.runsSince
      ((tool.engine host).perform options route (.computeWitness input args call) w).2,
    ∃ before, i.args = before ++ whenever call.snarkjs circomPair
  /-- No field is read that was not asked for, nor one of a handle that is gone. -/
  readable : ∀ e,
    ((tool.engine host).perform options route (.computeWitness input args call) w).1.outcome
      = .error (.failed e) → e.kind ≠ .resource

/-- An error of an operation is never that a handle was misused. -/
theorem kind_ne_resource (operation : Operation) (w : Workshop) {e : Error}
    (h : ((tool.engine host).perform options route operation w).1.outcome = .error (.failed e)) :
    e.kind ≠ .resource := by
  intro hkind
  have hmem : e.kind ∈ operation.errorKinds := tool.isOf_of_perform host options route operation w h
  rw [hkind] at hmem
  exact operation.resource_not_mem_errorKinds hmem

theorem compilesAsAsked {w : Workshop} (hw : w.IsNumbered) (source : String)
    (call : CompileOptions) : tool.CompilesAsAsked host options route source call w where
  switch i hi := by
    obtain ⟨line, hline, hargs⟩ := tool.commandLine?_of_mem_runsSince host options route hw hi
    cases hline
    rw [hargs, infix_compileArgs_iff, CompileOptions.isEnabled_request]
  place i hi := by
    obtain ⟨line, hline, hargs⟩ := tool.commandLine?_of_mem_runsSince host options route hw hi
    cases hline
    obtain ⟨before, rest, hplace⟩ := exists_compileArgs_eq
      (host.scratchPath w.requested ++ "/" ++ SourceTree.fileName 0)
      (call.request (route.bound options)).flags (call.request (route.bound options)).curve
      tool.stdlib
    rw [CompileOptions.isEnabled_request] at hplace
    exact ⟨before, rest, hargs.trans hplace⟩
  readable _ h := tool.kind_ne_resource host options route _ w h

/-- The command line of a witness computation is that of the arguments it encodes. -/
theorem exists_of_commandLine?_computeWitness {input : ProgramInput} {args : Argument}
    {call : WitnessOptions} {number : Nat} {line : List String × Option String}
    (h : tool.commandLine? host options route number (.computeWitness input args call)
      = some line) :
    ∃ text, args.encode = .ok text ∧ witnessArgs input.abi text call.snarkjs = .ok line := by
  simp only [commandLine?] at h
  cases henc : args.encode with
  | error e =>
    rw [henc] at h
    cases h
  | ok text =>
    refine ⟨text, rfl, ?_⟩
    rw [henc] at h
    have hline : (witnessArgs input.abi text call.snarkjs).toOption = some line := h
    cases hargs : witnessArgs input.abi text call.snarkjs with
    | error e =>
      rw [hargs] at hline
      cases hline
    | ok line' =>
      rw [hargs] at hline
      exact congrArg Except.ok (Option.some.inj hline)

theorem computesAsAsked {w : Workshop} (hw : w.IsNumbered) (input : ProgramInput)
    (args : Argument) (call : WitnessOptions) :
    tool.ComputesAsAsked host options route input args call w where
  switch i hi := by
    obtain ⟨line, hline, hargs⟩ := tool.commandLine?_of_mem_runsSince host options route hw hi
    obtain ⟨text, henc, hok⟩ :=
      tool.exists_of_commandLine?_computeWitness host options route hline
    rw [hargs, infix_witnessArgs_iff hok, henc]
    simp
  place i hi := by
    obtain ⟨line, hline, hargs⟩ := tool.commandLine?_of_mem_runsSince host options route hw hi
    obtain ⟨text, -, hok⟩ := tool.exists_of_commandLine?_computeWitness host options route hline
    rw [hargs]
    exact exists_witnessArgs_eq hok
  readable _ h := tool.kind_ne_resource host options route _ w h

end Installation

end CommandLine

/-! ## All together -/

/-- **An engine shows the form when it was asked for it**, in whatever succeeds. -/
structure Engine.ShowsWhenAsked {σ κ ω : Type} (engine : Engine σ κ ω) : Prop where
  /-- A compilation that succeeds has the second form of its program if it was asked for. -/
  program : ∀ options route source call s artifact,
    (engine.perform options route (.compile source call) s).1.outcome = .ok (.artifact artifact) →
      artifact.snarkjsProgram.isSome = call.snarkjs
  /-- A computation that succeeds has the second form of its witness if it was asked for. -/
  witness : ∀ options route input args call s result,
    (engine.perform options route (.computeWitness input args call) s).1.outcome
      = .ok (.witness result) → result.snarkjsWitness.isSome = call.snarkjs

theorem Engine.showsWhenAsked {σ κ ω : Type} (engine : Engine σ κ ω) : engine.ShowsWhenAsked where
  program options route source call s artifact h :=
    engine.yieldsOnly_compileProgram source call _ s artifact (engine.ok_of_artifact h)
  witness options route input args call s result h := by
    have hmap : ((engine.runProgram input args call s).1.outcome).map Reply.witness
        = .ok (.witness result) := h
    cases hout : (engine.runProgram input args call s).1.outcome with
    | error stop =>
      rw [hout] at hmap
      cases hmap
    | ok made =>
      rw [hout] at hmap
      cases hmap
      exact engine.isSome_of_runProgram hout

/-- **Output for `snarkjs` is there when it is asked for.** The flags that an engine is handed have
`snarkjs` as the call says and all else as the caller wrote it, and the scripted engine writes them
down like that. Whatever succeeds has the second form exactly if it was asked for, on any engine.
The proof tool is given the switch of a compilation exactly if the form is asked for, and the switch
of a witness computation if the form is asked for or the values of a program without an interface
have it in them. No field is refused for not having been asked for. -/
theorem snarkjs_as_asked (script : Scripted.Script) (tool : CommandLine.Installation)
    (host : CommandLine.Host) (options : ProviderOptions) (route : Route)
    (w : CommandLine.Workshop) (hw : w.IsNumbered) :
    (∀ call : CompileOptions,
      (call.request (route.bound options)).flags.IsMerged call.flags call.snarkjs)
    ∧ (∀ source call s, (Operation.compile source call).IsAnswered script →
        ∃ record, (script.engine.perform options route (.compile source call) s).2.calls.compile
            = s.calls.compile ++ [record]
          ∧ record.flags.IsMerged call.flags call.snarkjs)
    ∧ (∀ (σ κ ω : Type) (engine : Engine σ κ ω), engine.ShowsWhenAsked)
    ∧ (∀ source call, tool.CompilesAsAsked host options route source call w)
    ∧ ∀ input args call, tool.ComputesAsAsked host options route input args call w := by
  refine ⟨fun call => Flags.isMerged_withSnarkjs _ _, fun source call s h => ?_,
    fun _ _ _ engine => engine.showsWhenAsked,
    tool.compilesAsAsked host options route hw, tool.computesAsAsked host options route hw⟩
  rw [script.calls_perform options route _ s h]
  exact ⟨_, rfl, Flags.isMerged_withSnarkjs _ _⟩

/-- A caller who writes among the flags what the call does not ask for. -/
def contradictedCall : CompileOptions :=
  { flags := Flags.empty.set Flags.snarkjsFlag (.bool true), snarkjs := false }

/-- The engine is handed what the call asks for. A computation that asks for the form runs the tool
once and gives it the switch. -/
theorem snarkjs_as_asked_contradictedCall :
    ({} : CommandLine.Workshop).IsNumbered
    ∧ (contradictedCall.request (some {})).flags.IsMerged contradictedCall.flags false
    ∧ (CommandLine.Workshop.runsSince {} ((CommandLine.Installation.engine {}
        CommandLine.Installation.idleHost).perform {} .provider
          (.computeWitness ⟨[], none⟩ (.sequence [.text "3"]) { snarkjs := true }) {}).2).map
        (·.args)
      = [["compute-witness", "--input", "out", "--output", "witness", "--arguments", "3",
          "--circom-witness", "out.wtns"]]
    ∧ CommandLine.Installation.ComputesAsAsked {} CommandLine.Installation.idleHost {} .provider
        ⟨[], none⟩ (.sequence [.text "3"]) { snarkjs := true } {} := by
  have hw : ({} : CommandLine.Workshop).IsNumbered := nofun
  have hruns : (CommandLine.Workshop.runsSince {} ((CommandLine.Installation.engine {}
      CommandLine.Installation.idleHost).perform {} .provider
        (.computeWitness ⟨[], none⟩ (.sequence [.text "3"]) { snarkjs := true }) {}).2).map
      (·.args)
      = [["compute-witness", "--input", "out", "--output", "witness", "--arguments", "3",
          "--circom-witness", "out.wtns"]] := by cbv
  obtain ⟨hmerged, -, -, -, hcomputes⟩ :=
    snarkjs_as_asked {} {} CommandLine.Installation.idleHost {} .provider {} hw
  exact ⟨hw, hmerged contradictedCall, hruns, hcomputes _ _ _⟩

/-- Arguments of a program without an interface, the switch among them. -/
def switchAsArgument : Argument :=
  .sequence [.text "3", .text "--circom-witness", .text "out.wtns"]

/-- **The tool is given the switch by the values**, though the form is not asked for. -/
theorem not_givesWhenAsked_switchAsArgument :
    (CommandLine.Workshop.runsSince {} ((CommandLine.Installation.engine {}
        CommandLine.Installation.idleHost).perform {} .provider
          (.computeWitness ⟨Text.Utf8.encode "p", none⟩ switchAsArgument { snarkjs := false })
          {}).2).map (·.args)
      = [["compute-witness", "--input", "out", "--output", "witness", "--arguments", "3",
          "--circom-witness", "out.wtns"]]
    ∧ ¬ CommandLine.Workshop.GivesWhenAsked {} ((CommandLine.Installation.engine {}
        CommandLine.Installation.idleHost).perform {} .provider
          (.computeWitness ⟨Text.Utf8.encode "p", none⟩ switchAsArgument { snarkjs := false })
          {}).2 CommandLine.circomPair (false = true) := by
  have hruns : (CommandLine.Workshop.runsSince {} ((CommandLine.Installation.engine {}
      CommandLine.Installation.idleHost).perform {} .provider
        (.computeWitness ⟨Text.Utf8.encode "p", none⟩ switchAsArgument { snarkjs := false })
        {}).2).map (·.args)
      = [["compute-witness", "--input", "out", "--output", "witness", "--arguments", "3",
          "--circom-witness", "out.wtns"]] := by cbv
  refine ⟨hruns, fun hgives => ?_⟩
  obtain ⟨i, hi, hargs⟩ := List.mem_map.1 (hruns ▸ List.mem_singleton_self _)
  have hgiven : CommandLine.circomPair <:+: i.args := by
    rw [hargs]
    decide
  exact absurd ((hgives i hi).1 hgiven) (by decide)

end ProofToolchain
