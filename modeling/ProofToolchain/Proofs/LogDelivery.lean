import ProofToolchain.Proofs.CommandLine.OneShot
import ProofToolchain.Proofs.Scripted.Accounting
import ProofToolchain.Proofs.Text.Lines

/-!
# What a listener hears

A listener is handed lines one after another, and at each of them it may do what it likes to the
engine, or break off. It receives the lines that the engine has for it up to where it breaks off,
and all of them if it never does (`Listener.Receives`). What an engine has for it is settled before
the first line is handed over, and what comes after the last one changes nothing about it: a field
that cannot be read takes no line back (`Engine.delivers_of_called`).

The engine that drives the proof tool has the lines that the program logged, once the tool was fed,
came to its end and said that it succeeded, and nothing before that. The scripted engine has the
lines of its script.

Listeners that never break off make no difference to what comes of a computation, even if they use
the engine meanwhile, as long as they keep their hands off what the computation has for itself: on
the scripted engine that is nothing, and on the other one the directory of the call. The state
afterwards is the one that the listener left, brought to its end in one way. So it is the same for
listeners that leave the engine alone, which loggers do (`Engine.IsIndifferentToListeners`).
-/

namespace ProofToolchain

variable {σ κ ω τ : Type}

/-! ## Listeners -/

namespace Listener

/-- **A listener that never breaks off** accepts every line, whatever it accepted before and however
it finds the engine. -/
def NeverBreaksOff (listener : Listener σ) : Prop :=
  ∀ seen line s, (listener.hear seen line s).1 = true

/-- **A listener keeps a part of the engine's state**, whatever else it does at a line. -/
def Keeps (view : σ → τ) (listener : Listener σ) : Prop :=
  ∀ seen line s, view (listener.hear seen line s).2 = view s

/-- **A listener receives lines** in their order and each of them once: those before the line at
which it breaks off, and all of them if it never breaks off. -/
def Receives (listener : Listener σ) (lines received : List String) : Prop :=
  received <+: lines ∧ (listener.NeverBreaksOff → received = lines)

variable {listener : Listener σ}

/-- What is done at the first line decides how the others are handed over. -/
theorem deliver_cons (listener : Listener σ) (seen : List String) (line : String)
    (rest : List String) (s : σ) :
    listener.deliver seen (line :: rest) s
      = if (listener.hear seen line s).1 then
          listener.deliver (seen ++ [line]) rest (listener.hear seen line s).2
        else ((seen, false), (listener.hear seen line s).2) := by
  cases hheard : listener.hear seen line s with
  | mk accepted s' =>
    simp only [deliver, bind, StateT.bind, hheard]
    cases accepted <;> rfl

/-- The lines that are accepted are the first ones. -/
theorem exists_prefix_deliver (listener : Listener σ) (seen lines : List String) (s : σ) :
    ∃ taken, taken <+: lines ∧ (listener.deliver seen lines s).1.1 = seen ++ taken := by
  induction lines generalizing seen s with
  | nil => exact ⟨[], List.prefix_rfl, (List.append_nil seen).symm⟩
  | cons line rest ih =>
    rw [deliver_cons]
    by_cases h : (listener.hear seen line s).1 = true
    · obtain ⟨taken, htaken, hdeliver⟩ := ih (seen ++ [line]) (listener.hear seen line s).2
      refine ⟨line :: taken, List.cons_prefix_cons.2 ⟨rfl, htaken⟩, ?_⟩
      rw [if_pos h, hdeliver, List.append_assoc, List.singleton_append]
    · refine ⟨[], List.nil_prefix, ?_⟩
      rw [if_neg h, List.append_nil]

/-- **A listener that never breaks off** hears all lines. -/
theorem deliver_of_neverBreaksOff (h : listener.NeverBreaksOff) (seen lines : List String)
    (s : σ) : (listener.deliver seen lines s).1 = (seen ++ lines, true) := by
  induction lines generalizing seen s with
  | nil => simp [deliver, pure, StateT.pure]
  | cons line rest ih =>
    rw [deliver_cons, if_pos (h seen line s), ih, List.append_assoc, List.singleton_append]

/-- What is kept at each line is kept at the end. -/
theorem keeps_deliver {view : σ → τ} (h : listener.Keeps view) (seen lines : List String) (s : σ) :
    view (listener.deliver seen lines s).2 = view s := by
  induction lines generalizing seen s with
  | nil => rfl
  | cons line rest ih =>
    rw [deliver_cons]
    split
    · rw [ih, h]
    · exact h seen line s

/-- A listener that never breaks off and leaves the engine alone leaves nothing open. -/
theorem deliver_of_alone (h : listener.NeverBreaksOff) (halone : listener.Keeps id)
    (lines : List String) (s : σ) : listener.deliver [] lines s = ((lines, true), s) :=
  Prod.ext (deliver_of_neverBreaksOff h [] lines s) (keeps_deliver halone [] lines s)

/-- What is delivered to a listener is what it receives. -/
theorem receives_deliver (listener : Listener σ) (lines : List String) (s : σ) :
    listener.Receives lines (listener.deliver [] lines s).1.1 := by
  refine ⟨?_, fun hnever => ?_⟩
  · obtain ⟨taken, htaken, hdeliver⟩ := listener.exists_prefix_deliver [] lines s
    rwa [hdeliver, List.nil_append]
  · rw [deliver_of_neverBreaksOff hnever, List.nil_append]

theorem receives_nil (listener : Listener σ) : listener.Receives [] [] :=
  ⟨List.prefix_rfl, fun _ => rfl⟩

end Listener

/-! ## Engines and listeners -/

namespace Engine

variable (engine : Engine σ κ ω)

/-- **An engine delivers lines** for some encoded arguments: every listener receives them, and just
as well in a call in one piece, whatever comes of the fields that are read in it. -/
structure Delivers (input : ProgramInput) (text : String) (snarkjs : Bool) (s : σ)
    (lines : List String) : Prop where
  /-- The lines are received from the engine. -/
  called : ∀ listener : Listener σ,
    listener.Receives lines (engine.computeWitness input text snarkjs listener s).1.trace
  /-- They are received from a call in one piece. -/
  inOneCall : ∀ (args : Argument) (listener : Listener σ), args.encode = .ok text →
    listener.Receives lines (engine.runProgramWith input args snarkjs listener s).1.trace

/-- **Listeners that keep something come to one result** in a call in one piece, and leave the
engine in the state that they bring about themselves, brought to its end in one way. -/
def HasOneResult (input : ProgramInput) (args : Argument) (snarkjs : Bool) (own : σ → τ)
    (s : σ) : Prop :=
  ∃ (result : Watched String WitnessResult) (lines : List String) (before : σ) (finish : σ → σ),
    ∀ listener : Listener σ, listener.NeverBreaksOff → listener.Keeps own →
      engine.runProgramWith input args snarkjs listener s
        = (result, finish (listener.deliver [] lines before).2)

/-- **An engine that is indifferent to listeners** that never break off, where `own s` is what a
computation that starts in the state `s` has for itself while it logs. -/
structure IsIndifferentToListeners (own : σ → σ → τ) : Prop where
  /-- What comes of the engine, and its state, are the same for any two that leave it alone. -/
  called : ∀ (input : ProgramInput) (text : String) (snarkjs : Bool) (s : σ)
    (listener other : Listener σ), listener.NeverBreaksOff → other.NeverBreaksOff →
    listener.Keeps id → other.Keeps id →
      engine.computeWitness input text snarkjs listener s
        = engine.computeWitness input text snarkjs other s
  /-- So are what comes of a call in one piece and the state after it. -/
  inOneCall : ∀ (input : ProgramInput) (args : Argument) (snarkjs : Bool) (s : σ)
    (listener other : Listener σ), listener.NeverBreaksOff → other.NeverBreaksOff →
    listener.Keeps id → other.Keeps id →
      engine.runProgramWith input args snarkjs listener s
        = engine.runProgramWith input args snarkjs other s
  /-- What comes of it is the same for any two that use the engine meanwhile, and what they did is
  all the difference afterwards. -/
  meanwhile : ∀ (input : ProgramInput) (args : Argument) (snarkjs : Bool) (s : σ),
    engine.HasOneResult input args snarkjs (own s) s

variable {engine}

/-- **Reading the fields of a handle logs nothing**, whatever comes of it. -/
theorem trace_runProgramWith {input : ProgramInput} {args : Argument} {snarkjs : Bool}
    {listener : Listener σ} {text : String} (henc : args.encode = .ok text) (s : σ) :
    (engine.runProgramWith input args snarkjs listener s).1.trace
      = (engine.computeWitness input text snarkjs listener s).1.trace := by
  cases hcall : engine.computeWitness input text snarkjs listener s with
  | mk call s' =>
    cases hout : call.outcome with
    | ok handle => rw [runProgramWith_of_ok henc hcall hout]
    | error stop => rw [runProgramWith_of_error henc hcall hout]

/-- What an engine delivers it delivers in a call in one piece too. -/
theorem delivers_of_called {input : ProgramInput} {text : String} {snarkjs : Bool} {s : σ}
    {lines : List String}
    (h : ∀ listener : Listener σ,
      listener.Receives lines (engine.computeWitness input text snarkjs listener s).1.trace) :
    engine.Delivers input text snarkjs s lines where
  called := h
  inOneCall args listener henc := by
    rw [trace_runProgramWith henc]
    exact h listener

/-- A call that does not listen has one result. -/
theorem hasOneResult_of_forall {input : ProgramInput} {args : Argument} {snarkjs : Bool}
    {own : σ → τ} {s s' : σ} {result : Watched String WitnessResult}
    (h : ∀ listener : Listener σ,
      engine.runProgramWith input args snarkjs listener s = (result, s')) :
    engine.HasOneResult input args snarkjs own s :=
  ⟨result, [], s', id, fun listener _ _ => h listener⟩

/-- **What comes of listeners that use the engine decides about those that leave it alone**: for
them the state by which the lines are over is one and the same. -/
theorem isIndifferentToListeners_of_called {own : σ → σ → τ}
    (hcalled : ∀ (input : ProgramInput) (text : String) (snarkjs : Bool) (s : σ)
      (listener other : Listener σ), listener.NeverBreaksOff → other.NeverBreaksOff →
      listener.Keeps id → other.Keeps id →
        engine.computeWitness input text snarkjs listener s
          = engine.computeWitness input text snarkjs other s)
    (hmeanwhile : ∀ (input : ProgramInput) (args : Argument) (snarkjs : Bool) (s : σ),
      engine.HasOneResult input args snarkjs (own s) s) :
    engine.IsIndifferentToListeners own where
  called := hcalled
  meanwhile := hmeanwhile
  inOneCall input args snarkjs s listener other hnever hnever' halone halone' := by
    obtain ⟨result, lines, before, finish, hall⟩ := hmeanwhile input args snarkjs s
    have hown : ∀ l : Listener σ, l.Keeps id → l.Keeps (own s) :=
      fun l hl seen line t => congrArg (own s) (hl seen line t)
    rw [hall listener hnever (hown listener halone), hall other hnever' (hown other halone'),
      Listener.deliver_of_alone hnever halone, Listener.deliver_of_alone hnever' halone']

end Engine

/-! ## The engine that drives the proof tool -/

namespace CommandLine

/-- **A line of the program**: it starts with neither of the words in which the tool tells of
itself. -/
def IsOfProgram (line : List Char) : Prop :=
  ¬ "Computing witness".toList <+: line ∧ ¬ "Witness file written".toList <+: line

instance : DecidablePred IsOfProgram := fun line =>
  inferInstanceAs (Decidable (¬ _ <+: line ∧ ¬ _ <+: line))

theorem isStatusLine_eq (line : List Char) : (!isStatusLine line) = decide (IsOfProgram line) := by
  rw [Bool.eq_iff_iff, decide_eq_true_iff]
  simp [isStatusLine, statusPrefixes, IsOfProgram, Bool.eq_false_iff]

/-- **The lines that a program logged** are its lines among those of a printed text. -/
def IsLog (printed : String) (logged : List String) : Prop :=
  ∃ ls, Text.Lined printed.toList ls
    ∧ logged = (ls.filter fun line => decide (IsOfProgram line)).map String.ofList

theorem isLog_loggedLines (printed : String) : IsLog printed (loggedLines printed) := by
  refine ⟨Text.lines printed.toList, Text.lined_lines _, ?_⟩
  simp only [loggedLines, isStatusLine_eq]

/-- A reading that says which field it is of looks at what it looked at. -/
theorem LooksAt.extracting {α : Type} {lease : Lease}
    {answer : Option Directory → Except Error α} {read : Run Workshop α}
    (h : LooksAt lease answer read) (operation field : String) :
    LooksAt lease (fun found => (answer found).mapError (.extraction operation field))
      (Run.extracting operation field read) := by
  intro w found hfound
  have hread := h w found hfound
  dsimp only
  cases hanswer : answer found with
  | ok a =>
    rw [hanswer] at hread
    exact Run.run_extracting_of_ok hread operation field
  | error e =>
    rw [hanswer] at hread
    exact Run.run_extracting_of_failed hread operation field

namespace Installation

variable {tool : Installation} {host : Host} {input : ProgramInput} {text : String}
  {snarkjs : Bool} {w : Workshop}

/-- **The fields of a witness computation** are looked for in the directory of the handle. -/
theorem exists_looksAt_computedFields (tool : Installation) (host : Host) (snarkjs : Bool)
    (handle : WitnessHandle) :
    ∃ answer, LooksAt handle.scratch answer
      ((tool.engine host).computedFields handle snarkjs) := by
  have hwitness := (looksAt_read host handle.scratch witnessFile).extracting witnessOperation
    "witness"
  have houtput := (looksAt_output host handle).extracting witnessOperation "output"
  cases snarkjs with
  | false =>
    exact ⟨_, hwitness.bind fun witness => houtput.bind fun output => .ofExcept (.ok _)⟩
  | true =>
    have hform := (looksAt_readRequested host handle.scratch handle.snarkjs circomWitnessFile
      "snarkjs witness").extracting witnessOperation "snarkjs_witness"
    exact ⟨_, hwitness.bind fun witness => houtput.bind fun output =>
      hform.bind fun form => .ofExcept (.ok _)⟩

/-- Nothing is heard of a computation without a directory. -/
theorem delivers_of_unmade {e : HostError} (hmake : host.makeFailure? w.requested = some e) :
    (tool.engine host).Delivers input text snarkjs w [] := by
  refine Engine.delivers_of_called fun listener => ?_
  show listener.Receives [] (tool.computeWitness host input text snarkjs listener w).1.trace
  rw [tool.computeWitness_of_unmade host hmake]
  exact listener.receives_nil

section Made

variable (hmake : host.makeFailure? w.requested = none)
include hmake

/-- The engine has nothing for a listener before the tool has succeeded. -/
theorem delivers_nil {stop : Stop} {w' : Workshop}
    (h : (tool.computeIn host w.requested input text snarkjs).run w.withNew = (.error stop, w')) :
    (tool.engine host).Delivers input text snarkjs w [] := by
  refine Engine.delivers_of_called fun listener => ?_
  show listener.Receives [] (tool.computeWitness host input text snarkjs listener w).1.trace
  rw [tool.computeWitness_of_error host hmake h]
  exact listener.receives_nil

/-- Then it has the lines of the program. -/
theorem delivers_loggedLines {stdout : String} {w' : Workshop}
    (h : (tool.computeIn host w.requested input text snarkjs).run w.withNew = (.ok stdout, w')) :
    (tool.engine host).Delivers input text snarkjs w (loggedLines stdout) := by
  refine Engine.delivers_of_called fun listener => ?_
  show listener.Receives _ (tool.computeWitness host input text snarkjs listener w).1.trace
  have hreceives := listener.receives_deliver (loggedLines stdout) w'
  cases hheard : listener.deliver [] (loggedLines stdout) w' with
  | mk heard w'' =>
    rw [hheard] at hreceives
    obtain ⟨delivered, complete⟩ := heard
    cases complete with
    | true => rwa [tool.computeWitness_of_heard host hmake h hheard]
    | false => rwa [tool.computeWitness_of_brokenOff host hmake h hheard]

/-- **A computation that succeeds has one result** for all listeners that keep its directory as it
is, and it ends with the removal of that. -/
theorem hasOneResult_of_ok {args : Argument} {stdout : String} {w' : Workshop} {files : Directory}
    (henc : args.encode = .ok text) (hfiles : w'.files? w.requested = some files)
    (h : (tool.computeIn host w.requested input text snarkjs).run w.withNew = (.ok stdout, w')) :
    (tool.engine host).HasOneResult input args snarkjs (fun w'' => w''.files? w.requested) w := by
  obtain ⟨answer, hlooks⟩ := exists_looksAt_computedFields tool host snarkjs
    ⟨.new witnessOperation w.requested, input.abi, snarkjs⟩
  refine ⟨⟨loggedLines stdout, (answer (some files)).mapError .failed⟩, loggedLines stdout, w',
    fun w'' => w''.without host w.requested, fun listener hnever hkeeps => ?_⟩
  have hkept := Listener.keeps_deliver hkeeps [] (loggedLines stdout) w'
  cases hdeliver : listener.deliver [] (loggedLines stdout) w' with
  | mk heard w'' =>
    have hheard := Listener.deliver_of_neverBreaksOff hnever [] (loggedLines stdout) w'
    rw [hdeliver] at hheard hkept
    dsimp only at hheard hkept
    subst hheard
    have hcall := tool.computeWitness_of_heard host hmake h hdeliver
    rw [Engine.runProgramWith_of_ok henc hcall rfl,
      hlooks w'' (some files) (.owned rfl (hkept.trans hfiles)),
      tool.giveUp_computed host rfl]
    rfl

end Made

/-- **What the engine has for a listener** is what the program logged, if there is a run of the tool
that says that it succeeded, and nothing otherwise. -/
structure DeliversLog (tool : Installation) (host : Host) (input : ProgramInput) (text : String)
    (snarkjs : Bool) (w : Workshop) : Prop where
  /-- A run that succeeds has printed the log. -/
  succeeded : ∀ run, tool.computation? host input text snarkjs w = some (.ran run) →
    run.succeeded = true →
      ∃ logged, IsLog (Text.Utf8.decodeLossy run.stdout) logged
        ∧ (tool.engine host).Delivers input text snarkjs w logged
  /-- Nothing is delivered if there is no run that succeeds. -/
  failed : (∀ run, tool.computation? host input text snarkjs w = some (.ran run) →
    run.succeeded = false) → (tool.engine host).Delivers input text snarkjs w []
  /-- Nothing is delivered if the arguments make no command line. -/
  notFlattened : ∀ e, witnessArgs input.abi text snarkjs = .error e →
    (tool.engine host).Delivers input text snarkjs w []

/-- Without a command line there is no run. -/
theorem computation?_of_not_flattened {e : Error}
    (h : witnessArgs input.abi text snarkjs = .error e) :
    tool.computation? host input text snarkjs w = none := by
  rw [computation?, h]
  cases w.prepared? host (inputFiles input) <;> rfl

theorem deliversLog (tool : Installation) (host : Host) (input : ProgramInput) (text : String)
    (snarkjs : Bool) (w : Workshop) : tool.DeliversLog host input text snarkjs w := by
  have hfailed : (∀ run, tool.computation? host input text snarkjs w = some (.ran run) →
      run.succeeded = false) → (tool.engine host).Delivers input text snarkjs w [] := by
    intro hfailed
    cases hmake : host.makeFailure? w.requested with
    | some e => exact delivers_of_unmade hmake
    | none =>
      rcases tool.computeIn_cases host hmake input text snarkjs with
        ⟨run, w', hrun, hsucceeded, -⟩ | ⟨-, stop, w', herror⟩
      · exact absurd (hfailed run hrun) (by simp [hsucceeded])
      · exact delivers_nil hmake herror
  refine ⟨fun run hrun hsucceeded => ?_, hfailed, fun e hline => hfailed ?_⟩
  · cases hmake : host.makeFailure? w.requested with
    | some e =>
      rw [computation?, Workshop.prepared?_of_unmade hmake] at hrun
      cases hrun
    | none =>
      rcases tool.computeIn_cases host hmake input text snarkjs with
        ⟨other, w', hother, -, -, hok⟩ | ⟨hfails, -⟩
      · cases hrun.symm.trans hother
        exact ⟨_, isLog_loggedLines _, delivers_loggedLines hmake hok⟩
      · exact absurd (hfails run hrun) (by simp [hsucceeded])
  · rw [computation?_of_not_flattened hline]
    exact nofun

/-- **What a computation has for itself** while it logs is the directory of the call. -/
theorem isIndifferentToListeners (tool : Installation) (host : Host) :
    (tool.engine host).IsIndifferentToListeners fun w w' => w'.files? w.requested := by
  refine Engine.isIndifferentToListeners_of_called
    (fun input text snarkjs w listener other hnever hnever' halone halone' => ?_)
    fun input args snarkjs w => ?_
  · show tool.computeWitness host input text snarkjs listener w
      = tool.computeWitness host input text snarkjs other w
    cases hmake : host.makeFailure? w.requested with
    | some e =>
      rw [tool.computeWitness_of_unmade host hmake, tool.computeWitness_of_unmade host hmake]
    | none =>
      cases hcompute : (tool.computeIn host w.requested input text snarkjs).run w.withNew with
      | mk result w' =>
        cases result with
        | error stop =>
          rw [tool.computeWitness_of_error host hmake hcompute,
            tool.computeWitness_of_error host hmake hcompute]
        | ok stdout =>
          rw [tool.computeWitness_of_heard host hmake hcompute
              (Listener.deliver_of_alone hnever halone _ w'),
            tool.computeWitness_of_heard host hmake hcompute
              (Listener.deliver_of_alone hnever' halone' _ w')]
  · cases henc : args.encode with
    | error e =>
      exact Engine.hasOneResult_of_forall fun _ => Engine.runProgramWith_of_not_encoded henc
    | ok text =>
      cases hmake : host.makeFailure? w.requested with
      | some e =>
        exact Engine.hasOneResult_of_forall fun _ =>
          Engine.runProgramWith_of_error henc (tool.computeWitness_of_unmade host hmake) rfl
      | none =>
        rcases tool.computeIn_cases host hmake input text snarkjs with
          ⟨run, w', -, -, hfiles, hok⟩ | ⟨-, stop, w', herror⟩
        · exact hasOneResult_of_ok hmake henc hfiles hok
        · exact Engine.hasOneResult_of_forall fun _ =>
            Engine.runProgramWith_of_error henc (tool.computeWitness_of_error host hmake herror) rfl

end Installation

end CommandLine

/-! ## The scripted engine -/

namespace Scripted.Script

/-- The lines of the script are delivered, also where the computation fails after that. -/
theorem delivers_logLines (script : Script) (input : ProgramInput) (text : String)
    (snarkjs : Bool) (s : State) :
    script.engine.Delivers input text snarkjs s script.logLines := by
  refine Engine.delivers_of_called fun listener => ?_
  show listener.Receives _ (script.computeWitness input text snarkjs listener s).1.trace
  have hreceives := listener.receives_deliver script.logLines (computing s input text snarkjs)
  cases hheard : listener.deliver [] script.logLines (computing s input text snarkjs) with
  | mk heard s' =>
    rw [hheard] at hreceives
    rw [computeWitness_of_heard hheard]
    split
    · exact hreceives
    · split <;> exact hreceives

/-- What comes of a witness computation in one piece whose lines are heard. -/
def heardResult (script : Script) (snarkjs : Bool) : Watched String WitnessResult where
  trace := script.logLines
  outcome :=
    if script.witnessFails then .error (.failed (.stage .witness "scripted failure"))
    else script.readOutcome witnessOperation (witnessFields snarkjs)
      ⟨script.witness, script.output, if snarkjs then some script.snarkjsWitness else none⟩

/-- The state in which it ends, from the one that its listener left. -/
def finished (script : Script) (snarkjs : Bool) (s : State) : State :=
  if script.witnessFails then s
  else { s with
    ledger := ((s.ledger.issue witnessOperation).noteAll s.ledger.issued
      (script.fieldsRead (witnessFields snarkjs))).noteRelease s.ledger.issued }

/-- **What comes of the lines of the script** is a matter of the script, whatever a listener that
never breaks off does to the ledger and the calls meanwhile. -/
theorem runProgramWith_of_heard {script : Script} {input : ProgramInput} {args : Argument}
    {snarkjs : Bool} {text : String} {s s' : State} {listener : Listener State}
    (henc : args.encode = .ok text)
    (hheard : listener.deliver [] script.logLines (computing s input text snarkjs)
      = ((script.logLines, true), s')) :
    script.engine.runProgramWith input args snarkjs listener s
      = (script.heardResult snarkjs, script.finished snarkjs s') := by
  have hcall : script.engine.computeWitness input text snarkjs listener s = _ :=
    computeWitness_of_heard hheard
  unfold heardResult finished
  by_cases hfails : script.witnessFails = true
  · simp only [hfails, Bool.not_true, Bool.false_eq_true, if_false, if_true] at hcall ⊢
    rw [Engine.runProgramWith_of_error henc hcall rfl]
  · simp only [hfails, Bool.not_true, Bool.false_eq_true, if_false] at hcall ⊢
    rw [Engine.runProgramWith_of_ok henc hcall rfl, run_computedFields]
    rfl

/-- **A computation has nothing for itself** while it logs. -/
theorem isIndifferentToListeners (script : Script) :
    script.engine.IsIndifferentToListeners fun _ _ => () := by
  refine Engine.isIndifferentToListeners_of_called
    (fun input text snarkjs s listener other hnever hnever' halone halone' => ?_)
    fun input args snarkjs s => ?_
  · show script.computeWitness input text snarkjs listener s
      = script.computeWitness input text snarkjs other s
    rw [computeWitness_of_heard (Listener.deliver_of_alone hnever halone _ _),
      computeWitness_of_heard (Listener.deliver_of_alone hnever' halone' _ _)]
  · cases henc : args.encode with
    | error e =>
      exact Engine.hasOneResult_of_forall fun _ => Engine.runProgramWith_of_not_encoded henc
    | ok text =>
      refine ⟨script.heardResult snarkjs, script.logLines, computing s input text snarkjs,
        script.finished snarkjs, fun listener hnever _ => ?_⟩
      exact runProgramWith_of_heard henc
        (Prod.ext (Listener.deliver_of_neverBreaksOff hnever [] script.logLines _) rfl)

end Scripted.Script

/-! ## Log delivery -/

namespace CommandLine

/-- A run that succeeds and leaves no witness. What it prints has line ends of both kinds, a blank
line, and none at the end. -/
def talkativeRun : ToolRun where
  stdout := Text.Utf8.encode "Computing witness...\r\nx = 1\r\n\n y\nWitness file written"
  stderr := []
  succeeded := true
  files := []

/-- A host on which every start of the tool comes to that. -/
def talkativeHost : Host where
  scratchPath := fun _ => "/scratch"
  launch := fun _ => .ran talkativeRun
  finds := fun _ => true

end CommandLine

end ProofToolchain
