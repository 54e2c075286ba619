import ProofToolchain.CommandLine.Engine
import ProofToolchain.Proofs.CommandLine.Launch

/-!
# How a witness computation with the proof tool ends

A witness computation makes a directory, runs the tool there, hands what the program logged to a
listener, and yields a handle, which keeps the directory. There are four ways for it to end, one
equation each: there is no directory, the tool does not succeed, the listener breaks off, or there
is a handle. A listener hears nothing before the tool has succeeded. What it does to the engine
counts, since the call goes on from there.
-/

namespace ProofToolchain.CommandLine.Installation

variable (tool : Installation) (host : Host) {input : ProgramInput} {args : String}
  {snarkjs : Bool} {listener : Listener Workshop} {w w' w'' : Workshop}

/-- **What comes of starting the tool in a witness computation**, in a new directory with the
program and its interface. Those have to be written, and the arguments have to make a command line.
-/
def computation? (input : ProgramInput) (args : String) (snarkjs : Bool) (w : Workshop) :
    Option Launch :=
  (w.prepared? host (inputFiles input)).bind fun files =>
    (witnessArgs input.abi args snarkjs).toOption.map fun line =>
      host.start ⟨tool.binary, line.1, line.2, files⟩

/-- Without a directory nothing is heard. -/
theorem computeWitness_of_unmade {e : HostError} (hmake : host.makeFailure? w.requested = some e) :
    tool.computeWitness host input args snarkjs listener w
      = (⟨[], .error (.failed (.host e))⟩, w.withoutNew) :=
  Workshop.handingOn_of_unmade hmake

variable (hmake : host.makeFailure? w.requested = none)
include hmake

/-- Nor is it where the tool does not succeed, and the directory is removed. -/
theorem computeWitness_of_error {stop : Stop}
    (h : (tool.computeIn host w.requested input args snarkjs).run w.withNew = (.error stop, w')) :
    tool.computeWitness host input args snarkjs listener w
      = (⟨[], .error stop⟩, w'.without host w.requested) := by
  refine Workshop.handingOn_of_error hmake ?_ rfl
  simp only [bind, StateT.bind, h]
  rfl

/-- **The tool succeeds or it does not**: either there is a run that says that it succeeded, and
what it printed is the result, or the computation is stopped. -/
theorem computeIn_cases (input : ProgramInput) (args : String) (snarkjs : Bool) :
    (∃ run w', tool.computation? host input args snarkjs w = some (.ran run)
        ∧ run.succeeded = true ∧ w'.files? w.requested = some run.files
        ∧ (tool.computeIn host w.requested input args snarkjs).run w.withNew
          = (.ok (Text.Utf8.decodeLossy run.stdout), w'))
      ∨ ((∀ run, tool.computation? host input args snarkjs w = some (.ran run) →
          run.succeeded = false)
        ∧ ∃ stop w', (tool.computeIn host w.requested input args snarkjs).run w.withNew
          = (.error stop, w')) := by
  unfold computation? computeIn
  rcases Workshop.prepared?_cases hmake (inputFiles input) with
    ⟨files, w', hprepared, hwrite, hfiles⟩ | ⟨hprepared, stop, w', hwrite⟩
  · rw [hprepared, Option.bind_some, Run.run_bind_of_ok hwrite]
    cases witnessArgs input.abi args snarkjs with
    | error e => exact .inr ⟨nofun, .failed e, w', rfl⟩
    | ok line =>
      show (∃ run w', some (host.start ⟨tool.binary, line.1, line.2, files⟩) = _ ∧ _ ∧ _
          ∧ (tool.run host w.requested .witness line.1 line.2).run _ = _)
        ∨ (∀ run, some (host.start ⟨tool.binary, line.1, line.2, files⟩) = _ → _)
          ∧ ∃ stop _, (tool.run host w.requested .witness line.1 line.2).run _ = (.error stop, _)
      rw [tool.run_run host hfiles]
      cases host.start ⟨tool.binary, line.1, line.2, files⟩ with
      | notFound | refused detail | unfed detail left | lost detail left =>
        exact .inr ⟨nofun, _, _, rfl⟩
      | ran run =>
        dsimp only
        cases hsucceeded : run.succeeded with
        | true =>
          exact .inl ⟨run, _, rfl, hsucceeded, Workshop.files?_withRun hfiles _ _, rfl⟩
        | false =>
          refine .inr ⟨fun run' hrun => ?_, _, _, rfl⟩
          cases hrun
          exact hsucceeded
  · rw [hprepared, Run.run_bind_of_error hwrite]
    exact .inr ⟨nofun, stop, w', rfl⟩

variable {stdout : String}
  (h : (tool.computeIn host w.requested input args snarkjs).run w.withNew = (.ok stdout, w'))
include h

/-- **A listener that hears everything** leaves the directory to the handle. -/
theorem computeWitness_of_heard {delivered : List String}
    (hheard : listener.deliver [] (loggedLines stdout) w' = ((delivered, true), w'')) :
    tool.computeWitness host input args snarkjs listener w
      = (⟨delivered, .ok ⟨.new witnessOperation w.requested, input.abi, snarkjs⟩⟩, w'') := by
  refine Workshop.handingOn_of_ok hmake ?_ rfl
  simp only [bind, StateT.bind, h, hheard]
  rfl

/-- One that breaks off has it removed. -/
theorem computeWitness_of_brokenOff {delivered : List String}
    (hheard : listener.deliver [] (loggedLines stdout) w' = ((delivered, false), w'')) :
    tool.computeWitness host input args snarkjs listener w
      = (⟨delivered, .error .crashed⟩, w''.without host w.requested) := by
  refine Workshop.handingOn_of_error hmake ?_ rfl
  simp only [bind, StateT.bind, h, hheard]
  rfl

end ProofToolchain.CommandLine.Installation
