import ProofToolchain.CommandLine.Engine
import ProofToolchain.Proofs.CommandLine.Launch
import ProofToolchain.Proofs.Text.Utf8

/-!
# What an accepted proof stands on

A proof is accepted if the tool prints the word for that, anywhere in either of its outputs
(`Installation.verify_accepts_iff`). The word can be looked for in the bytes, because reading them
leniently keeps ASCII as it is and because it cannot go across the line feed between the outputs.

Nothing else is asked of the run. It may say that it failed, and it may print the word for a
rejected proof as well: such a proof is accepted too. So an acceptance is sound
(`Installation.AcceptsSoundly`) exactly for a tool that does neither when it prints the word, and
it is not sound for every tool (`Installation.not_acceptsSoundly_contradictory`).
-/

namespace ProofToolchain.CommandLine

/-! ## The words of a run -/

namespace ToolRun

/-- **A run prints a word** if the bytes of the word stand in what it printed or in what it
complained of. -/
def Prints (run : ToolRun) (word : List Char) : Prop :=
  Text.Utf8.encode (String.ofList word) <:+: run.stdout
    ∨ Text.Utf8.encode (String.ofList word) <:+: run.stderr

/-- **The outputs put together hold a word** if the run prints it. -/
theorem contains_iff_prints {word : List Char} (hword : word ≠ [])
    (hascii : ∀ c ∈ word, Text.Utf8.IsAscii c) (hline : '\n' ∉ word) (run : ToolRun) :
    Text.contains word ((Text.Utf8.decodeLossy run.stdout).toList
        ++ '\n' :: (Text.Utf8.decodeLossy run.stderr).toList) = true ↔ run.Prints word := by
  rw [Text.contains_iff, Text.infix_append_cons_iff hword hline,
    Text.Utf8.infix_decodeLossy_iff hword hascii, Text.Utf8.infix_decodeLossy_iff hword hascii]
  rfl

/-- What the words of a run decide about a proof. -/
def outcome? (run : ToolRun) : Option Bool :=
  verificationOutcome (Text.Utf8.decodeLossy run.stdout) (Text.Utf8.decodeLossy run.stderr)

/-- **The words decide by what is printed**, and the word for an accepted proof comes first. -/
theorem outcome?_eq_some_iff (run : ToolRun) (accepted : Bool) :
    run.outcome? = some accepted ↔
      if accepted then run.Prints passedWord
      else ¬ run.Prints passedWord ∧ run.Prints failedWord := by
  have hpassed : _ ↔ run.Prints passedWord :=
    run.contains_iff_prints (by decide) (List.forall_iff_forall_mem.1 (by decide)) (by decide)
  have hfailed : _ ↔ run.Prints failedWord :=
    run.contains_iff_prints (by decide) (List.forall_iff_forall_mem.1 (by decide)) (by decide)
  rw [← hpassed, ← hfailed]
  unfold outcome? verificationOutcome
  dsimp only
  cases accepted with
  | false => split_ifs <;> simp_all
  | true => split_ifs <;> simp_all

end ToolRun

/-! ## Verifications -/

namespace Installation

variable (tool : Installation) (host : Host) (verificationKey proof : Bytes)
  (options : ProviderOptions) (w : Workshop)

/-- **What comes of starting the tool in a verification**, in a new directory with the key and the
proof, if those could be written there. -/
def verification? : Option Launch :=
  (w.prepared? host [(verificationKeyFile, verificationKey), (proofFile, proof)]).map fun files =>
    host.start ⟨tool.binary, verifyArgs options, none, files⟩

/-- **How a verification ends**: it yields what the words of the run decide, if there is a run and
they do, and nothing otherwise. -/
theorem run_verify (accepted : Bool) :
    ((tool.verify host verificationKey proof options).run w).1 = .ok accepted ↔
      ∃ run, tool.verification? host verificationKey proof options w = some (.ran run)
        ∧ run.outcome? = some accepted := by
  unfold verification?
  cases hmake : host.makeFailure? w.requested with
  | some e =>
    rw [verify, Workshop.run_within_of_unmade hmake, Workshop.prepared?_of_unmade hmake]
    simp
  | none =>
    rw [verify, Workshop.run_within_of_made hmake]
    rcases Workshop.prepared?_cases hmake
        [(verificationKeyFile, verificationKey), (proofFile, proof)] with
      ⟨files, w', hprepared, hwrite, hfiles⟩ | ⟨hprepared, stop, w', hwrite⟩
    · rw [Run.run_bind_of_ok hwrite, hprepared, Option.map_some]
      have hlaunch := tool.run_launch host .verify (verifyArgs options) none hfiles
      cases hstart : host.start ⟨tool.binary, verifyArgs options, none, files⟩ with
      | ran run =>
        rw [hstart] at hlaunch
        rw [Run.run_bind_of_ok hlaunch]
        have hout : run.outcome? = verificationOutcome (Text.Utf8.decodeLossy run.stdout)
          (Text.Utf8.decodeLossy run.stderr) := rfl
        dsimp only
        rw [← hout]
        cases hdecided : run.outcome? with
        | none => exact iff_of_false nofun (by simp [hdecided])
        | some decided =>
          show Except.ok decided = Except.ok accepted ↔ _
          simp [hdecided]
      | notFound | refused detail | unfed detail left | lost detail left =>
        rw [hstart] at hlaunch
        rw [Run.run_bind_of_error hlaunch]
        simp
    · rw [Run.run_bind_of_error hwrite, hprepared]
      simp

/-- **An acceptance is sound** if it stands on a run that says that it succeeded and does not
print the word for a rejected proof. -/
def AcceptsSoundly : Prop :=
  ((tool.verify host verificationKey proof options).run w).1 = .ok true →
    ∃ run, tool.verification? host verificationKey proof options w = some (.ran run)
      ∧ run.succeeded = true ∧ ¬ run.Prints failedWord

/-- **What an accepted proof stands on.** A proof is accepted if and only if the tool runs to its
end and prints the word for that, and rejected if and only if the tool runs and prints the word for
that alone. So acceptances are sound exactly if no run that prints the first word says that it
failed or prints the second word too. -/
theorem verify_accepts_iff :
    (((tool.verify host verificationKey proof options).run w).1 = .ok true ↔
        ∃ run, tool.verification? host verificationKey proof options w = some (.ran run)
          ∧ run.Prints passedWord)
      ∧ (((tool.verify host verificationKey proof options).run w).1 = .ok false ↔
        ∃ run, tool.verification? host verificationKey proof options w = some (.ran run)
          ∧ ¬ run.Prints passedWord ∧ run.Prints failedWord)
      ∧ (tool.AcceptsSoundly host verificationKey proof options w ↔
        ∀ run, tool.verification? host verificationKey proof options w = some (.ran run) →
          run.Prints passedWord → run.succeeded = true ∧ ¬ run.Prints failedWord) := by
  have htrue : ((tool.verify host verificationKey proof options).run w).1 = .ok true ↔
      ∃ run, tool.verification? host verificationKey proof options w = some (.ran run)
        ∧ run.Prints passedWord := by
    rw [run_verify]
    exact exists_congr fun run => and_congr_right fun _ => run.outcome?_eq_some_iff true
  refine ⟨htrue, ?_, ?_⟩
  · rw [run_verify]
    exact exists_congr fun run => and_congr_right fun _ => run.outcome?_eq_some_iff false
  · unfold AcceptsSoundly
    rw [htrue]
    constructor
    · intro hsound run hrun hpassed
      obtain ⟨run', hrun', hfine⟩ := hsound ⟨run, hrun, hpassed⟩
      obtain rfl : run = run' := Launch.ran.inj (Option.some.inj (hrun.symm.trans hrun'))
      exact hfine
    · rintro hfine ⟨run, hrun, hpassed⟩
      exact ⟨run, hrun, hfine run hrun hpassed⟩

end Installation

/-! ## A run that contradicts itself -/

/-- A run that prints the word for an accepted proof, complains of a rejected one and says that it
failed. -/
def contradictoryRun : ToolRun where
  stdout := Text.Utf8.encode "PASSED"
  stderr := Text.Utf8.encode "FAILED"
  succeeded := false
  files := []

/-- A host on which every start of the tool comes to that. -/
def contradictoryHost : Host where
  scratchPath _ := "/scratch"
  launch _ := .ran contradictoryRun
  finds _ := true

/-- **A failed run is taken for an acceptance**, although it prints the word for a rejected one. -/
theorem Installation.not_acceptsSoundly_contradictory :
    ((Installation.verify {} contradictoryHost [] [] {}).run {}).1 = .ok true
      ∧ Installation.verification? {} contradictoryHost [] [] {} {} = some (.ran contradictoryRun)
      ∧ contradictoryRun.succeeded = false
      ∧ contradictoryRun.Prints failedWord
      ∧ ¬ Installation.AcceptsSoundly {} contradictoryHost [] [] {} {} := by
  have hstart : Installation.verification? {} contradictoryHost [] [] {} {}
      = some (.ran contradictoryRun) := by
    cbv
  have haccepted : ((Installation.verify {} contradictoryHost [] [] {}).run {}).1 = .ok true :=
    (Installation.run_verify ..).2 ⟨contradictoryRun, hstart, by cbv⟩
  refine ⟨haccepted, hstart, rfl, .inr (List.infix_refl _), fun hsound => ?_⟩
  obtain ⟨run, hrun, hsucceeded, -⟩ := hsound haccepted
  obtain rfl : contradictoryRun = run := Launch.ran.inj (Option.some.inj (hstart.symm.trans hrun))
  cases hsucceeded

end ProofToolchain.CommandLine
