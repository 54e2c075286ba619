import ProofToolchain.Proofs.CommandLine.Compilation
import ProofToolchain.Proofs.Scripted.Accounting

/-!
# A raised failure decides a compilation

Both engines blame rightly, so a failure that the resolver raised reaches the caller on either of
them (`first_failure_wins`). Neither reads a result after that. The scripted engine may have been
told to carry on, and then leaves its handle unread; the engine that drives the proof tool has not
even started it.
-/

namespace ProofToolchain

/-! ## The scripted engine -/

namespace Scripted.Script

variable (script : Script)

/-- What comes of a compilation: an obstacle of the walk, the failure of the script, or a handle. -/
theorem compile_fst (root : SourceUnit) (resolver : Resolver) (flags : Flags) (curve : Curve)
    (s : State) :
    (script.compile root resolver flags curve s).1 =
      ⟨(resolver.walk script.tolerance root).queries,
        match (resolver.walk script.tolerance root).sources with
        | .error stop => .error stop
        | .ok _ =>
          if script.compileFails then
            .error (.failed (.stage .compile (root.location ++ ": scripted failure")))
          else .ok ⟨s.ledger.issued⟩⟩ := by
  unfold compile
  dsimp only
  cases (resolver.walk script.tolerance root).sources with
  | error stop => cases stop <;> rfl
  | ok units =>
    by_cases hf : script.compileFails = true
    · simp only [hf, if_true]
      rfl
    · simp only [hf]
      rfl

/-- A reading is stopped where the field is broken, and nowhere else. -/
theorem stopsOnly_read {α : Type} {P : Stop → Prop} {operation : String}
    (hrefused : ∀ detail, P (.failed (.resource operation detail))) (field : String) (value : α)
    (h : Handle) : Run.StopsOnly P (script.read operation field value h) := by
  refine (Run.StopsOnly.lift (noteExtraction h field)).bind fun _ => ?_
  split
  · exact .fail (hrefused _)
  · exact .pure value

/-- The scripted engine blames its resolver only for what it did. -/
theorem blamesRightly : script.engine.BlamesRightly where
  compile root resolver flags curve s stop hstop := by
    have hcall : (script.engine.compile root resolver flags curve s).1 = _ :=
      script.compile_fst root resolver flags curve s
    rw [hcall] at hstop ⊢
    cases hsources : (resolver.walk script.tolerance root).sources with
    | error met =>
      rw [hsources] at hstop
      obtain ⟨obstacle, hout, hmet⟩ := Walk.exists_of_sources hsources
      exact .inr ⟨obstacle, hmet.trans (Except.error.inj hstop), Resolver.isMet_of_walk hout⟩
    | ok units =>
      rw [hsources] at hstop
      by_cases hf : script.compileFails = true
      · simp only [hf, if_true] at hstop
        cases hstop
        exact .inl nofun
      · simp only [hf] at hstop
        cases hstop
  program := script.stopsOnly_read (fun _ => nofun) _ _
  abi := script.stopsOnly_read (fun _ => nofun) _ _
  snarkjsProgram := script.stopsOnly_read (fun _ => nofun) _ _

variable {source : String} {options : CompileOptions} {bound : Option ProviderOptions}
  {s : State} {q : Query} {failure : Failure}

/-- **After a raised failure nothing is read**: a record that the compilation adds to the ledger is
that of a handle that was left alone. -/
theorem unread_of_raised
    (h : ⟨q, .raised failure⟩ ∈ (options.request bound).resolver.exchanges
      (script.engine.compileCall source (options.request bound) s).1.trace) :
    ∃ new, ((script.engine.compileProgram source options bound).run s).2.ledger.records
        = s.ledger.records ++ new ∧ ∀ record ∈ new, record.extractions = [] := by
  refine ⟨_, script.records_compileProgram source options bound s, fun record hrecord => ?_⟩
  have hraised : ((options.request bound).resolver.exchanges
      (script.engine.compileCall source (options.request bound) s).1.trace).any
        (fun e => e.failure?.isSome) = true := List.any_eq_true.2 ⟨_, h, rfl⟩
  unfold compileRecord? at hrecord
  dsimp only at hrecord
  split at hrecord
  · cases hrecord
  · rw [if_pos hraised] at hrecord
    rw [List.mem_singleton.1 hrecord]
    rfl

end Scripted.Script

/-! ## The engine that drives the proof tool -/

namespace CommandLine.Installation

variable (tool : Installation) (host : Host)

/-- **After a raised failure the tool stays idle**, and there is no handle. -/
theorem idle_of_raised {source : String} {options : CompileOptions}
    {bound : Option ProviderOptions} {w : Workshop} {q : Query} {failure : Failure}
    (h : ⟨q, .raised failure⟩ ∈ (options.request bound).resolver.exchanges
      ((tool.engine host).compileCall source (options.request bound) w).1.trace) :
    (∀ handle, ((tool.engine host).compileCall source (options.request bound) w).1.outcome
        ≠ .ok handle)
      ∧ (((tool.engine host).compileProgram source options bound).run w).2.history
        = w.history := by
  cases hcall : (tool.engine host).compileCall source (options.request bound) w with
  | mk call w' =>
    have hcompile : tool.compile host ⟨(options.request bound).location, source⟩
        (options.request bound).resolver.guarded (options.request bound).flags
        (options.request bound).curve w = (call, w') := hcall
    -- what the engine is told of the failure is raised as well
    have hseen : ⟨q, .raised failure.flattened⟩
        ∈ (options.request bound).resolver.guarded.exchanges call.trace := by
      rw [Resolver.exchanges_guarded]
      rw [hcall] at h
      exact List.mem_map.2 ⟨_, h, rfl⟩
    rw [show call = (tool.compile host _ _ _ _ w).1 from congrArg Prod.fst hcompile.symm] at hseen
    obtain ⟨stop, hout, hhistory⟩ := tool.compile_of_raised host hseen
    rw [hcompile] at hout hhistory
    rw [Engine.run_compileProgram_of_error hcall hout, hout]
    exact ⟨nofun, hhistory⟩

end CommandLine.Installation

/-! ## Both engines -/

/-- **A raised failure decides a compilation**, on either engine and whatever else goes wrong. If
the resolver raised failures and broke nothing off, and the walk along imports came to an end, then
the caller receives the first of them, with the causes it came with. The scripted engine may have
gone on to a handle, which is not read; the engine that drives the proof tool yields none and has
not run the tool. If the resolver raised no failure, no error blames a callback. The walk comes to
an end whenever the resolver keeps to its reach. -/
theorem first_failure_wins (source : String) (options : CompileOptions)
    (bound : Option ProviderOptions) :
    (∀ (script : Scripted.Script) (s : Scripted.State),
      Engine.FirstFailureWins (options.request bound).resolver
        ⟨(options.request bound).location, source⟩
        (script.engine.compileCall source (options.request bound) s).1
        ((script.engine.compileProgram source options bound).run s).1
        (∃ new, ((script.engine.compileProgram source options bound).run s).2.ledger.records
            = s.ledger.records ++ new ∧ ∀ record ∈ new, record.extractions = []))
    ∧ ∀ (tool : CommandLine.Installation) (host : CommandLine.Host) (w : CommandLine.Workshop),
      Engine.FirstFailureWins (options.request bound).resolver
        ⟨(options.request bound).location, source⟩
        ((tool.engine host).compileCall source (options.request bound) w).1
        (((tool.engine host).compileProgram source options bound).run w).1
        ((∀ handle, ((tool.engine host).compileCall source (options.request bound) w).1.outcome
            ≠ .ok handle)
          ∧ (((tool.engine host).compileProgram source options bound).run w).2.history
            = w.history) := by
  constructor
  · intro script s
    exact script.blamesRightly.firstFailureWins fun _ _ h => script.unread_of_raised h
  · intro tool host w
    exact (tool.blamesRightly host).firstFailureWins fun _ _ h => tool.idle_of_raised host h

/-- A source with two imports. -/
def twoImports : String := "import \"a\"; import \"b\";"

/-- A call whose resolver refuses every import, for a reason. -/
def refusedCall : CompileOptions :=
  { resolver := some
      (Lookup.resolver ⟨fun _ path => .raised ⟨"refused " ++ path, ["offline"]⟩, 0⟩) }

/-- An engine that carries on after a failure and fails at the end. -/
def stubborn : Scripted.Script := { swallowsFailures := true, compileFails := true }

/-- Two imports are refused and the script fails besides: the error is the first refusal. The other
engine does not ask for the second import, and comes to the same. Without a resolver the error is
another one. -/
theorem first_failure_wins_twoImports :
    (stubborn.engine.compileCall twoImports (refusedCall.request none) {}).1.trace
        = [⟨"main.zok", "a"⟩, ⟨"main.zok", "b"⟩]
      ∧ ((stubborn.engine.compileProgram twoImports refusedCall none).run {}).1
        = .error (.failed (.callback "compile" "resolver" ⟨"refused a", ["offline"]⟩))
      ∧ (((CommandLine.Installation.engine {} CommandLine.bareHost).compileProgram twoImports
          refusedCall none).run {}).1
        = .error (.failed (.callback "compile" "resolver" ⟨"refused a", ["offline"]⟩))
      ∧ (Error.stage .compile "main.zok: import not found: a").kind ≠ .callback := by
  have htrace : (stubborn.engine.compileCall twoImports (refusedCall.request none) {}).1.trace
      = [⟨"main.zok", "a"⟩, ⟨"main.zok", "b"⟩] := by cbv
  have hasked : ((CommandLine.Installation.engine {} CommandLine.bareHost).compileCall twoImports
      (refusedCall.request none) {}).1.trace = [⟨"main.zok", "a"⟩] := by cbv
  -- every answer is a failure, and with no resolver none is
  have hsound : ∀ asked, ∀ e ∈ (refusedCall.request none).resolver.exchanges asked,
      e.resolution ≠ .crashed := by
    simp [refusedCall, CompileOptions.request, Lookup.answer]
  have hquiet : ∀ asked, ∀ e ∈ (({} : CompileOptions).request none).resolver.exchanges asked,
      ∀ f, e.resolution ≠ .raised f := by
    simp [CompileOptions.request, Resolver.empty, Lookup.empty, Lookup.answer]
  obtain ⟨hscripted, htool⟩ := first_failure_wins twoImports refusedCall none
  refine ⟨htrace, ?_, ?_, ?_⟩
  · exact ((hscripted stubborn {}).raised [] _ ⟨"main.zok", "a"⟩ _ (by rw [htrace]; rfl)
      (by simp) (hsound _) (by intro h; cbv at h; cases h)).1
  · exact ((htool {} CommandLine.bareHost {}).raised [] [] ⟨"main.zok", "a"⟩ _
      (by rw [hasked]; rfl) (by simp) (hsound _) (by intro h; cbv at h; cases h)).1
  · exact ((first_failure_wins twoImports {} none).1 stubborn {}).quiet (hquiet _) _ (by cbv)

end ProofToolchain
