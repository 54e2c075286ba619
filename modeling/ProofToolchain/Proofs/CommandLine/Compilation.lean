import ProofToolchain.CommandLine.Engine
import ProofToolchain.Proofs.Blame
import ProofToolchain.Proofs.CommandLine.Launch
import ProofToolchain.Proofs.CommandLine.Sources

/-!
# How a compilation with the proof tool ends

A compilation makes a directory, writes the sources there while it walks along the imports, and only
then runs the tool. So there are four ways for it to end: there is no directory, not all sources are
written, the tool does not succeed, or there is a handle, which keeps the directory. Each is one
equation.

What stops the writing is an obstacle that the walk met or a file that the host cannot write
(`SourceTree.writeRoot_cases`). What the tool, the host or a missing file makes of a compilation
blames no callback, so the engine blames rightly.
-/

namespace ProofToolchain

namespace CommandLine

open Run (StopsOnly)

section Reading

variable {host : Host} {P : Stop → Prop} (hhost : ∀ e, P (.failed (.host e)))

include hhost

variable {lease : Lease} (hrefused : ∀ detail, P (.failed (.resource lease.operation detail)))

include hrefused

/-- A file is read, or the host refuses it, or the directory was given up. -/
theorem Lease.stopsOnly_read (name : String) : StopsOnly P (lease.read host name) := by
  unfold Lease.read
  split
  · exact Workshop.stopsOnly_read hhost _ name
  · exact .fail (hrefused _)

/-- Or the file was not asked for. -/
theorem Lease.stopsOnly_readRequested (requested : Bool) (name what : String) :
    StopsOnly P (lease.readRequested host requested name what) := by
  unfold Lease.readRequested
  split
  · exact Lease.stopsOnly_read hhost hrefused name
  · exact .fail (hrefused _)

end Reading

/-- An interface is read, or the file holds none. -/
theorem CompileHandle.stopsOnly_abi {host : Host} {P : Stop → Prop} {handle : CompileHandle}
    (hread : StopsOnly P (handle.scratch.read host abiFile))
    (hstage : ∀ text, P (.failed (.stage .compile text))) : StopsOnly P (handle.abi host) := by
  refine hread.bind fun content => ?_
  split
  · exact .pure _
  · exact .fail (hstage _)

/-- **What comes of a call that the host stops**: a directory cannot be made, or a file cannot be
written or read. -/
def StoppedByHost {α : Type} (outcome : Except Stop α) : Prop :=
  ∃ e, outcome = .error (.failed (.host e))

namespace Installation

variable (tool : Installation) (host : Host)

/-- A tool that is missing is no fault of the host. -/
theorem not_stoppedByHost_missing {α : Type} :
    ¬ StoppedByHost (.error (.failed tool.missing) : Except Stop α) := by
  rintro ⟨e, h⟩
  cases h

/-- Without sources nothing is run. -/
theorem run_compileIn_of_error (number : Nat) (stop : Stop) (flags : Flags) (curve : Curve)
    (w : Workshop) :
    (tool.compileIn host number (.error stop) flags curve).run w = (.error stop, w) :=
  Run.run_bind_of_error rfl _

/-- Where the sources were written, the tool decides. -/
theorem stopsOnly_compileIn {P : Stop → Prop} (hmissing : P (.failed tool.missing))
    (hstage : ∀ text, P (.failed (.stage .compile text))) (number : Nat) (stem : String)
    (flags : Flags) (curve : Curve) :
    StopsOnly P (tool.compileIn host number (.ok stem) flags curve) :=
  StopsOnly.bind (.pure stem) fun _ =>
    (tool.stopsOnly_run host hmissing hstage number _ _).bind fun _ => .pure _

/-- A handle is one over the directory of its compilation, and says whether the form for `snarkjs`
was asked for. -/
theorem yieldsOnly_compileIn (number : Nat) (written : Except Stop String) (flags : Flags)
    (curve : Curve) :
    Run.YieldsOnly
      (· = ⟨.new compileOperation number, flags.isEnabled Flags.snarkjsFlag⟩)
      (tool.compileIn host number written flags curve) :=
  .bind fun _ => .bind fun _ => .pure rfl

section Compilation

variable {root : SourceUnit} {resolver : Resolver} {flags : Flags} {curve : Curve}
  {written : Except Stop String} {writing : Writing} {w w' : Workshop}

/-- Without a directory nothing is asked. -/
theorem compile_of_unmade {e : HostError} (hmake : host.makeFailure? w.requested = some e) :
    tool.compile host root resolver flags curve w
      = (⟨[], .error (.failed (.host e))⟩, w.withoutNew) :=
  Workshop.handingOn_of_unmade hmake

variable (hmake : host.makeFailure? w.requested = none)
  (hwritten : (SourceTree.writeRoot host resolver root).run {} = (written, writing))
include hmake hwritten

/-- A compilation that succeeds in its directory leaves it to the handle. -/
theorem compile_of_ok {handle : CompileHandle}
    (h : (tool.compileIn host w.requested written flags curve).run
      (w.withNew.withFiles w.requested (Entries.setAll · writing.saved)) = (.ok handle, w')) :
    tool.compile host root resolver flags curve w = (⟨writing.asked, .ok handle⟩, w') := by
  refine Workshop.handingOn_of_ok hmake ?_ rfl
  rw [hwritten]
  have h' : (tool.compileIn host w.requested written flags curve).run _ = _ := h
  simp only [bind, StateT.bind, modify, modifyGet, MonadStateOf.modifyGet, StateT.modifyGet,
    pure, h']
  rfl

/-- A compilation that is stopped in its directory has it removed. -/
theorem compile_of_error {stop : Stop}
    (h : (tool.compileIn host w.requested written flags curve).run
      (w.withNew.withFiles w.requested (Entries.setAll · writing.saved)) = (.error stop, w')) :
    tool.compile host root resolver flags curve w
      = (⟨writing.asked, .error stop⟩, w'.without host w.requested) := by
  refine Workshop.handingOn_of_error hmake ?_ rfl
  rw [hwritten]
  have h' : (tool.compileIn host w.requested written flags curve).run _ = _ := h
  simp only [bind, StateT.bind, modify, modifyGet, MonadStateOf.modifyGet, StateT.modifyGet,
    pure, h']
  rfl

/-- **Without sources there is neither a handle nor a run of the tool.** -/
theorem compile_of_unwritten {stop : Stop} (hstop : written = .error stop) :
    tool.compile host root resolver flags curve w
      = (⟨writing.asked, .error stop⟩,
        (w.withNew.withFiles w.requested (Entries.setAll · writing.saved)).without host
          w.requested) :=
  tool.compile_of_error host hmake hwritten (by rw [hstop, run_compileIn_of_error])

/-- What a compilation asks is what is asked as the sources are written. -/
theorem trace_compile :
    (tool.compile host root resolver flags curve w).1.trace = writing.asked := by
  cases hmade : (tool.compileIn host w.requested written flags curve).run
      (w.withNew.withFiles w.requested (Entries.setAll · writing.saved)) with
  | mk made w' =>
    cases made with
    | ok handle => rw [tool.compile_of_ok host hmake hwritten hmade]
    | error stop => rw [tool.compile_of_error host hmake hwritten hmade]

end Compilation

/-- **A handle is handed on unreleased**, and says whether the form for `snarkjs` was asked for. -/
theorem eq_of_compile_ok {root : SourceUnit} {resolver : Resolver} {flags : Flags} {curve : Curve}
    {w : Workshop} {handle : CompileHandle}
    (h : (tool.compile host root resolver flags curve w).1.outcome = .ok handle) :
    handle = ⟨.new compileOperation w.requested, flags.isEnabled Flags.snarkjsFlag⟩ := by
  cases hmake : host.makeFailure? w.requested with
  | some e =>
    rw [tool.compile_of_unmade host hmake] at h
    cases h
  | none =>
    cases hwritten : (SourceTree.writeRoot host resolver root).run {} with
    | mk written writing =>
      cases hmade : (tool.compileIn host w.requested written flags curve).run
          (w.withNew.withFiles w.requested (Entries.setAll · writing.saved)) with
      | mk made w' =>
        cases made with
        | ok made =>
          rw [tool.compile_of_ok host hmake hwritten hmade] at h
          cases h
          exact tool.yieldsOnly_compileIn host _ _ _ _ _ handle (congrArg Prod.fst hmade)
        | error stop =>
          rw [tool.compile_of_error host hmake hwritten hmade] at h
          cases h

/-! ## What is asked -/

section Asked

variable {root : SourceUnit} {resolver : Resolver} {flags : Flags} {curve : Curve} {w : Workshop}

/-- **How a compilation ends.** The host stops it, or its walk meets an obstacle, or the walk comes to
its end and only the tool can stop it then. -/
theorem compile_ends (root : SourceUnit) (resolver : Resolver) (flags : Flags) (curve : Curve)
    (w : Workshop) :
    (∃ e, (tool.compile host root resolver flags curve w).1.outcome = .error (.failed (.host e))
        ∧ (tool.compile host root resolver flags curve w).1.trace
          <+: (resolver.walk SourceTree.tolerance root).queries)
      ∨ (∃ obstacle : Obstacle,
        (tool.compile host root resolver flags curve w).1.outcome = .error obstacle.stop
          ∧ resolver.walk SourceTree.tolerance root
            = ⟨(tool.compile host root resolver flags curve w).1.trace, .error obstacle⟩)
      ∨ ∃ units, resolver.walk SourceTree.tolerance root
          = ⟨(tool.compile host root resolver flags curve w).1.trace, .ok units⟩
        ∧ ∀ stop, (tool.compile host root resolver flags curve w).1.outcome = .error stop →
          stop = .failed tool.missing ∨ ∃ text, stop = .failed (.stage .compile text) := by
  cases hmake : host.makeFailure? w.requested with
  | some e =>
    rw [tool.compile_of_unmade host hmake]
    exact .inl ⟨e, rfl, List.nil_prefix⟩
  | none =>
    cases hwritten : (SourceTree.writeRoot host resolver root).run {} with
    | mk written writing =>
      rcases SourceTree.writeRoot_cases hwritten with
        ⟨units, rfl, hwalk, -⟩ | ⟨obstacle, rfl, hwalk⟩ | ⟨e, rfl, -, budget, met, more, hwalk⟩
      · refine .inr (.inr ⟨units, ?_, fun stop hstop => ?_⟩)
        · rw [tool.trace_compile host hmake hwritten, hwalk]
        · cases hmade : (tool.compileIn host w.requested (.ok (SourceTree.stem 0)) flags curve).run
              (w.withNew.withFiles w.requested (Entries.setAll · writing.saved)) with
          | mk made w' =>
            cases made with
            | ok handle =>
              rw [tool.compile_of_ok host hmake hwritten hmade] at hstop
              cases hstop
            | error own =>
              rw [tool.compile_of_error host hmake hwritten hmade] at hstop
              cases hstop
              exact tool.stopsOnly_compileIn (P := fun stop => stop = .failed tool.missing
                ∨ ∃ text, stop = .failed (.stage .compile text)) host (.inl rfl)
                (fun text => .inr ⟨text, rfl⟩) _ _ flags curve _ stop (congrArg Prod.fst hmade)
      · rw [tool.compile_of_unwritten host hmake hwritten rfl]
        exact .inr (.inl ⟨obstacle, rfl, hwalk⟩)
      · rw [tool.compile_of_unwritten host hmake hwritten rfl, hwalk]
        exact .inl ⟨e, rfl, List.prefix_append _ _⟩

/-- **A compilation asks what its walk asks**, up to where the host stops it. -/
theorem compile_cases (root : SourceUnit) (resolver : Resolver) (flags : Flags) (curve : Curve)
    (w : Workshop) :
    (StoppedByHost (tool.compile host root resolver flags curve w).1.outcome
        ∧ (tool.compile host root resolver flags curve w).1.trace
          <+: (resolver.walk SourceTree.tolerance root).queries)
      ∨ (¬ StoppedByHost (tool.compile host root resolver flags curve w).1.outcome
        ∧ (tool.compile host root resolver flags curve w).1.trace
          = (resolver.walk SourceTree.tolerance root).queries
        ∧ ((tool.compile host root resolver flags curve w).1.outcome = .error .endless
          ↔ (resolver.walk SourceTree.tolerance root).outcome = .error .endless)) := by
  rcases tool.compile_ends host root resolver flags curve w with
    ⟨e, hout, hprefix⟩ | ⟨obstacle, hout, hwalk⟩ | ⟨units, hwalk, hown⟩
  · exact .inl ⟨⟨e, hout⟩, hprefix⟩
  · rw [hout, hwalk]
    refine .inr ⟨fun ⟨e, he⟩ => ?_, rfl, fun h => ?_, fun h => ?_⟩
    · cases obstacle <;> cases he
    · rw [Obstacle.eq_of_stop_eq_endless (Except.error.inj h)]
    · cases h
      rfl
  · -- neither the tool nor a missing one is the host's doing, and neither leads on
    refine .inr ⟨fun ⟨e, he⟩ => ?_, by rw [hwalk], fun h => ?_, fun h => ?_⟩
    · rcases hown _ he with h | ⟨text, h⟩ <;> cases h
    · rcases hown _ h with h | ⟨text, h⟩ <;> cases h
    · rw [hwalk] at h
      cases h

/-- Whoever stops it, it asks nothing else. -/
theorem trace_compile_prefix :
    (tool.compile host root resolver flags curve w).1.trace
      <+: (resolver.walk SourceTree.tolerance root).queries := by
  rcases tool.compile_cases host root resolver flags curve w with ⟨-, h⟩ | ⟨-, h, -⟩
  · exact h
  · exact h ▸ List.prefix_rfl

/-- A compilation that is led on without an end was led on by its resolver. -/
theorem walk_eq_endless_of_compile
    (h : (tool.compile host root resolver flags curve w).1.outcome = .error .endless) :
    (resolver.walk SourceTree.tolerance root).outcome = .error .endless := by
  rcases tool.compile_cases host root resolver flags curve w with ⟨⟨e, he⟩, -⟩ | ⟨-, -, hiff⟩
  · cases h.symm.trans he
  · exact hiff.1 h

variable (h : ¬ StoppedByHost (tool.compile host root resolver flags curve w).1.outcome)
include h

/-- **Where the host does not stop it, it asks all that its walk asks.** -/
theorem trace_compile_of_not_stoppedByHost :
    (tool.compile host root resolver flags curve w).1.trace
      = (resolver.walk SourceTree.tolerance root).queries := by
  rcases tool.compile_cases host root resolver flags curve w with ⟨hstopped, -⟩ | ⟨-, htrace, -⟩
  · exact absurd hstopped h
  · exact htrace

/-- And it is led on without an end where its walk is. -/
theorem compile_eq_endless_iff :
    (tool.compile host root resolver flags curve w).1.outcome = .error .endless
      ↔ (resolver.walk SourceTree.tolerance root).outcome = .error .endless := by
  rcases tool.compile_cases host root resolver flags curve w with ⟨hstopped, -⟩ | ⟨-, -, hiff⟩
  · exact absurd hstopped h
  · exact hiff

end Asked

/-! ## Blame -/

/-- The engine that drives the proof tool blames its resolver only for what it did. -/
theorem blamesRightly : (tool.engine host).BlamesRightly where
  compile root resolver flags curve w stop hstop := by
    show stop.IsOwn ∨ ∃ obstacle : Obstacle, obstacle.stop = stop
      ∧ obstacle.IsMet (resolver.reach + root.queries.length)
          (resolver.exchanges (tool.compile host root resolver flags curve w).1.trace)
    have hstop' : (tool.compile host root resolver flags curve w).1.outcome = .error stop := hstop
    rcases tool.compile_ends host root resolver flags curve w with
      ⟨e, hout, -⟩ | ⟨obstacle, hout, hwalk⟩ | ⟨units, -, hown⟩
    · cases hstop'.symm.trans hout
      exact .inl nofun
    · have hmet := Resolver.isMet_of_walk (congrArg Walk.outcome hwalk)
      rw [hwalk] at hmet
      exact .inr ⟨obstacle, Except.error.inj (hout.symm.trans hstop'), hmet⟩
    · rcases hown stop hstop' with rfl | ⟨text, rfl⟩ <;> exact .inl nofun
  program _ := Lease.stopsOnly_read (fun _ => nofun) (fun _ => nofun) _
  abi _ := CompileHandle.stopsOnly_abi (Lease.stopsOnly_read (fun _ => nofun) (fun _ => nofun) _)
    fun _ => nofun
  snarkjsProgram _ := Lease.stopsOnly_readRequested (fun _ => nofun) (fun _ => nofun) _ _ _

/-- **After a raised failure there is neither a handle nor a run of the tool**: the writing passes
over none. -/
theorem compile_of_raised {root : SourceUnit} {resolver : Resolver} {flags : Flags} {curve : Curve}
    {w : Workshop} {q : Query} {failure : Failure}
    (h : ⟨q, .raised failure⟩
      ∈ resolver.exchanges (tool.compile host root resolver flags curve w).1.trace) :
    ∃ stop, (tool.compile host root resolver flags curve w).1.outcome = .error stop
      ∧ (tool.compile host root resolver flags curve w).2.history = w.history := by
  cases hmake : host.makeFailure? w.requested with
  | some e =>
    rw [tool.compile_of_unmade host hmake]
    exact ⟨_, rfl, rfl⟩
  | none =>
    cases hwritten : (SourceTree.writeRoot host resolver root).run {} with
    | mk written writing =>
      cases written with
      | error stop =>
        rw [tool.compile_of_unwritten host hmake hwritten rfl]
        exact ⟨stop, rfl, rfl⟩
      | ok stem =>
        exfalso
        rw [tool.trace_compile host hmake hwritten] at h
        obtain ⟨units, -, hleads, -⟩ := SourceTree.exists_units hwritten
        rcases hleads.answer_asked _ h with ⟨unit, hfound, -⟩ | hpass
        · cases hfound
        · cases hpass

end Installation

end CommandLine

end ProofToolchain
