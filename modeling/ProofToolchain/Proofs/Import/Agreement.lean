import ProofToolchain.Proofs.Import.Recursion
import ProofToolchain.Proofs.RaisedFailure

/-!
# Two engines ask the same questions

The scripted engine and the engine that drives the proof tool each go along the imports of a root,
and each keeps its own account of where it was. The first looks whether a location is new when the
resolver has answered; the second enters every source that it is given and finds there that it has
been to the location before. They also differ in what an unknown import is to them: the first
ends, and the second leaves the import to the tool and goes on.

Only the latter shows in what they ask. Of two walks the one that passes over more asks what the
other asks, in the same order, and perhaps goes on (`Resolver.queries_walkFrom_prefix`). As long as
the answers make no difference between them they are the same walk
(`Resolver.walkFrom_eq_of_passes`). So the questions of the one engine are the first ones of the
other, and all of them if the resolver knows every import (`walks_agree`).
-/

namespace ProofToolchain

/-! ## Walks that pass over more -/

/-- Answers that are passed over alike are obstacles alike. -/
theorem Tolerance.obstacle?_eq_of_passes {t t' : Tolerance} {answer : Resolution}
    (h : t.passes answer = t'.passes answer) (q : Query) :
    t.obstacle? q answer = t'.obstacle? q answer := by
  cases answer with
  | found unit | crashed => rfl
  | absent | raised => simp_all [passes, obstacle?]

namespace Resolver

variable {r : Resolver} {t t' : Tolerance} {budget : Nat} {entered : List SourceUnit}
  {before pending : List Query}

/-- The first query is made in any case. -/
theorem exists_queries_eq_cons (r : Resolver) (t : Tolerance) (budget : Nat)
    (entered : List SourceUnit) (before : List Query) (q : Query) (rest : List Query) :
    ∃ asked, (r.walkFrom t budget entered before (q :: rest)).queries = q :: asked := by
  rw [walkFrom]
  split
  · split
    · exact ⟨_, rfl⟩
    · split <;> exact ⟨_, rfl⟩
  · split <;> exact ⟨_, rfl⟩
  · split <;> exact ⟨_, rfl⟩
  · exact ⟨_, rfl⟩

/-- **A walk that passes over more asks the same and then more.** -/
theorem queries_walkFrom_prefix (h : ∀ answer, t.passes answer = true → t'.passes answer = true) :
    (r.walkFrom t budget entered before pending).queries
      <+: (r.walkFrom t' budget entered before pending).queries := by
  fun_induction walkFrom r t budget entered before pending with
  | case1 => exact List.nil_prefix
  | case2 budget entered before q rest unit hanswer hold ih =>
    rw [walkFrom_of_known hanswer hold]
    exact List.cons_prefix_cons.2 ⟨rfl, ih⟩
  | case4 entered before q rest unit hanswer hnew budget ih =>
    rw [walkFrom_of_new hanswer (by simpa using hnew)]
    exact List.cons_prefix_cons.2 ⟨rfl, ih⟩
  | case5 budget entered before q rest hanswer htol ih
  | case7 budget entered before q rest _ hanswer htol ih =>
    rw [walkFrom_of_passes (h _ (by rw [hanswer]; exact htol))]
    exact List.cons_prefix_cons.2 ⟨rfl, ih⟩
  -- the walk ends with the query, and the other one makes it as well
  | case3 entered before q rest | case6 budget entered before q rest
  | case8 budget entered before q rest | case9 budget entered before q rest =>
    obtain ⟨asked, hasked⟩ := r.exists_queries_eq_cons t' _ entered before q rest
    rw [hasked]
    exact List.cons_prefix_cons.2 ⟨rfl, List.nil_prefix⟩

/-- **Two walks are one** as long as the answers make no difference between them. -/
theorem walkFrom_eq_of_passes
    (h : ∀ e ∈ r.exchangesAfter before (r.walkFrom t' budget entered before pending).queries,
      t.passes e.resolution = t'.passes e.resolution) :
    r.walkFrom t budget entered before pending = r.walkFrom t' budget entered before pending := by
  fun_induction walkFrom r t' budget entered before pending with
  | case1 => rw [walkFrom]
  | case2 budget entered before q rest unit hanswer hold ih =>
    rw [walkFrom_of_known hanswer hold, ih (List.forall_mem_cons.1 h).2]
  | case3 entered before q rest unit hanswer hnew =>
    rw [walkFrom]
    simp [hanswer, hnew]
  | case4 entered before q rest unit hanswer hnew budget ih =>
    rw [walkFrom_of_new hanswer (by simpa using hnew), ih (List.forall_mem_cons.1 h).2]
  | case5 budget entered before q rest hanswer htol ih
  | case7 budget entered before q rest _ hanswer htol ih =>
    obtain ⟨hq, hrest⟩ := List.forall_mem_cons.1 h
    have hpasses : t.passes (r.answer before q) = true := by
      rw [show t.passes (r.answer before q) = _ from hq]
      dsimp only
      rw [hanswer]
      exact htol
    rw [walkFrom_of_passes hpasses, ih hrest]
  | case6 budget entered before q rest hanswer htol
  | case8 budget entered before q rest _ hanswer htol =>
    refine walkFrom_of_obstacle ?_
    rw [Tolerance.obstacle?_eq_of_passes (h _ List.mem_cons_self), hanswer]
    exact if_neg htol
  | case9 budget entered before q rest hanswer =>
    exact walkFrom_of_obstacle (by rw [hanswer]; rfl)

end Resolver

/-! ## What the engines ask -/

/-- A walk yields the sources it entered or what its obstacle makes of the compilation. -/
theorem Walk.sources_eq_endless_iff {w : Walk} :
    w.sources = .error .endless ↔ w.outcome = .error .endless := by
  constructor
  · intro h
    obtain ⟨obstacle, hout, hstop⟩ := exists_of_sources h
    rw [hout, Obstacle.eq_of_stop_eq_endless hstop]
  · intro h
    rw [sources, h]
    rfl

section Calls

variable (root : SourceUnit) (resolver : Resolver) (flags : Flags) (curve : Curve)

/-- The scripted engine asks what its walk asks. -/
theorem Scripted.Script.trace_compile (script : Scripted.Script) (s : Scripted.State) :
    (script.engine.compile root resolver flags curve s).1.trace
      = (resolver.walk script.tolerance root).queries :=
  congrArg Watched.trace (script.compile_fst root resolver flags curve s)

/-- The scripted engine is led on without an end where its walk is. -/
theorem Scripted.Script.compile_eq_endless_iff (script : Scripted.Script) (s : Scripted.State) :
    (script.engine.compile root resolver flags curve s).1.outcome = .error .endless
      ↔ (resolver.walk script.tolerance root).outcome = .error .endless := by
  have hcall : (script.engine.compile root resolver flags curve s).1 = _ :=
    script.compile_fst root resolver flags curve s
  rw [hcall, ← Walk.sources_eq_endless_iff]
  cases (resolver.walk script.tolerance root).sources with
  | error stop => simp
  | ok units => cases script.compileFails <;> simp

/-- **The scripted engine is a recursion that looks before it descends**, if it comes to an end. -/
theorem Scripted.Script.exists_descends (script : Scripted.Script) (r : Lookup)
    (s : Scripted.State)
    (h : (script.engine.compile root r.resolver flags curve s).1.outcome ≠ .error .endless) :
    ∃ units stop, r.Descends script.tolerance [root] root.queries
      (script.engine.compile root r.resolver flags curve s).1.trace units stop := by
  rw [ne_eq, script.compile_eq_endless_iff] at h
  obtain ⟨units, stop, -, hdescends⟩ := Lookup.descends_of_walkFrom h
  rw [script.trace_compile]
  exact ⟨units, stop, hdescends⟩

/-- **The engine that drives the proof tool is one that descends before it looks**, if it comes to
an end and is not stopped by the host. -/
theorem CommandLine.Installation.exists_visits (tool : CommandLine.Installation)
    (host : CommandLine.Host) (r : Lookup) (w : CommandLine.Workshop)
    (hhost : ¬ CommandLine.StoppedByHost
      ((tool.engine host).compile root r.resolver flags curve w).1.outcome)
    (h : ((tool.engine host).compile root r.resolver flags curve w).1.outcome ≠ .error .endless) :
    ∃ units stop, r.Visits CommandLine.SourceTree.tolerance [] root
      ((tool.engine host).compile root r.resolver flags curve w).1.trace units stop := by
  have htrace : ((tool.engine host).compile root r.resolver flags curve w).1.trace = _ :=
    tool.trace_compile_of_not_stoppedByHost host hhost
  have hends : (r.resolver.walk CommandLine.SourceTree.tolerance root).outcome ≠ .error .endless :=
    fun hwalk => h ((tool.compile_eq_endless_iff host hhost).2 hwalk)
  obtain ⟨units, stop, -, hdescends⟩ := Lookup.descends_of_walkFrom hends
  rw [htrace]
  exact ⟨units, stop, Lookup.visits_iff_descends.2 hdescends⟩

end Calls

/-- **The two engines ask the same questions.** What the scripted engine asks, unless it carries on
after failures, is the beginning of what the engine that drives the proof tool asks, and all of it
if no answer to that is that an import is unknown. A host that stops the latter only cuts short what
it asks. Whenever the one comes to an end, what it asked is what is asked by a recursion that looks
before it descends; and by one that descends before it looks for the other. -/
theorem walks_agree (r : Lookup) (root : SourceUnit) (script : Scripted.Script)
    (hraises : script.swallowsFailures = false) (flags : Flags) (curve : Curve)
    (s : Scripted.State) (tool : CommandLine.Installation) (host : CommandLine.Host)
    (w : CommandLine.Workshop) :
    (¬ CommandLine.StoppedByHost
        ((tool.engine host).compile root r.resolver flags curve w).1.outcome →
      (script.engine.compile root r.resolver flags curve s).1.trace
          <+: ((tool.engine host).compile root r.resolver flags curve w).1.trace
        ∧ ((∀ q ∈ ((tool.engine host).compile root r.resolver flags curve w).1.trace,
            r.answer q ≠ .absent) →
          (script.engine.compile root r.resolver flags curve s).1.trace
            = ((tool.engine host).compile root r.resolver flags curve w).1.trace)
        ∧ ∀ (failing : CommandLine.Host) (w' : CommandLine.Workshop),
          ((tool.engine failing).compile root r.resolver flags curve w').1.trace
            <+: ((tool.engine host).compile root r.resolver flags curve w).1.trace)
      ∧ ((script.engine.compile root r.resolver flags curve s).1.outcome ≠ .error .endless →
        ∃ units stop, r.Descends ⟨false, false⟩ [root] root.queries
          (script.engine.compile root r.resolver flags curve s).1.trace units stop)
      ∧ (¬ CommandLine.StoppedByHost
          ((tool.engine host).compile root r.resolver flags curve w).1.outcome →
        ((tool.engine host).compile root r.resolver flags curve w).1.outcome ≠ .error .endless →
        ∃ units stop, r.Visits ⟨true, false⟩ [] root
          ((tool.engine host).compile root r.resolver flags curve w).1.trace units stop) := by
  have htolerance : script.tolerance = ⟨false, false⟩ := by rw [Scripted.Script.tolerance, hraises]
  refine ⟨fun hhost => ?_, fun hends => ?_, tool.exists_visits root flags curve host r w⟩
  · have hdriven : ((tool.engine host).compile root r.resolver flags curve w).1.trace = _ :=
      tool.trace_compile_of_not_stoppedByHost host hhost
    rw [script.trace_compile, hdriven, htolerance]
    refine ⟨?_, fun hknown => ?_, fun failing w' => ?_⟩
    · refine Resolver.queries_walkFrom_prefix fun answer hpasses => ?_
      cases answer <;> cases hpasses
    · refine congrArg Walk.queries (Resolver.walkFrom_eq_of_passes fun e he => ?_)
      rw [Lookup.exchangesAfter_resolver] at he
      obtain ⟨q, hq, rfl⟩ := List.mem_map.1 he
      -- the two tolerances differ in nothing but an unknown import
      dsimp only
      cases hanswer : r.answer q with
      | absent => exact absurd hanswer (hknown q hq)
      | found unit | raised failure | crashed => rfl
    · exact tool.trace_compile_prefix failing
  · rw [← htolerance]
    exact script.exists_descends root flags curve r s hends

/-- A root with an import that is not known between two that are. -/
def partlyKnownRoot : SourceUnit := ⟨"main", "import \"a\"; import \"std\"; import \"b\";"⟩

/-- A lookup that knows two sources, of which one imports the root and the other. -/
def partlyKnown : Lookup where
  resolve _ path :=
    if path = "a" then .found ⟨"a", "import \"main\"; import \"b\";"⟩
    else if path = "b" then .found ⟨"b", ""⟩
    else if path = "main" then .found partlyKnownRoot
    else .absent
  reach := 3

/-- Where no tool is installed its absence is what a compilation ends with, all imports asked. -/
theorem compile_partlyKnown :
    ((CommandLine.Installation.engine {} CommandLine.bareHost).compile partlyKnownRoot
        partlyKnown.resolver .empty .bn128 {}).1
      = ⟨[⟨"main", "a"⟩, ⟨"a", "main"⟩, ⟨"a", "b"⟩, ⟨"main", "std"⟩, ⟨"main", "b"⟩],
        .error (.failed (CommandLine.Installation.missing {}))⟩ := by cbv

/-- Both engines go down into the first source. The scripted one ends at the unknown import, and the
other one asks for what comes after it. -/
theorem walks_agree_partlyKnown :
    ({} : Scripted.Script).swallowsFailures = false
      ∧ ((Scripted.Script.engine {}).compile partlyKnownRoot partlyKnown.resolver .empty .bn128
          {}).1.trace
        = [⟨"main", "a"⟩, ⟨"a", "main"⟩, ⟨"a", "b"⟩, ⟨"main", "std"⟩]
      ∧ (((CommandLine.Installation.engine {} CommandLine.bareHost).compile partlyKnownRoot
          partlyKnown.resolver .empty .bn128 {}).1.trace
        = [⟨"main", "a"⟩, ⟨"a", "main"⟩, ⟨"a", "b"⟩, ⟨"main", "std"⟩, ⟨"main", "b"⟩])
      ∧ ((Scripted.Script.engine {}).compile partlyKnownRoot partlyKnown.resolver .empty .bn128
          {}).1.trace
        <+: ((CommandLine.Installation.engine {} CommandLine.bareHost).compile partlyKnownRoot
          partlyKnown.resolver .empty .bn128 {}).1.trace := by
  have hhost : ¬ CommandLine.StoppedByHost ((CommandLine.Installation.engine {}
      CommandLine.bareHost).compile partlyKnownRoot partlyKnown.resolver .empty .bn128 {}).1.outcome
      := by
    rw [compile_partlyKnown]
    exact CommandLine.Installation.not_stoppedByHost_missing {}
  have hagree := walks_agree partlyKnown partlyKnownRoot {} rfl .empty .bn128 {} {}
    CommandLine.bareHost {}
  exact ⟨rfl, (Scripted.Script.trace_compile ..).trans (by cbv), congrArg Watched.trace compile_partlyKnown,
    (hagree.1 hhost).1⟩

end ProofToolchain
