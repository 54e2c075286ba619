import ProofToolchain.Proofs.Import.Walk
import ProofToolchain.Proofs.Pipeline

/-!
# Whom an engine blames

A resolver may raise a failure at any import, and what the engine makes of it is up to the engine.
It may end there, or carry on and ask for more imports, some of which raise failures too, and then
succeed or fail for a reason of its own. The caller is told of the failure that was raised first
all the same, as it was raised and not as the engine saw it (`Engine.FirstFailureWins`).

What an engine has to do for that is little. When it is stopped, the stop is either its own and
blames no callback, or it comes from an obstacle that the walk along imports really met
(`Engine.BlamesRightly`). The guard around the resolver does the rest, for any such engine.
-/

namespace ProofToolchain

/-! ## Whom an engine blames -/

/-- **A stop that is the engine's own**: an error that blames no callback. -/
def Stop.IsOwn : Stop → Prop
  | .failed e => e.kind ≠ .callback
  | _ => False

/-- Only a break-off of the resolver breaks off a compilation. -/
theorem Obstacle.eq_of_stop_eq_crashed {obstacle : Obstacle} (h : obstacle.stop = .crashed) :
    obstacle = .crashed := by
  cases obstacle with
  | crashed => rfl
  | _ => cases h

/-- Only a walk that is led on without an end does not end. -/
theorem Obstacle.eq_of_stop_eq_endless {obstacle : Obstacle} (h : obstacle.stop = .endless) :
    obstacle = .endless := by
  cases obstacle with
  | endless => rfl
  | _ => cases h

/-- Where a walk yields no sources an obstacle ended it. -/
theorem Walk.exists_of_sources {w : Walk} {stop : Stop} (h : w.sources = .error stop) :
    ∃ obstacle : Obstacle, w.outcome = .error obstacle ∧ obstacle.stop = stop := by
  unfold sources at h
  cases hout : w.outcome with
  | ok units => rw [hout] at h; cases h
  | error obstacle =>
    rw [hout] at h
    exact ⟨obstacle, rfl, Except.error.inj h⟩

/-- Only a raised failure becomes an error that blames a callback. -/
theorem Obstacle.exists_of_kind_eq_callback {obstacle : Obstacle} {e : Error}
    (h : obstacle.stop = .failed e) (hkind : e.kind = .callback) :
    ∃ failure, obstacle = .raised failure := by
  cases obstacle with
  | raised failure => exact ⟨failure, rfl⟩
  | absent q => cases h; cases hkind
  | crashed | endless => cases h

namespace Engine

variable {σ κ ω : Type} {engine : Engine σ κ ω}

/-- **An engine blames rightly** if each stop of a compilation is its own or comes from an obstacle
that the resolver put up, and each stop of a reading is its own. -/
structure BlamesRightly (engine : Engine σ κ ω) : Prop where
  /-- A compilation is stopped by the engine or by an obstacle that was met. -/
  compile : ∀ root resolver flags curve s stop,
    (engine.compile root resolver flags curve s).1.outcome = .error stop →
      stop.IsOwn ∨ ∃ obstacle : Obstacle, obstacle.stop = stop
        ∧ obstacle.IsMet (resolver.reach + root.queries.length)
            (resolver.exchanges (engine.compile root resolver flags curve s).1.trace)
  /-- The reading of a program is stopped by the engine. -/
  program : ∀ handle, Run.StopsOnly Stop.IsOwn (engine.compiled.program handle)
  /-- So is the reading of an interface. -/
  abi : ∀ handle, Run.StopsOnly Stop.IsOwn (engine.compiled.abi handle)
  /-- So is the reading of the form that `snarkjs` reads. -/
  snarkjsProgram : ∀ handle, Run.StopsOnly Stop.IsOwn (engine.compiled.snarkjsProgram handle)

/-- **How a resolver's failures decide a compilation**, given what came of the engine call and of
the whole, and what is known besides if a failure was raised. -/
structure FirstFailureWins (r : Resolver) (root : SourceUnit) (call : Watched Query κ)
    (result : Except Stop CompileArtifact) (unread : Prop) : Prop where
  /-- If the resolver raised a failure, the first one is the error, with all its causes. -/
  raised : ∀ (before after : List Exchange) (q : Query) (failure : Failure),
    r.exchanges call.trace = before ++ ⟨q, .raised failure⟩ :: after →
    (∀ e ∈ before, ∀ f, e.resolution ≠ .raised f) →
    (∀ e ∈ r.exchanges call.trace, e.resolution ≠ .crashed) →
    call.outcome ≠ .error .endless →
      result = .error (.failed (.callback "compile" "resolver" failure)) ∧ unread
  /-- If it raised none, no error blames a callback. -/
  quiet : (∀ e ∈ r.exchanges call.trace, ∀ f, e.resolution ≠ .raised f) →
    ∀ e, result = .error (.failed e) → e.kind ≠ .callback
  /-- The call comes to an end if the answers name no more locations than the resolver's reach, and
  one more for each import of the root. -/
  ends : ∀ locations, StaysWithin locations (r.exchanges call.trace) →
    locations.length ≤ r.reach + root.queries.length → call.outcome ≠ .error .endless

namespace BlamesRightly

variable (h : engine.BlamesRightly)
include h

/-- Reading a compilation is stopped by the engine only. -/
theorem stopsOnly_compiledFields (handle : κ) (snarkjs : Bool) :
    Run.StopsOnly Stop.IsOwn (engine.compiledFields handle snarkjs) := by
  have hextraction : ∀ operation field e, (Stop.failed e).IsOwn →
      (Stop.failed (.extraction operation field e)).IsOwn := fun _ _ _ he => he
  refine ((h.program handle).extracting (hextraction _ _)).bind fun program => ?_
  refine ((h.abi handle).extracting (hextraction _ _)).bind fun abi => ?_
  cases snarkjs with
  | false => exact .pure _
  | true =>
    exact ((h.snarkjsProgram handle).extracting (hextraction _ _)).bind fun program => .pure _

variable {source : String} {options : CompileOptions} {bound : Option ProviderOptions} {s s' : σ}
  {call : Watched Query κ}
  (hcall : engine.compileCall source (options.request bound) s = (call, s'))
include hcall

/-- A stop of the engine call is its own or comes from an obstacle, which the engine met as the
guard passed it on. -/
theorem isOwn_or_isMet {stop : Stop} (hstop : call.outcome = .error stop) :
    stop.IsOwn ∨ ∃ obstacle : Obstacle, obstacle.stop = stop
      ∧ obstacle.IsMet ((options.request bound).resolver.reach
            + (SourceUnit.mk (options.request bound).location source).queries.length)
          (((options.request bound).resolver.exchanges call.trace).map Exchange.passedOn) := by
  have hcompile := h.compile ⟨(options.request bound).location, source⟩
    (options.request bound).resolver.guarded (options.request bound).flags
    (options.request bound).curve s stop
  rw [show engine.compile _ _ _ _ s = (call, s') from hcall] at hcompile
  rw [← Resolver.exchanges_guarded]
  exact hcompile hstop

/-- **The failure that was raised first is the error.** -/
theorem result_of_firstFailure? {failure : Failure}
    (hfailure : (options.request bound).resolver.firstFailure? call.trace = some failure)
    (hsound : ∀ e ∈ (options.request bound).resolver.exchanges call.trace,
      e.resolution ≠ .crashed)
    (hends : call.outcome ≠ .error .endless) :
    ((engine.compileProgram source options bound).run s).1
      = .error (.failed (resolverError failure)) := by
  cases hout : call.outcome with
  | ok handle => rw [run_compileProgram_of_raised hcall hout hfailure]
  | error stop =>
    rw [run_compileProgram_of_error hcall hout, hfailure]
    -- only an error gives way to the failure, and there is no other stop here
    cases stop with
    | failed e => rfl
    | endless => exact absurd hout hends
    | crashed =>
      rcases h.isOwn_or_isMet hcall hout with hown | ⟨obstacle, hobstacle, hmet⟩
      · exact hown.elim
      · rw [Obstacle.eq_of_stop_eq_crashed hobstacle] at hmet
        obtain ⟨q, hq⟩ := hmet
        obtain ⟨e, he, hpassed⟩ := List.mem_map.1 hq
        exact absurd (Exchange.eq_of_passedOn (congrArg Exchange.resolution hpassed) nofun)
          (hsound e he)

/-- **Where no failure was raised, no error blames a callback.** -/
theorem kind_ne_callback
    (hquiet : ∀ e ∈ (options.request bound).resolver.exchanges call.trace,
      ∀ f, e.resolution ≠ .raised f)
    {e : Error}
    (herror : ((engine.compileProgram source options bound).run s).1 = .error (.failed e)) :
    e.kind ≠ .callback := by
  have hnone := Resolver.firstFailure?_eq_none_iff.2 hquiet
  cases hout : call.outcome with
  | ok handle =>
    rw [run_compileProgram_of_ok hcall hout hnone] at herror
    exact h.stopsOnly_compiledFields handle _ s' _ herror
  | error stop =>
    rw [run_compileProgram_of_error hcall hout, hnone] at herror
    have hstop : stop = .failed e := by
      cases stop <;> exact Except.error.inj herror
    rcases h.isOwn_or_isMet hcall hout with hown | ⟨obstacle, hobstacle, hmet⟩
    · rw [hstop] at hown
      exact hown
    · intro hkind
      obtain ⟨seen, rfl⟩ := Obstacle.exists_of_kind_eq_callback (hobstacle.trans hstop) hkind
      obtain ⟨q, hq⟩ := hmet
      obtain ⟨said, hsaid, hpassed⟩ := List.mem_map.1 hq
      obtain ⟨failure, hraised, -⟩ :=
        Exchange.exists_of_passedOn (congrArg Exchange.resolution hpassed)
      exact hquiet said hsaid failure hraised

/-- **A compilation comes to an end** if its answers keep to the reach of their resolver. -/
theorem outcome_ne_endless {locations : List Location}
    (hwithin : StaysWithin locations ((options.request bound).resolver.exchanges call.trace))
    (hreach : locations.length ≤ (options.request bound).resolver.reach
      + (SourceUnit.mk (options.request bound).location source).queries.length) :
    call.outcome ≠ .error .endless := by
  intro hout
  rcases h.isOwn_or_isMet hcall hout with hown | ⟨obstacle, hobstacle, hmet⟩
  · exact hown.elim
  · rw [Obstacle.eq_of_stop_eq_endless hobstacle] at hmet
    have hmore := hmet locations fun e he unit hunit => by
      obtain ⟨said, hsaid, rfl⟩ := List.mem_map.1 he
      exact hwithin said hsaid unit (Exchange.eq_of_passedOn hunit nofun)
    omega

end BlamesRightly

/-- **An engine that blames rightly lets the first failure win.** -/
theorem BlamesRightly.firstFailureWins (h : engine.BlamesRightly) {source : String}
    {options : CompileOptions} {bound : Option ProviderOptions} {s : σ} {unread : Prop}
    (hunread : ∀ q failure, ⟨q, .raised failure⟩ ∈ (options.request bound).resolver.exchanges
      (engine.compileCall source (options.request bound) s).1.trace → unread) :
    FirstFailureWins (options.request bound).resolver ⟨(options.request bound).location, source⟩
      (engine.compileCall source (options.request bound) s).1
      ((engine.compileProgram source options bound).run s).1 unread where
  raised before after q failure hsaid hbefore hsound hends := by
    have hfailure := Resolver.firstFailure?_of_eq_append hsaid hbefore
    refine ⟨h.result_of_firstFailure? rfl hfailure hsound hends, hunread q failure ?_⟩
    rw [hsaid]
    simp
  quiet hquiet _ herror := h.kind_ne_callback rfl hquiet herror
  ends _ hwithin hreach := h.outcome_ne_endless rfl hwithin hreach

end Engine

end ProofToolchain
