import Mathlib.Data.List.Perm.Subperm
import ProofToolchain.Import.Walk

/-!
# What is said on a walk along imports

A resolver may remember what it was asked, so what it answers is a matter of the whole call
(`Resolver.exchanges`). Facts about a call are stated of what was said in it. The failure that a
guard keeps is the first one that was said (`Resolver.firstFailure?_eq`). An obstacle that ends a
walk was the answer to one of its questions, unless the answers led to more locations than there was
room for (`Resolver.isMet_of_walk`).

Behind a guard nothing is said differently but failures, so the walk is the same
(`Resolver.walk_guarded`).
-/

namespace ProofToolchain

namespace SourceUnit

theorem anyAt_iff {units : List SourceUnit} {location : Location} :
    anyAt units location = true ↔ ∃ unit ∈ units, unit.location = location := by
  simp [anyAt]

theorem anyAt_eq_false_iff {units : List SourceUnit} {location : Location} :
    anyAt units location = false ↔ ∀ unit ∈ units, unit.location ≠ location := by
  simp [anyAt]

/-- A source at a new location is one more. -/
theorem nodup_append_singleton {units : List SourceUnit} {unit : SourceUnit}
    (h : (units.map (·.location)).Nodup) (hnew : anyAt units unit.location = false) :
    ((units ++ [unit]).map (·.location)).Nodup := by
  rw [List.map_append, List.nodup_append]
  refine ⟨h, by simp, ?_⟩
  intro a ha b hb hab
  obtain ⟨u, hu, rfl⟩ := List.mem_map.1 ha
  exact anyAt_eq_false_iff.1 hnew u hu (hab.trans (by simpa using hb))

end SourceUnit

/-! ## What is said -/

section Exchanges

variable {r : Resolver} {asked more rest : List Query} {q : Query}

@[simp] theorem Resolver.exchangesAfter_nil : r.exchangesAfter asked [] = [] := rfl

@[simp] theorem Resolver.exchangesAfter_cons :
    r.exchangesAfter asked (q :: rest)
      = ⟨q, r.answer asked q⟩ :: r.exchangesAfter (asked ++ [q]) rest := rfl

/-- What is said goes on where it was left. -/
theorem Resolver.exchangesAfter_append :
    r.exchangesAfter asked (more ++ rest)
      = r.exchangesAfter asked more ++ r.exchangesAfter (asked ++ more) rest := by
  induction more generalizing asked with
  | nil => simp
  | cons q more ih => simp [ih]

/-- A lookup says the same at any time. -/
@[simp] theorem Lookup.exchangesAfter_resolver (l : Lookup) (asked more : List Query) :
    l.resolver.exchangesAfter asked more = more.map fun q => ⟨q, l.answer q⟩ := by
  induction more generalizing asked with
  | nil => rfl
  | cons q more ih =>
    rw [Resolver.exchangesAfter_cons, ih]
    rfl

@[simp] theorem Lookup.exchanges_resolver (l : Lookup) (asked : List Query) :
    l.resolver.exchanges asked = asked.map fun q => ⟨q, l.answer q⟩ :=
  l.exchangesAfter_resolver [] asked

end Exchanges

/-! ## Guards -/

/-- The failure that is raised in an exchange, if one is. -/
def Exchange.failure? (e : Exchange) : Option Failure :=
  match e.resolution with
  | .raised failure => some failure
  | _ => none

theorem Exchange.failure?_eq_none_iff {e : Exchange} :
    e.failure? = none ↔ ∀ failure, e.resolution ≠ .raised failure := by
  unfold failure?
  split <;> simp_all

/-- **A guard keeps the first failure** that it hears of, if it has none yet. -/
theorem Guard.failure?_hearAll (guard : Guard) (exchanges : List Exchange) :
    (guard.hearAll exchanges).failure?
      = guard.failure?.or (exchanges.findSome? Exchange.failure?) := by
  induction exchanges generalizing guard with
  | nil => exact (Option.or_none ..).symm
  | cons e exchanges ih =>
    have hhear : (guard.hear e.resolution).1.failure? = guard.failure?.or e.failure? := by
      obtain ⟨q, resolution⟩ := e
      cases resolution <;> simp [hear, Exchange.failure?]
    show ((guard.hear e.resolution).1.hearAll exchanges).failure? = _
    rw [ih, hhear, Option.or_assoc, List.findSome?_cons]
    cases e.failure? <;> rfl

/-- An exchange as it is passed on. -/
def Exchange.passedOn (e : Exchange) : Exchange :=
  { e with resolution := (({} : Guard).hear e.resolution).2 }

/-- What is passed on of an answer is the answer, unless it is a failure. -/
theorem Exchange.eq_of_passedOn {e : Exchange} {answer : Resolution}
    (h : e.passedOn.resolution = answer) (hraised : ∀ failure, answer ≠ .raised failure) :
    e.resolution = answer := by
  obtain ⟨q, resolution⟩ := e
  cases resolution with
  | raised failure => exact absurd h.symm (hraised _)
  | found _ | absent | crashed => exact h

/-- A failure that is passed on was raised. -/
theorem Exchange.exists_of_passedOn {e : Exchange} {seen : Failure}
    (h : e.passedOn.resolution = .raised seen) :
    ∃ failure, e.resolution = .raised failure ∧ seen = failure.flattened := by
  obtain ⟨q, resolution⟩ := e
  cases resolution with
  | raised failure => exact ⟨failure, rfl, (Resolution.raised.inj h).symm⟩
  | found _ | absent | crashed => cases h

namespace Resolver

variable {r : Resolver} {asked : List Query}

/-- The first failure is the first one that was said. -/
theorem firstFailure?_eq (r : Resolver) (asked : List Query) :
    r.firstFailure? asked = (r.exchanges asked).findSome? Exchange.failure? :=
  Guard.failure?_hearAll {} _

/-- The first failure is found behind answers that raised none. -/
theorem firstFailure?_of_eq_append {before after : List Exchange} {q : Query} {failure : Failure}
    (h : r.exchanges asked = before ++ ⟨q, .raised failure⟩ :: after)
    (hbefore : ∀ e ∈ before, ∀ f, e.resolution ≠ .raised f) :
    r.firstFailure? asked = some failure := by
  have hnone : before.findSome? Exchange.failure? = none :=
    List.findSome?_eq_none_iff.2 fun e he => Exchange.failure?_eq_none_iff.2 (hbefore e he)
  rw [firstFailure?_eq, h, List.findSome?_append, hnone, Option.none_or]
  rfl

/-- Where no failure was raised there is no first one. -/
theorem firstFailure?_eq_none_iff :
    r.firstFailure? asked = none
      ↔ ∀ e ∈ r.exchanges asked, ∀ failure, e.resolution ≠ .raised failure := by
  rw [firstFailure?_eq, List.findSome?_eq_none_iff]
  exact forall₂_congr fun e _ => Exchange.failure?_eq_none_iff

/-- What is said behind a guard is what is said, passed on. -/
theorem exchangesAfter_guarded (r : Resolver) (asked more : List Query) :
    r.guarded.exchangesAfter asked more = (r.exchangesAfter asked more).map Exchange.passedOn := by
  induction more generalizing asked with
  | nil => rfl
  | cons q more ih =>
    rw [exchangesAfter_cons, ih]
    rfl

theorem exchanges_guarded (r : Resolver) (asked : List Query) :
    r.guarded.exchanges asked = (r.exchanges asked).map Exchange.passedOn :=
  r.exchangesAfter_guarded [] asked

end Resolver

/-- An obstacle as it is passed on. -/
def Obstacle.passedOn : Obstacle → Obstacle
  | .raised failure => .raised failure.flattened
  | obstacle => obstacle

/-- A walk behind a guard, which passes on what ended it. -/
def Walk.passedOn (w : Walk) : Walk :=
  { w with outcome := w.outcome.mapError Obstacle.passedOn }

/-- **The engine makes the walk that the resolver leads it on**, and sees what ended it passed
on. -/
theorem Resolver.walkFrom_guarded (r : Resolver) (tolerance : Tolerance) (budget : Nat)
    (entered : List SourceUnit) (asked pending : List Query) :
    r.guarded.walkFrom tolerance budget entered asked pending
      = (r.walkFrom tolerance budget entered asked pending).passedOn := by
  have hguarded : ∀ asked q, r.guarded.answer asked q = (({} : Guard).hear (r.answer asked q)).2 :=
    fun _ _ => rfl
  fun_induction r.walkFrom tolerance budget entered asked pending with
  | case1 => rw [walkFrom]; rfl
  | case2 budget entered asked q rest unit hanswer hat ih =>
    rw [walkFrom, hguarded, hanswer]
    simp only [Guard.hear, hat, ih]
    rfl
  | case3 entered asked q rest unit hanswer hat =>
    rw [walkFrom, hguarded, hanswer]
    simp only [Guard.hear, hat]
    rfl
  | case4 entered asked q rest unit hanswer hat budget ih =>
    rw [walkFrom, hguarded, hanswer]
    simp only [Guard.hear, hat, ih]
    rfl
  | case5 budget entered asked q rest hanswer hpass ih =>
    rw [walkFrom, hguarded, hanswer]
    simp only [Guard.hear, hpass, ih]
    rfl
  | case6 budget entered asked q rest hanswer hpass =>
    rw [walkFrom, hguarded, hanswer]
    simp only [Guard.hear, hpass]
    rfl
  | case7 budget entered asked q rest failure hanswer hpass ih =>
    rw [walkFrom, hguarded, hanswer]
    simp only [Guard.hear, hpass, ih]
    rfl
  | case8 budget entered asked q rest failure hanswer hpass =>
    rw [walkFrom, hguarded, hanswer]
    simp only [Guard.hear, hpass]
    rfl
  | case9 budget entered asked q rest hanswer =>
    rw [walkFrom, hguarded, hanswer]
    rfl

theorem Resolver.walk_guarded (r : Resolver) (tolerance : Tolerance) (root : SourceUnit) :
    r.guarded.walk tolerance root = (r.walk tolerance root).passedOn :=
  r.walkFrom_guarded tolerance _ _ _ _

/-! ## What ends a walk -/

/-- A walk with some queries before all others. -/
def Walk.afterAll (w : Walk) (asked : List Query) : Walk :=
  { w with queries := asked ++ w.queries }

@[simp] theorem Walk.afterAll_nil (w : Walk) : w.afterAll [] = w := rfl

@[simp] theorem Walk.afterAll_cons (w : Walk) (q : Query) (asked : List Query) :
    w.afterAll (q :: asked) = (w.afterAll asked).after q := rfl

theorem Walk.afterAll_append (w : Walk) (asked more : List Query) :
    w.afterAll (asked ++ more) = (w.afterAll more).afterAll asked := by
  simp [afterAll]

/-- **The answers stay within some locations.** -/
def StaysWithin (locations : List Location) (exchanges : List Exchange) : Prop :=
  ∀ e ∈ exchanges, ∀ unit, e.resolution = .found unit → unit.location ∈ locations

/-- **What an obstacle says** of what was said up to it, where there was room for some number of
locations. -/
def Obstacle.IsMet (room : Nat) (exchanges : List Exchange) : Obstacle → Prop
  | .absent q => ⟨q, .absent⟩ ∈ exchanges
  | .raised failure => ∃ q, ⟨q, .raised failure⟩ ∈ exchanges
  | .crashed => ∃ q, ⟨q, .crashed⟩ ∈ exchanges
  | .endless => ∀ locations, StaysWithin locations exchanges → room < locations.length

/-- What was said before makes no difference to an obstacle. -/
theorem Obstacle.IsMet.cons {room : Nat} {exchanges : List Exchange} {obstacle : Obstacle}
    (h : obstacle.IsMet room exchanges) (e : Exchange) :
    obstacle.IsMet room (e :: exchanges) := by
  cases obstacle with
  | absent p => exact List.mem_cons_of_mem e h
  | raised failure | crashed =>
    obtain ⟨p, hp⟩ := h
    exact ⟨p, List.mem_cons_of_mem e hp⟩
  | endless => exact fun locations hwithin => h locations (List.forall_mem_cons.1 hwithin).2

namespace Resolver

variable {r : Resolver} {tolerance : Tolerance} {budget : Nat} {entered : List SourceUnit}
  {asked pending : List Query}

/-- A walk is led on without an end only if the answers name a location too many. -/
theorem lt_length_of_endless
    (h : (r.walkFrom tolerance budget entered asked pending).outcome = .error .endless)
    {locations : List Location}
    (hwithin : StaysWithin locations
      (r.exchangesAfter asked (r.walkFrom tolerance budget entered asked pending).queries))
    (hnodup : (entered.map (·.location)).Nodup)
    (hentered : ∀ unit ∈ entered, unit.location ∈ locations) :
    entered.length + budget < locations.length := by
  fun_induction walkFrom r tolerance budget entered asked pending with
  | case1 | case6 | case8 | case9 => cases h
  | case2 _ _ _ _ _ _ _ _ ih | case5 _ _ _ _ _ _ _ ih | case7 _ _ _ _ _ _ _ _ ih =>
    exact ih h (List.forall_mem_cons.1 hwithin).2 hnodup hentered
  | case3 entered asked q rest unit hanswer hnew =>
    -- the sources entered and the one that there is no room for stand at different locations
    have hunit := (List.forall_mem_cons.1 hwithin).1 unit hanswer
    have hnodup' := SourceUnit.nodup_append_singleton hnodup (by simpa using hnew)
    have hsub : (entered ++ [unit]).map (·.location) ⊆ locations := by
      intro location hlocation
      obtain ⟨u, hu, rfl⟩ := List.mem_map.1 hlocation
      exact List.forall_mem_append.2 ⟨hentered, by simpa using hunit⟩ u hu
    have hlength := (hnodup'.subperm hsub).length_le
    rw [List.length_map, List.length_append, List.length_singleton] at hlength
    omega
  | case4 entered asked q rest unit hanswer hnew budget ih =>
    have hunit := (List.forall_mem_cons.1 hwithin).1 unit hanswer
    have hentered' : ∀ u ∈ entered ++ [unit], u.location ∈ locations :=
      List.forall_mem_append.2 ⟨hentered, by simpa using hunit⟩
    have hmore := ih h (List.forall_mem_cons.1 hwithin).2
      (SourceUnit.nodup_append_singleton hnodup (by simpa using hnew)) hentered'
    rw [List.length_append, List.length_singleton] at hmore
    omega

/-- A walk that ends early met what ended it: one of its queries had that answer. -/
theorem isMet_of_walkFrom {obstacle : Obstacle}
    (h : (r.walkFrom tolerance budget entered asked pending).outcome = .error obstacle)
    (hends : obstacle ≠ .endless) (room : Nat) :
    obstacle.IsMet room
      (r.exchangesAfter asked (r.walkFrom tolerance budget entered asked pending).queries) := by
  fun_induction walkFrom r tolerance budget entered asked pending with
  | case1 => cases h
  | case2 _ _ _ _ _ _ _ _ ih | case4 _ _ _ _ _ _ _ _ ih | case5 _ _ _ _ _ _ _ ih
  | case7 _ _ _ _ _ _ _ _ ih => exact (ih h).cons _
  | case3 => cases h; exact absurd rfl hends
  | case6 _ _ _ q _ hanswer => cases h; simp [Obstacle.IsMet, hanswer]
  | case8 _ _ _ q _ failure hanswer => cases h; exact ⟨q, by simp [hanswer]⟩
  | case9 _ _ _ q _ hanswer => cases h; exact ⟨q, by simp [hanswer]⟩

/-- **A walk from a root that ends early** met what ended it. One that was led on without an end
was led beyond the resolver's reach, and beyond one location more for each import of the root. -/
theorem isMet_of_walk {root : SourceUnit} {obstacle : Obstacle}
    (h : (r.walk tolerance root).outcome = .error obstacle) :
    obstacle.IsMet (r.reach + root.queries.length)
      (r.exchanges (r.walk tolerance root).queries) := by
  by_cases hends : obstacle = .endless
  · subst hends
    intro locations hwithin
    -- the root has a location of its own
    have hwithin' : StaysWithin (root.location :: locations)
        (r.exchanges (r.walk tolerance root).queries) :=
      fun e he unit hunit => List.mem_cons_of_mem _ (hwithin e he unit hunit)
    have hmore := lt_length_of_endless h hwithin' (by simp) (by simp)
    simp only [List.length_cons, List.length_nil] at hmore
    omega
  · exact isMet_of_walkFrom h hends _

end Resolver

end ProofToolchain
