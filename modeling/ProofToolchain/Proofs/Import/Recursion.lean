import Mathlib
import ProofToolchain.Proofs.Import.Walk

/-!
# Walks as recursions

A walk keeps the queries that are still to be made in one list, and a bound on the sources that it
may enter. An engine that goes along imports has neither: it calls itself for a source that is new,
and the calls that are under way are its list. Such a recursion is a derivation here, which is there
if and only if the recursion comes to its end, so nothing bounds it. It is stated for lookups, which
give one answer to one question and so need no memory of what was asked.

There are two ways to write it. One looks whether a location is new when the resolver has answered,
and calls itself only then (`Lookup.Descends`). The other calls itself for every answer and looks
when it enters (`Lookup.Visits`). They are the same recursion (`visits_iff_descends`), and it is
the walk: every walk that is not led on without an end is a recursion (`descends_of_walkFrom`), and
a recursion is the walk for every bound that leaves room for its sources (`Descends.walkFrom_eq`).

Whatever ends a recursion, it entered a location once and for the source that was seen first there
(`Descends.firstSeen?_eq`), and it made no more calls than the sources it entered have imports
(`Descends.length_asked_le`).
-/

namespace ProofToolchain

namespace Lookup

variable {r : Lookup} {tolerance : Tolerance}

/-- A lookup answers as ever, whatever was asked before. -/
theorem answer_resolver (r : Lookup) (before : List Query) (q : Query) :
    r.resolver.answer before q = r.answer q := rfl

/-- The source that a query leads to. -/
def found? (r : Lookup) (q : Query) : Option SourceUnit :=
  match r.answer q with
  | .found unit => some unit
  | _ => none

theorem found?_eq_some_iff {q : Query} {unit : SourceUnit} :
    r.found? q = some unit ↔ r.answer q = .found unit := by
  unfold found?
  split <;> simp_all

/-! ## The recursion -/

/-- **A recursion that looks before it descends.** With the sources `entered` it makes the queries
`imports` of one source, and all others they lead to. In all it asks `asked` and comes to the
sources `units`, at the end of the imports or at an obstacle. -/
inductive Descends (r : Lookup) (tolerance : Tolerance) :
    (entered : List SourceUnit) → (imports asked : List Query) → (units : List SourceUnit) →
      (stop : Option Obstacle) → Prop
  /-- No import is left. -/
  | done (entered : List SourceUnit) : Descends r tolerance entered [] [] entered none
  /-- The import leads to a source that was entered before. -/
  | known {entered units : List SourceUnit} {rest asked : List Query} {q : Query}
      {unit : SourceUnit} {stop : Option Obstacle} (hanswer : r.answer q = .found unit)
      (hold : SourceUnit.anyAt entered unit.location = true)
      (hrest : Descends r tolerance entered rest asked units stop) :
      Descends r tolerance entered (q :: rest) (q :: asked) units stop
  /-- The import leads to a new source, whose imports come before the others. -/
  | enters {entered between units : List SourceUnit} {rest below asked : List Query} {q : Query}
      {unit : SourceUnit} {stop : Option Obstacle} (hanswer : r.answer q = .found unit)
      (hnew : SourceUnit.anyAt entered unit.location = false)
      (hbelow : Descends r tolerance (entered ++ [unit]) unit.queries below between none)
      (hrest : Descends r tolerance between rest asked units stop) :
      Descends r tolerance entered (q :: rest) (q :: (below ++ asked)) units stop
  /-- The import leads to a new source, and an obstacle comes up among its imports. -/
  | stopsBelow {entered units : List SourceUnit} {rest below : List Query} {q : Query}
      {unit : SourceUnit} {obstacle : Obstacle} (hanswer : r.answer q = .found unit)
      (hnew : SourceUnit.anyAt entered unit.location = false)
      (hbelow : Descends r tolerance (entered ++ [unit]) unit.queries below units
        (some obstacle)) :
      Descends r tolerance entered (q :: rest) (q :: below) units (some obstacle)
  /-- The import leads to no source, and that is passed over. -/
  | passes {entered units : List SourceUnit} {rest asked : List Query} {q : Query}
      {stop : Option Obstacle} (hanswer : tolerance.passes (r.answer q) = true)
      (hrest : Descends r tolerance entered rest asked units stop) :
      Descends r tolerance entered (q :: rest) (q :: asked) units stop
  /-- The answer is an obstacle. -/
  | stops {entered : List SourceUnit} {rest : List Query} {q : Query} {obstacle : Obstacle}
      (hanswer : tolerance.obstacle? q (r.answer q) = some obstacle) :
      Descends r tolerance entered (q :: rest) [q] entered (some obstacle)

mutual

/-- **A recursion that descends before it looks.** It is called for a source with the sources
`entered`, and does nothing if one of them stands at its location. -/
inductive Visits (r : Lookup) (tolerance : Tolerance) :
    (entered : List SourceUnit) → SourceUnit → (asked : List Query) → (units : List SourceUnit) →
      (stop : Option Obstacle) → Prop
  /-- The location was entered before. -/
  | known {entered : List SourceUnit} {unit : SourceUnit}
      (hold : SourceUnit.anyAt entered unit.location = true) :
      Visits r tolerance entered unit [] entered none
  /-- The location is entered before the imports are made. -/
  | enters {entered units : List SourceUnit} {unit : SourceUnit} {asked : List Query}
      {stop : Option Obstacle} (hnew : SourceUnit.anyAt entered unit.location = false)
      (himports : VisitsImports r tolerance (entered ++ [unit]) unit.queries asked units stop) :
      Visits r tolerance entered unit asked units stop

/-- The recursion for the imports of a source: every answer that leads to a source is a call. -/
inductive VisitsImports (r : Lookup) (tolerance : Tolerance) :
    (entered : List SourceUnit) → (imports asked : List Query) → (units : List SourceUnit) →
      (stop : Option Obstacle) → Prop
  /-- No import is left. -/
  | done (entered : List SourceUnit) : VisitsImports r tolerance entered [] [] entered none
  /-- The import leads to a source, and the call for it comes to its end. -/
  | calls {entered between units : List SourceUnit} {rest below asked : List Query} {q : Query}
      {unit : SourceUnit} {stop : Option Obstacle} (hanswer : r.answer q = .found unit)
      (hcall : Visits r tolerance entered unit below between none)
      (hrest : VisitsImports r tolerance between rest asked units stop) :
      VisitsImports r tolerance entered (q :: rest) (q :: (below ++ asked)) units stop
  /-- The import leads to a source, and the call for it comes to an obstacle. -/
  | stopsBelow {entered units : List SourceUnit} {rest below : List Query} {q : Query}
      {unit : SourceUnit} {obstacle : Obstacle} (hanswer : r.answer q = .found unit)
      (hcall : Visits r tolerance entered unit below units (some obstacle)) :
      VisitsImports r tolerance entered (q :: rest) (q :: below) units (some obstacle)
  /-- The import leads to no source, and that is passed over. -/
  | passes {entered units : List SourceUnit} {rest asked : List Query} {q : Query}
      {stop : Option Obstacle} (hanswer : tolerance.passes (r.answer q) = true)
      (hrest : VisitsImports r tolerance entered rest asked units stop) :
      VisitsImports r tolerance entered (q :: rest) (q :: asked) units stop
  /-- The answer is an obstacle. -/
  | stops {entered : List SourceUnit} {rest : List Query} {q : Query} {obstacle : Obstacle}
      (hanswer : tolerance.obstacle? q (r.answer q) = some obstacle) :
      VisitsImports r tolerance entered (q :: rest) [q] entered (some obstacle)

end

section Recursion

variable {entered units : List SourceUnit} {imports asked : List Query} {stop : Option Obstacle}

/-- Looking before or after the call comes to the same. -/
theorem Descends.visitsImports (h : r.Descends tolerance entered imports asked units stop) :
    r.VisitsImports tolerance entered imports asked units stop := by
  induction h with
  | done entered => exact .done entered
  | known hanswer hold _ ih => exact .calls hanswer (.known hold) ih
  | enters hanswer hnew _ _ ihbelow ihrest =>
    exact .calls hanswer (.enters hnew ihbelow) ihrest
  | stopsBelow hanswer hnew _ ihbelow => exact .stopsBelow hanswer (.enters hnew ihbelow)
  | passes hanswer _ ih => exact .passes hanswer ih
  | stops hanswer => exact .stops hanswer

mutual

/-- A call is nothing for a location that was entered, and the imports of its source otherwise. -/
theorem Visits.descends : ∀ {entered units : List SourceUnit} {unit : SourceUnit}
    {asked : List Query} {stop : Option Obstacle},
    r.Visits tolerance entered unit asked units stop →
      (SourceUnit.anyAt entered unit.location = true ∧ asked = [] ∧ units = entered ∧ stop = none)
        ∨ (SourceUnit.anyAt entered unit.location = false
          ∧ r.Descends tolerance (entered ++ [unit]) unit.queries asked units stop)
  | _, _, _, _, _, .known hold => .inl ⟨hold, rfl, rfl, rfl⟩
  | _, _, _, _, _, .enters hnew himports => .inr ⟨hnew, himports.descends⟩

theorem VisitsImports.descends : ∀ {entered units : List SourceUnit} {imports asked : List Query}
    {stop : Option Obstacle}, r.VisitsImports tolerance entered imports asked units stop →
      r.Descends tolerance entered imports asked units stop
  | _, _, _, _, _, .done entered => .done entered
  | _, _, _, _, _, .calls hanswer hcall hrest => by
    rcases hcall.descends with ⟨hold, rfl, rfl, -⟩ | ⟨hnew, hbelow⟩
    · exact .known hanswer hold hrest.descends
    · exact .enters hanswer hnew hbelow hrest.descends
  | _, _, _, _, _, .stopsBelow hanswer hcall => by
    rcases hcall.descends with ⟨-, -, -, hstop⟩ | ⟨hnew, hbelow⟩
    · cases hstop
    · exact .stopsBelow hanswer hnew hbelow
  | _, _, _, _, _, .passes hanswer hrest => .passes hanswer hrest.descends
  | _, _, _, _, _, .stops hanswer => .stops hanswer

end

/-- **The two recursions are one**, from a root. -/
theorem visits_iff_descends {root : SourceUnit} :
    r.Visits tolerance [] root asked units stop
      ↔ r.Descends tolerance [root] root.queries asked units stop := by
  constructor
  · intro h
    rcases h.descends with ⟨hold, -⟩ | ⟨-, hdescends⟩
    · cases hold
    · exact hdescends
  · exact fun h => .enters rfl h.visitsImports

end Recursion

/-! ## The recursion is the walk -/

/-- What a recursion comes to, at the end of the imports or at an obstacle. -/
def outcomeAt (units : List SourceUnit) : Option Obstacle → Except Obstacle (List SourceUnit)
  | none => .ok units
  | some obstacle => .error obstacle

/-- **A recursion can be cut** behind any of its imports, unless an obstacle comes up before. -/
theorem Descends.split {entered units : List SourceUnit} {imports rest asked : List Query}
    {stop : Option Obstacle} (h : r.Descends tolerance entered (imports ++ rest) asked units stop) :
    (∃ below between after, asked = below ++ after
        ∧ r.Descends tolerance entered imports below between none
        ∧ r.Descends tolerance between rest after units stop)
      ∨ ∃ obstacle, stop = some obstacle
        ∧ r.Descends tolerance entered imports asked units (some obstacle) := by
  induction imports generalizing entered asked with
  | nil => exact .inl ⟨[], entered, asked, rfl, .done entered, h⟩
  | cons q imports ih =>
    cases h with
    | known hanswer hold hrest =>
      rcases ih hrest with ⟨below, between, after, rfl, hbelow, hafter⟩ | ⟨obstacle, rfl, hstop⟩
      · exact .inl ⟨q :: below, between, after, rfl, .known hanswer hold hbelow, hafter⟩
      · exact .inr ⟨obstacle, rfl, .known hanswer hold hstop⟩
    | enters hanswer hnew hunit hrest =>
      rcases ih hrest with ⟨below, between, after, rfl, hbelow, hafter⟩ | ⟨obstacle, rfl, hstop⟩
      · exact .inl ⟨_, between, after, by simp, .enters hanswer hnew hunit hbelow, hafter⟩
      · exact .inr ⟨obstacle, rfl, .enters hanswer hnew hunit hstop⟩
    | stopsBelow hanswer hnew hunit =>
      exact .inr ⟨_, rfl, .stopsBelow hanswer hnew hunit⟩
    | passes hanswer hrest =>
      rcases ih hrest with ⟨below, between, after, rfl, hbelow, hafter⟩ | ⟨obstacle, rfl, hstop⟩
      · exact .inl ⟨q :: below, between, after, rfl, .passes hanswer hbelow, hafter⟩
      · exact .inr ⟨obstacle, rfl, .passes hanswer hstop⟩
    | stops hanswer => exact .inr ⟨_, rfl, .stops hanswer⟩

/-- **A walk that is not led on without an end is a recursion**, which ends as the walk does. -/
theorem descends_of_walkFrom {budget : Nat} {entered : List SourceUnit}
    {before pending : List Query}
    (h : (r.resolver.walkFrom tolerance budget entered before pending).outcome
      ≠ .error .endless) :
    ∃ units stop,
      (r.resolver.walkFrom tolerance budget entered before pending).outcome = outcomeAt units stop
      ∧ r.Descends tolerance entered pending
          (r.resolver.walkFrom tolerance budget entered before pending).queries units stop := by
  fun_induction Resolver.walkFrom r.resolver tolerance budget entered before pending with
  | case1 budget entered => exact ⟨entered, none, rfl, .done entered⟩
  | case2 budget entered before q rest unit hanswer hold ih =>
    obtain ⟨units, stop, hout, hrest⟩ := ih h
    exact ⟨units, stop, hout, .known hanswer hold hrest⟩
  | case3 => exact absurd rfl h
  | case4 entered before q rest unit hanswer hnew budget ih =>
    obtain ⟨units, stop, hout, hrest⟩ := ih h
    -- what was asked for the new source and what was asked after it are two parts of the walk
    rcases hrest.split with ⟨below, between, after, hasked, hbelow, hafter⟩ | ⟨obstacle, rfl, hstop⟩
    · refine ⟨units, stop, hout, ?_⟩
      rw [Walk.queries_after, hasked]
      exact .enters hanswer (by simpa using hnew) hbelow hafter
    · exact ⟨units, _, hout, .stopsBelow hanswer (by simpa using hnew) hstop⟩
  | case5 budget entered before q rest hanswer htol ih
  | case7 budget entered before q rest failure hanswer htol ih =>
    obtain ⟨units, stop, hout, hrest⟩ := ih h
    rw [answer_resolver] at hanswer
    exact ⟨units, stop, hout, .passes (by rw [hanswer]; exact htol) hrest⟩
  | case6 budget entered before q rest hanswer htol
  | case8 budget entered before q rest failure hanswer htol =>
    rw [answer_resolver] at hanswer
    exact ⟨entered, _, rfl, .stops (by rw [hanswer]; exact if_neg htol)⟩
  | case9 budget entered before q rest hanswer =>
    rw [answer_resolver] at hanswer
    exact ⟨entered, _, rfl, .stops (by rw [hanswer]; rfl)⟩

/-- **A walk ends with the call that is an obstacle.** -/
theorem eq_nil_of_obstacle {budget : Nat} {entered : List SourceUnit}
    {asked pending before after : List Query} {q : Query} {obstacle : Obstacle}
    (hasked : (r.resolver.walkFrom tolerance budget entered asked pending).queries
      = before ++ q :: after)
    (h : tolerance.obstacle? q (r.answer q) = some obstacle) :
    after = []
      ∧ (r.resolver.walkFrom tolerance budget entered asked pending).outcome
        = .error obstacle := by
  fun_induction Resolver.walkFrom r.resolver tolerance budget entered asked pending
    generalizing before with
  | case1 => exact absurd hasked.symm (by simp)
  -- the walk goes on after the first call, so that is not the one
  | case2 budget entered asked p rest unit hanswer _ ih
  | case4 entered asked p rest unit hanswer _ budget ih =>
    rw [answer_resolver] at hanswer
    rcases List.cons_eq_append_iff.1 hasked with ⟨rfl, heq⟩ | ⟨before, rfl, heq⟩
    · cases heq
      rw [hanswer] at h
      cases h
    · exact ih heq
  | case5 budget entered asked p rest hanswer htol ih
  | case7 budget entered asked p rest _ hanswer htol ih =>
    rw [answer_resolver] at hanswer
    rcases List.cons_eq_append_iff.1 hasked with ⟨rfl, heq⟩ | ⟨before, rfl, heq⟩
    · cases heq
      rw [hanswer] at h
      cases (if_pos htol).symm.trans h
    · exact ih heq
  -- the first call is the only one
  | case3 entered asked p rest unit hanswer | case6 budget entered asked p rest hanswer htol
  | case8 budget entered asked p rest _ hanswer htol
  | case9 budget entered asked p rest hanswer =>
    rw [answer_resolver] at hanswer
    obtain ⟨rfl, rfl⟩ : p = q ∧ after = [] := by
      cases before <;> simp_all
    rw [hanswer] at h
    simp_all [Tolerance.obstacle?]

namespace Descends

variable {entered units : List SourceUnit} {imports asked : List Query} {stop : Option Obstacle}

/-- **What stopped a recursion** is the answer to one of its calls. -/
theorem exists_obstacle {obstacle : Obstacle}
    (h : r.Descends tolerance entered imports asked units (some obstacle)) :
    ∃ q ∈ asked, tolerance.obstacle? q (r.answer q) = some obstacle := by
  generalize hstop : some obstacle = stop at h
  induction h with
  | done => cases hstop
  | known _ _ _ ih | passes _ _ ih =>
    obtain ⟨q, hq, hobstacle⟩ := ih hstop
    exact ⟨q, List.mem_cons_of_mem _ hq, hobstacle⟩
  | enters _ _ _ _ _ ihrest =>
    obtain ⟨q, hq, hobstacle⟩ := ihrest hstop
    exact ⟨q, List.mem_cons_of_mem _ (List.mem_append_right _ hq), hobstacle⟩
  | stopsBelow _ _ _ ihbelow =>
    obtain ⟨q, hq, hobstacle⟩ := ihbelow hstop
    exact ⟨q, List.mem_cons_of_mem _ hq, hobstacle⟩
  | stops hanswer =>
    cases hstop
    exact ⟨_, List.mem_singleton_self _, hanswer⟩

/-- **Sources that were entered stay in their places.** -/
theorem prefix_units (h : r.Descends tolerance entered imports asked units stop) :
    entered <+: units := by
  induction h with
  | done | stops => exact List.prefix_rfl
  | known _ _ _ ih | passes _ _ ih => exact ih
  | enters _ _ _ _ ihbelow ihrest => exact (List.prefix_append _ _).trans (ihbelow.trans ihrest)
  | stopsBelow _ _ _ ihbelow => exact (List.prefix_append _ _).trans ihbelow

/-- **A recursion is the walk**, for every bound that leaves room for the sources it comes to. What
is still to be made after it is made with the room that is left. -/
theorem walkFrom_append (h : r.Descends tolerance entered imports asked units stop) (room : Nat)
    (before rest : List Query) :
    r.resolver.walkFrom tolerance (units.length - entered.length + room) entered before
        (imports ++ rest)
      = match stop with
        | none => (r.resolver.walkFrom tolerance room units (before ++ asked) rest).afterAll asked
        | some obstacle => ⟨asked, .error obstacle⟩ := by
  induction h generalizing room before rest with
  | done entered => simp
  | @known _ _ _ asked q _ _ hanswer hold _ ih =>
    rw [List.cons_append, Resolver.walkFrom_of_known hanswer hold, ih, List.append_assoc]
    split <;> rfl
  | @enters entered between units _ below asked q unit stop hanswer hnew hbelow hrest ihbelow
      ihrest =>
    -- the sources below the new one are entered first, and the room for the others is kept for them
    have hlength := hbelow.prefix_units.length_le
    have hlength' := hrest.prefix_units.length_le
    rw [List.length_append, List.length_singleton] at hlength
    have hroom : units.length - entered.length + room
        = between.length - (entered ++ [unit]).length + (units.length - between.length + room)
          + 1 := by
      rw [List.length_append, List.length_singleton]
      omega
    have hbefore : before ++ [q] ++ below ++ asked = before ++ q :: (below ++ asked) := by simp
    rw [hroom, List.cons_append, Resolver.walkFrom_of_new hanswer hnew, ihbelow, ihrest, hbefore]
    cases stop with
    | none => rw [Walk.afterAll_cons, Walk.afterAll_append]
    | some obstacle => rfl
  | @stopsBelow entered units _ below q unit obstacle hanswer hnew hbelow ihbelow =>
    have hlength := hbelow.prefix_units.length_le
    rw [List.length_append, List.length_singleton] at hlength
    have hroom : units.length - entered.length + room
        = units.length - (entered ++ [unit]).length + room + 1 := by
      rw [List.length_append, List.length_singleton]
      omega
    rw [hroom, List.cons_append, Resolver.walkFrom_of_new hanswer hnew, ihbelow]
    rfl
  | passes hanswer _ ih =>
    rw [List.cons_append, Resolver.walkFrom_of_passes hanswer, ih, List.append_assoc]
    split <;> rfl
  | stops hanswer => rw [List.cons_append, Resolver.walkFrom_of_obstacle hanswer]

/-- **A recursion is the walk**, for every bound that leaves room for its sources. -/
theorem walkFrom_eq (h : r.Descends tolerance entered imports asked units stop) {budget : Nat}
    (hbudget : units.length ≤ entered.length + budget) (before : List Query) :
    r.resolver.walkFrom tolerance budget entered before imports
      = ⟨asked, outcomeAt units stop⟩ := by
  obtain ⟨room, rfl⟩ : ∃ room, budget = units.length - entered.length + room :=
    ⟨budget - (units.length - entered.length), by omega⟩
  rw [← List.append_nil imports, h.walkFrom_append]
  cases stop with
  | none => simp [Resolver.walkFrom, Walk.afterAll, outcomeAt]
  | some obstacle => rfl

/-! ## What a recursion comes to -/

/-- **A location is entered once**, however the recursion ends. -/
theorem nodup_locations (h : r.Descends tolerance entered imports asked units stop)
    (hentered : (entered.map (·.location)).Nodup) : (units.map (·.location)).Nodup := by
  induction h with
  | done | stops => exact hentered
  | known _ _ _ ih | passes _ _ ih => exact ih hentered
  | enters _ hnew _ _ ihbelow ihrest =>
    exact ihrest (ihbelow (SourceUnit.nodup_append_singleton hentered hnew))
  | stopsBelow _ hnew _ ihbelow =>
    exact ihbelow (SourceUnit.nodup_append_singleton hentered hnew)

/-- **Each call is for an import of a source that was entered**, and for one only. -/
theorem length_asked_le (h : r.Descends tolerance entered imports asked units stop) :
    asked.length + (entered.map (·.queries.length)).sum
      ≤ imports.length + (units.map (·.queries.length)).sum := by
  induction h with
  | done | stops => simp
  | known _ _ _ ih | passes _ _ ih =>
    simp only [List.length_cons]
    omega
  | enters _ _ _ _ ihbelow ihrest =>
    simp only [List.map_append, List.map_singleton, List.sum_append, List.sum_singleton] at ihbelow
    simp only [List.length_cons, List.length_append]
    omega
  | stopsBelow _ _ _ ihbelow =>
    simp only [List.map_append, List.map_singleton, List.sum_append, List.sum_singleton] at ihbelow
    simp only [List.length_cons]
    omega

end Descends

/-- **The source first seen at a location**: one of those that were there before the first call, or
else the first one that a call led to. -/
def firstSeen? (r : Lookup) (before : List SourceUnit) (asked : List Query)
    (location : Location) : Option SourceUnit :=
  (before ++ asked.filterMap r.found?).find? (·.location == location)

/-- An answer that leads to no source shows none. -/
theorem found?_eq_none_of_passes {q : Query} (h : tolerance.passes (r.answer q) = true) :
    r.found? q = none := by
  unfold found?
  split
  · next unit hanswer => rw [hanswer] at h; cases h
  · rfl

theorem found?_eq_none_of_obstacle {q : Query} {obstacle : Obstacle}
    (h : tolerance.obstacle? q (r.answer q) = some obstacle) : r.found? q = none := by
  unfold found?
  split
  · next unit hanswer => rw [hanswer] at h; cases h
  · rfl

/-- A source at a location that there is one for already is never the first. -/
theorem find?_append_cons_of_anyAt {entered : List SourceUnit} {unit : SourceUnit}
    (hold : SourceUnit.anyAt entered unit.location = true) (seen : List SourceUnit)
    (location : Location) :
    (entered ++ unit :: seen).find? (·.location == location)
      = (entered ++ seen).find? (·.location == location) := by
  rw [List.find?_append, List.find?_append]
  by_cases hlocation : unit.location = location
  · obtain ⟨old, hmem, hat⟩ := SourceUnit.anyAt_iff.1 hold
    have hsome : (entered.find? (·.location == location)).isSome = true :=
      List.find?_isSome.2 ⟨old, hmem, by simpa using hat.trans hlocation⟩
    obtain ⟨first, hfirst⟩ := Option.isSome_iff_exists.1 hsome
    rw [hfirst, Option.some_or, Option.some_or]
  · rw [List.find?_cons_of_neg (by simpa using hlocation)]

/-- Among sources at different locations each is found at its own. -/
theorem find?_location_eq_some_iff {units : List SourceUnit} {unit : SourceUnit}
    (hnodup : (units.map (·.location)).Nodup) :
    units.find? (·.location == unit.location) = some unit ↔ unit ∈ units := by
  refine ⟨List.mem_of_find?_eq_some, fun hmem => ?_⟩
  have hsome : (units.find? (·.location == unit.location)).isSome = true :=
    List.find?_isSome.2 ⟨unit, hmem, beq_self_eq_true unit.location⟩
  obtain ⟨first, hfirst⟩ := Option.isSome_iff_exists.1 hsome
  have hlocation : first.location = unit.location := by simpa using List.find?_some hfirst
  rw [hfirst, List.inj_on_of_nodup_map hnodup (List.mem_of_find?_eq_some hfirst) hmem hlocation]

/-- **A location is entered for the source that was first seen there.** -/
theorem Descends.firstSeen?_eq {entered units : List SourceUnit} {imports asked : List Query}
    {stop : Option Obstacle} (h : r.Descends tolerance entered imports asked units stop)
    (location : Location) :
    r.firstSeen? entered asked location = units.find? (·.location == location) := by
  unfold firstSeen?
  induction h with
  | done entered => simp
  | known hanswer hold _ ih =>
    rw [List.filterMap_cons_some (found?_eq_some_iff.2 hanswer),
      find?_append_cons_of_anyAt hold, ih]
  | enters hanswer _ _ _ ihbelow ihrest =>
    rw [List.filterMap_cons_some (found?_eq_some_iff.2 hanswer), List.filterMap_append,
      List.append_cons, ← List.append_assoc, List.find?_append, ihbelow, ← List.find?_append,
      ihrest]
  | stopsBelow hanswer _ _ ihbelow =>
    rw [List.filterMap_cons_some (found?_eq_some_iff.2 hanswer), List.append_cons, ihbelow]
  | passes hanswer _ ih =>
    rw [List.filterMap_cons_none (found?_eq_none_of_passes hanswer), ih]
  | stops hanswer =>
    rw [List.filterMap_cons_none (found?_eq_none_of_obstacle hanswer), List.filterMap_nil,
      List.append_nil]

end Lookup

end ProofToolchain
