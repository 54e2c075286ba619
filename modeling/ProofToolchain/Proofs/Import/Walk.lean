import Mathlib.Data.Set.Defs
import ProofToolchain.Proofs.Import.Exchange

/-!
# What a walk along imports finds

A walk is driven by a list of queries still to be made, and the sources it has entered grow as it
goes. What a walk that came to its end did is a derivation (`Resolver.Leads`) with one rule for
each thing that can happen to a query: the source it leads to is there already, or is entered and
its own imports are asked for next, or the query is passed over. Everything else is shown by
induction on such a derivation.

Cycles and shared sources make no difference to any of it, and neither does a resolver that changes
its mind. A source is entered for its location once (`Leads.nodup_locations`), and it is the first
one that an answer gave for that location (`Leads.first_or_entered`). Sources that were entered stay
in their places, so their numbers can be given out while the walk is under way
(`Leads.entered_prefix_units`). When it is over, nothing that an entered source asks for is left out
(`Leads.queries_asked`), and no answer leads away from the sources entered (`Leads.answer_asked`).
-/

namespace ProofToolchain

/-- Whether a walk goes on after an answer that leads to no source. -/
def Tolerance.passes (tolerance : Tolerance) : Resolution → Bool
  | .absent => tolerance.absent
  | .raised _ => tolerance.raised
  | _ => false

/-- **The obstacle that an answer is** to a walk, if it does not lead to a source and is not passed
over. -/
def Tolerance.obstacle? (tolerance : Tolerance) (q : Query) : Resolution → Option Obstacle
  | .found _ => none
  | .absent => if tolerance.absent then none else some (.absent q)
  | .raised failure => if tolerance.raised then none else some (.raised failure)
  | .crashed => some .crashed

/-! ## One query of a walk -/

namespace Resolver

variable {r : Resolver} {tolerance : Tolerance} {budget : Nat} {entered : List SourceUnit}
  {before pending : List Query} {q : Query} {unit : SourceUnit}

theorem walkFrom_of_known (hanswer : r.answer before q = .found unit)
    (hold : SourceUnit.anyAt entered unit.location = true) :
    r.walkFrom tolerance budget entered before (q :: pending)
      = (r.walkFrom tolerance budget entered (before ++ [q]) pending).after q := by
  rw [walkFrom]
  simp [hanswer, hold]

theorem walkFrom_of_new (hanswer : r.answer before q = .found unit)
    (hnew : SourceUnit.anyAt entered unit.location = false) :
    r.walkFrom tolerance (budget + 1) entered before (q :: pending)
      = (r.walkFrom tolerance budget (entered ++ [unit]) (before ++ [q])
          (unit.queries ++ pending)).after q := by
  rw [walkFrom]
  simp [hanswer, hnew]

theorem walkFrom_of_passes (h : tolerance.passes (r.answer before q) = true) :
    r.walkFrom tolerance budget entered before (q :: pending)
      = (r.walkFrom tolerance budget entered (before ++ [q]) pending).after q := by
  rw [walkFrom]
  cases hanswer : r.answer before q with
  | found unit | crashed => rw [hanswer] at h; cases h
  | absent | raised => simp_all [Tolerance.passes]

theorem walkFrom_of_obstacle {obstacle : Obstacle}
    (h : tolerance.obstacle? q (r.answer before q) = some obstacle) :
    r.walkFrom tolerance budget entered before (q :: pending) = ⟨[q], .error obstacle⟩ := by
  rw [walkFrom]
  cases hanswer : r.answer before q with
  | found unit => rw [hanswer] at h; cases h
  | absent | raised | crashed => simp_all [Tolerance.obstacle?]

end Resolver

/-! ## What is found -/

/-- The source that an answer leads to. -/
def Exchange.found? (e : Exchange) : Option SourceUnit :=
  match e.resolution with
  | .found unit => some unit
  | _ => none

theorem Exchange.found?_eq_some_iff {e : Exchange} {unit : SourceUnit} :
    e.found? = some unit ↔ e.resolution = .found unit := by
  unfold found?
  split <;> simp_all

/-- **The source first returned for a location.** -/
def firstFound? (exchanges : List Exchange) (location : Location) : Option SourceUnit :=
  (exchanges.filterMap Exchange.found?).find? (·.location == location)

/-- **The locations that a walk comes to**: the root's, and those that the answers lead to. -/
def visited (root : SourceUnit) (exchanges : List Exchange) : Set Location :=
  { location | location = root.location
      ∨ ∃ e ∈ exchanges, ∃ unit, e.resolution = .found unit ∧ unit.location = location }

section FirstFound

variable {exchanges : List Exchange} {e : Exchange} {location : Location} {unit : SourceUnit}

/-- What is found for a location is an answer that leads there. -/
theorem exists_of_firstFound? (h : firstFound? exchanges location = some unit) :
    unit.location = location ∧ ∃ e ∈ exchanges, e.resolution = .found unit := by
  obtain ⟨e, he, hfound⟩ := List.mem_filterMap.1 (List.mem_of_find?_eq_some h)
  exact ⟨by simpa using List.find?_some h, e, he, Exchange.found?_eq_some_iff.1 hfound⟩

/-- The first answer that leads to a location decides. -/
theorem firstFound?_cons_of_found (h : e.resolution = .found unit) (exchanges : List Exchange) :
    firstFound? (e :: exchanges) unit.location = some unit := by
  simp [firstFound?, Exchange.found?, h]

/-- An answer that leads elsewhere does not count. -/
theorem firstFound?_cons_of_ne (h : ∀ unit, e.resolution = .found unit → unit.location ≠ location)
    (exchanges : List Exchange) :
    firstFound? (e :: exchanges) location = firstFound? exchanges location := by
  unfold firstFound?
  cases hfound : e.found? with
  | none => rw [List.filterMap_cons_none hfound]
  | some unit =>
    have helsewhere := h unit (Exchange.found?_eq_some_iff.1 hfound)
    rw [List.filterMap_cons_some hfound, List.find?_cons_of_neg (by simpa using helsewhere)]

end FirstFound

namespace Resolver

variable {r : Resolver} {tolerance : Tolerance}

/-! ## Walks that come to their end -/

/-- **A walk that comes to its end.** When `before` was asked, from the sources `entered` and with
the queries `pending` it asks the queries `asked` and ends with the sources `units`. -/
inductive Leads (r : Resolver) (tolerance : Tolerance) :
    (before : List Query) → (entered : List SourceUnit) → (pending asked : List Query) →
      (units : List SourceUnit) → Prop
  /-- Nothing is left to ask. -/
  | done (before : List Query) (entered : List SourceUnit) :
      Leads r tolerance before entered [] [] entered
  /-- The query leads to a source that was entered before. -/
  | known {entered units : List SourceUnit} {before rest asked : List Query} {q : Query}
      {unit : SourceUnit} (hanswer : r.answer before q = .found unit)
      (hold : SourceUnit.anyAt entered unit.location = true)
      (hrest : Leads r tolerance (before ++ [q]) entered rest asked units) :
      Leads r tolerance before entered (q :: rest) (q :: asked) units
  /-- The query leads to a new source. -/
  | enters {entered units : List SourceUnit} {before rest asked : List Query} {q : Query}
      {unit : SourceUnit} (hanswer : r.answer before q = .found unit)
      (hnew : SourceUnit.anyAt entered unit.location = false)
      (hrest : Leads r tolerance (before ++ [q]) (entered ++ [unit]) (unit.queries ++ rest) asked
        units) :
      Leads r tolerance before entered (q :: rest) (q :: asked) units
  /-- The query leads to no source, and that is passed over. -/
  | passes {entered units : List SourceUnit} {before rest asked : List Query} {q : Query}
      (hanswer : tolerance.passes (r.answer before q) = true)
      (hrest : Leads r tolerance (before ++ [q]) entered rest asked units) :
      Leads r tolerance before entered (q :: rest) (q :: asked) units

/-- What `walkFrom` did if it came to its end. -/
theorem leads_of_walkFrom {budget : Nat} {entered units : List SourceUnit}
    {before pending : List Query}
    (h : (r.walkFrom tolerance budget entered before pending).outcome = .ok units) :
    r.Leads tolerance before entered pending
      (r.walkFrom tolerance budget entered before pending).queries units := by
  fun_induction walkFrom r tolerance budget entered before pending with
  | case1 budget entered =>
    cases h
    exact .done _ _
  | case2 budget entered before q rest unit hanswer hold ih => exact .known hanswer hold (ih h)
  | case3 => cases h
  | case4 entered before q rest unit hanswer hnew budget ih =>
    exact .enters hanswer (by simpa using hnew) (ih h)
  | case5 budget entered before q rest hanswer htol ih =>
    exact .passes (by rw [hanswer]; exact htol) (ih h)
  | case6 => cases h
  | case7 budget entered before q rest failure hanswer htol ih =>
    exact .passes (by rw [hanswer]; exact htol) (ih h)
  | case8 => cases h
  | case9 => cases h

/-- **What a walk from a root did** if it came to its end. -/
theorem leads_of_walk {root : SourceUnit} {units : List SourceUnit}
    (h : (r.walk tolerance root).outcome = .ok units) :
    r.Leads tolerance [] [root] root.queries (r.walk tolerance root).queries units :=
  leads_of_walkFrom h

namespace Leads

variable {entered units : List SourceUnit} {before pending asked : List Query}

/-- **Sources that were entered stay in their places.** -/
theorem entered_prefix_units (h : r.Leads tolerance before entered pending asked units) :
    entered <+: units := by
  induction h with
  | done => exact List.prefix_rfl
  | known _ _ _ ih => exact ih
  | enters _ _ _ ih => exact (List.prefix_append _ _).trans ih
  | passes _ _ ih => exact ih

/-- **A location is entered once.** -/
theorem nodup_locations (h : r.Leads tolerance before entered pending asked units)
    (hentered : (entered.map (·.location)).Nodup) : (units.map (·.location)).Nodup := by
  induction h with
  | done => exact hentered
  | known _ _ _ ih => exact ih hentered
  | enters _ hnew _ ih => exact ih (SourceUnit.nodup_append_singleton hentered hnew)
  | passes _ _ ih => exact ih hentered

/-- **Nothing is left out**: the queries to be made are made, and so are those of every source that
is entered on the way. -/
theorem queries_asked (h : r.Leads tolerance before entered pending asked units) :
    (∀ q ∈ pending, q ∈ asked)
      ∧ ∀ unit ∈ units, unit ∈ entered ∨ ∀ q ∈ unit.queries, q ∈ asked := by
  induction h with
  | done => exact ⟨fun q hq => hq, fun unit hunit => .inl hunit⟩
  | known _ _ _ ih | passes _ _ ih =>
    obtain ⟨hpending, hunits⟩ := ih
    refine ⟨List.forall_mem_cons.2 ⟨List.mem_cons_self, fun q hq => ?_⟩, fun unit hunit => ?_⟩
    · exact List.mem_cons_of_mem _ (hpending q hq)
    · exact (hunits unit hunit).imp_right fun hall q hq => List.mem_cons_of_mem _ (hall q hq)
  | enters _ _ _ ih =>
    obtain ⟨hpending, hunits⟩ := ih
    rw [List.forall_mem_append] at hpending
    refine ⟨List.forall_mem_cons.2 ⟨List.mem_cons_self, fun q hq => ?_⟩, fun unit hunit => ?_⟩
    · exact List.mem_cons_of_mem _ (hpending.2 q hq)
    · rcases hunits unit hunit with hold | hall
      · rcases List.mem_append.1 hold with hold | hunit
        · exact .inl hold
        · -- the source entered here put its own queries in front of the others
          rw [List.mem_singleton.1 hunit]
          exact .inr fun q hq => List.mem_cons_of_mem _ (hpending.1 q hq)
      · exact .inr fun q hq => List.mem_cons_of_mem _ (hall q hq)

/-- **No answer leads away** from the sources entered, and what leads to no source was passed
over. -/
theorem answer_asked (h : r.Leads tolerance before entered pending asked units) :
    ∀ e ∈ r.exchangesAfter before asked,
      (∃ unit, e.resolution = .found unit ∧ SourceUnit.anyAt units unit.location = true)
        ∨ tolerance.passes e.resolution = true := by
  induction h with
  | done => exact fun q hq => absurd hq List.not_mem_nil
  | @known entered units _ _ _ q unit hanswer hold hrest ih =>
    refine List.forall_mem_cons.2 ⟨.inl ⟨unit, hanswer, ?_⟩, ih⟩
    obtain ⟨u, hu, hlocation⟩ := SourceUnit.anyAt_iff.1 hold
    exact SourceUnit.anyAt_iff.2 ⟨u, hrest.entered_prefix_units.subset hu, hlocation⟩
  | @enters entered units _ _ _ q unit hanswer hnew hrest ih =>
    refine List.forall_mem_cons.2 ⟨.inl ⟨unit, hanswer, ?_⟩, ih⟩
    exact SourceUnit.anyAt_iff.2 ⟨unit, hrest.entered_prefix_units.subset (by simp), rfl⟩
  | passes hanswer _ ih => exact List.forall_mem_cons.2 ⟨.inr hanswer, ih⟩

/-- **A source is entered for its location only if it is the first one returned for it**, unless
it was there before the first query. -/
theorem first_or_entered (h : r.Leads tolerance before entered pending asked units) :
    ∀ unit ∈ units, unit ∈ entered
      ∨ (SourceUnit.anyAt entered unit.location = false
          ∧ firstFound? (r.exchangesAfter before asked) unit.location = some unit) := by
  induction h with
  | done => exact fun unit hunit => .inl hunit
  | @known entered _ _ _ _ q v hanswer hold _ ih =>
    intro unit hunit
    refine (ih unit hunit).imp_right fun ⟨hnew, hfirst⟩ => ⟨hnew, ?_⟩
    rw [exchangesAfter_cons, firstFound?_cons_of_ne ?_, hfirst]
    -- the answer leads to a location that was entered, and this source stands at none of those
    intro w hw hlocation
    rw [Resolution.found.inj (hanswer.symm.trans hw), hlocation, hnew] at hold
    cases hold
  | @enters entered _ _ _ _ q v hanswer hnew _ ih =>
    intro unit hunit
    rw [exchangesAfter_cons]
    rcases ih unit hunit with hold | ⟨hfresh, hfirst⟩
    · rcases List.mem_append.1 hold with hold | hv
      · exact .inl hold
      · rw [List.mem_singleton.1 hv]
        exact .inr ⟨hnew, firstFound?_cons_of_found hanswer _⟩
    · rw [SourceUnit.anyAt_eq_false_iff, List.forall_mem_append] at hfresh
      refine .inr ⟨SourceUnit.anyAt_eq_false_iff.2 hfresh.1, ?_⟩
      rw [firstFound?_cons_of_ne ?_, hfirst]
      intro w hw
      rw [← Resolution.found.inj (hanswer.symm.trans hw)]
      exact hfresh.2 v (List.mem_singleton_self v)
  | @passes entered _ _ _ _ q hanswer _ ih =>
    intro unit hunit
    refine (ih unit hunit).imp_right fun ⟨hnew, hfirst⟩ => ⟨hnew, ?_⟩
    rw [exchangesAfter_cons, firstFound?_cons_of_ne ?_, hfirst]
    intro w hw
    rw [show r.answer _ q = .found w from hw] at hanswer
    cases hanswer

/-! ### From a root -/

variable {root : SourceUnit}

/-- The root is the first source. -/
theorem head_units (h : r.Leads tolerance before [root] pending asked units) :
    units[0]? = some root := by
  obtain ⟨rest, rfl⟩ := h.entered_prefix_units
  rfl

/-- **The root's source is the caller's** and every other one is the first that was returned for
its location, which is not the root's. -/
theorem eq_root_or_first (h : r.Leads tolerance [] [root] pending asked units)
    {unit : SourceUnit} (hunit : unit ∈ units) :
    unit = root ∨ (unit.location ≠ root.location
      ∧ firstFound? (r.exchanges asked) unit.location = some unit) := by
  refine (h.first_or_entered unit hunit).imp List.mem_singleton.1 fun ⟨hnew, hfirst⟩ => ⟨?_, hfirst⟩
  exact (SourceUnit.anyAt_eq_false_iff.1 hnew root (List.mem_singleton_self root)).symm

/-- Every source that was entered asked all its queries. -/
theorem mem_asked (h : r.Leads tolerance before [root] root.queries asked units)
    {unit : SourceUnit} (hunit : unit ∈ units) {q : Query} (hq : q ∈ unit.queries) :
    q ∈ asked := by
  rcases h.queries_asked.2 unit hunit with hroot | hall
  · rw [List.mem_singleton.1 hroot] at hq
    exact h.queries_asked.1 q hq
  · exact hall q hq

/-- **The sources entered stand at the locations visited.** -/
theorem mem_visited_iff (h : r.Leads tolerance [] [root] root.queries asked units)
    {location : Location} :
    location ∈ visited root (r.exchanges asked) ↔ SourceUnit.anyAt units location = true := by
  constructor
  · rintro (rfl | ⟨e, he, unit, hanswer, rfl⟩)
    · exact SourceUnit.anyAt_iff.2 ⟨root, List.mem_of_getElem? h.head_units, rfl⟩
    · rcases h.answer_asked e he with ⟨v, hv, hat⟩ | hpass
      · rwa [Resolution.found.inj (hanswer.symm.trans hv)]
      · rw [hanswer] at hpass
        cases hpass
  · intro hat
    obtain ⟨unit, hunit, rfl⟩ := SourceUnit.anyAt_iff.1 hat
    rcases h.eq_root_or_first hunit with rfl | ⟨-, hfirst⟩
    · exact .inl rfl
    · obtain ⟨-, e, he, hanswer⟩ := exists_of_firstFound? hfirst
      exact .inr ⟨e, he, unit, hanswer, rfl⟩

end Leads

end Resolver

end ProofToolchain
