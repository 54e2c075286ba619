import Mathlib
import ProofToolchain.Proofs.Import.DepthFirst
import ProofToolchain.Proofs.Import.Store

/-!
# Walks end

A resolver may answer every question with a source at yet another location. A lookup whose answers
name finitely many locations leads no recursion along imports on without an end: a location is
entered once, so each call for a new source leaves fewer of them (`Lookup.walkFrom_ne_endless`). How
the files import one another makes no difference, and neither does what is passed over.

A recursion is bounded by what it enters. It makes no more calls than the sources that it enters
have imports, and these are the sources first seen at their locations (`Lookup.EntersOnce`). That
holds as well of calls that break off on the way, so it holds where the host stops an engine.

The engines go as far as the resolver's reach lets them, which has to be enough. For a store it is
(`SourceStore.namesWithinReach_lookup`), and for a table of rules that name one location each
(`Lookup.namesWithinReach_ofRules`). It is enough for any other table as well, although such a
table may name a location for every import path there is (`Resolver.walk_ofRules_ne_endless`).
-/

namespace ProofToolchain

namespace Lookup

/-- **The locations that the answers name.** -/
def locations (r : Lookup) : Set Location :=
  {location | ∃ q unit, r.answer q = .found unit ∧ unit.location = location}

/-- **A resolver that keeps to its reach**: the answers name finitely many locations, and no more
than it says. -/
structure NamesWithinReach (r : Lookup) : Prop where
  /-- There are finitely many. -/
  finite : r.locations.Finite
  /-- There are no more than the reach. -/
  ncard_le : r.locations.ncard ≤ r.reach

/-- **What a recursion from a root entered** when it had asked some queries. -/
structure EntersOnce (r : Lookup) (root : SourceUnit) (asked : List Query)
    (units : List SourceUnit) : Prop where
  /-- No location is entered twice. -/
  nodup : (units.map (·.location)).Nodup
  /-- A location is entered for the source first seen there. -/
  first : ∀ unit ∈ units, r.firstSeen? [root] asked unit.location = some unit
  /-- There are no more calls than imports in the sources entered. -/
  calls : asked.length ≤ (units.map fun unit => (Import.scan unit.source).length).sum

variable {r : Lookup} {tolerance : Tolerance} {root : SourceUnit}

/-- Calls are counted file by file. -/
theorem length_eq_sum_callsAt {asked : List Query} {units : List SourceUnit}
    (hnodup : (units.map (·.location)).Nodup)
    (hasked : ∀ q ∈ asked, SourceUnit.anyAt units q.current = true) :
    asked.length = (units.map fun unit => (callsAt asked unit.location).length).sum := by
  induction units generalizing asked with
  | nil =>
    have hnil : asked = [] := List.eq_nil_iff_forall_not_mem.2 fun q hq => by cases hasked q hq
    rw [hnil]
    rfl
  | cons first units ih =>
    rw [List.map_cons, List.nodup_cons] at hnodup
    -- the calls for the first file are counted, and the others are for the other files
    have hat : ∀ q ∈ asked.filter fun q => !(q.current == first.location),
        SourceUnit.anyAt units q.current = true := by
      intro q hq
      obtain ⟨hmem, hne⟩ := List.mem_filter.1 hq
      have hat := hasked q hmem
      rw [SourceUnit.anyAt, List.any_cons, Bool.or_eq_true] at hat
      exact hat.resolve_left fun h => by simp [beq_iff_eq.1 h] at hne
    have hothers := ih hnodup.2 hat
    have hsame : ∀ unit ∈ units,
        callsAt (asked.filter fun q => !(q.current == first.location)) unit.location
          = callsAt asked unit.location := by
      intro unit hunit
      have hne : unit.location ≠ first.location := fun h =>
        hnodup.1 (List.mem_map.2 ⟨unit, hunit, h⟩)
      unfold callsAt
      rw [List.filter_filter]
      refine List.filter_congr fun q _ => ?_
      by_cases hq : q.current = unit.location
      · simp [hq, hne]
      · simp [hq]
    rw [List.map_congr_left fun unit hunit => congrArg List.length (hsame unit hunit)] at hothers
    rw [List.map_cons, List.sum_cons, ← hothers, callsAt]
    exact List.length_eq_length_filter_add _

/-- **Calls that follow the rule of a walk are bounded by what they lead to**, also where they do
not go on to its end. -/
theorem Follows.entersOnce {asked : List Query} (h : r.Follows root [] asked) :
    r.EntersOnce root asked (r.met root asked) where
  nodup := r.nodup_met root asked
  first _ hunit := mem_met_iff.1 hunit
  calls := by
    rw [length_eq_sum_callsAt (r.nodup_met root asked) h.anyAt_met]
    refine List.sum_le_sum fun unit hunit => ?_
    have hle := (h.prefix_queries hunit).length_le
    rwa [SourceUnit.queries, List.length_map] at hle

/-- **A recursion is bounded by what it enters.** -/
theorem Descends.entersOnce {asked : List Query} {units : List SourceUnit} {stop : Option Obstacle}
    (h : r.Descends tolerance [root] root.queries asked units stop) :
    r.EntersOnce root asked units where
  nodup := h.nodup_locations (List.nodup_singleton _)
  first unit hunit := by
    rw [h.firstSeen?_eq]
    exact (find?_location_eq_some_iff (h.nodup_locations (List.nodup_singleton _))).2 hunit
  calls := by
    have hlength := h.length_asked_le
    simp only [List.map_singleton, List.sum_singleton] at hlength
    have hscan : (units.map (·.queries.length)) = units.map fun unit =>
        (Import.scan unit.source).length := by
      simp [SourceUnit.queries]
    rw [← hscan]
    omega

/-- **A walk with room for every location comes to its end.** -/
theorem walkFrom_ne_endless (hfinite : r.locations.Finite) {budget : Nat}
    (hbudget : r.locations.ncard ≤ budget) :
    (r.resolver.walkFrom tolerance budget [root] [] root.queries).outcome ≠ .error .endless := by
  intro hendless
  have hwithin : StaysWithin (root.location :: hfinite.toFinset.toList)
      (r.resolver.exchangesAfter []
        (r.resolver.walkFrom tolerance budget [root] [] root.queries).queries) := by
    rw [exchangesAfter_resolver]
    intro e he unit hanswer
    obtain ⟨q, -, rfl⟩ := List.mem_map.1 he
    exact List.mem_cons_of_mem _ (by simpa using ⟨q, unit, hanswer, rfl⟩)
  have hmore := Resolver.lt_length_of_endless hendless hwithin (by simp) (by simp)
  rw [List.length_singleton, List.length_cons, Finset.length_toList,
    ← Set.ncard_eq_toFinset_card _ hfinite] at hmore
  omega

/-- **Both recursions come to their ends** from any root. -/
theorem exists_descends (hfinite : r.locations.Finite) (tolerance : Tolerance)
    (root : SourceUnit) :
    ∃ asked units stop, r.Descends tolerance [root] root.queries asked units stop := by
  have hends : (r.resolver.walkFrom tolerance r.locations.ncard [root] [] root.queries).outcome
      ≠ .error .endless := walkFrom_ne_endless hfinite le_rfl
  obtain ⟨units, stop, -, hdescends⟩ := descends_of_walkFrom hends
  exact ⟨_, units, stop, hdescends⟩

end Lookup

/-! ## Resolvers that keep to their reach -/

/-- A resolver whose locations can be listed keeps to its reach if that is the list's length. -/
theorem Lookup.namesWithinReach_of_subset {r : Lookup} (named : List Location)
    (hnamed : ∀ location ∈ r.locations, location ∈ named) (hreach : named.length ≤ r.reach) :
    r.NamesWithinReach := by
  have hsub : r.locations ⊆ ↑named.toFinset := fun location hlocation => by
    simpa using hnamed location hlocation
  refine ⟨named.toFinset.finite_toSet.subset hsub, ?_⟩
  calc r.locations.ncard
      ≤ (named.toFinset : Set Location).ncard := Set.ncard_le_ncard hsub named.toFinset.finite_toSet
    _ = named.toFinset.card := Set.ncard_coe_finset _
    _ ≤ named.length := List.toFinset_card_le named
    _ ≤ r.reach := hreach

/-- **A store names its own locations only**, in their canonical form. -/
theorem SourceStore.namesWithinReach_lookup (store : SourceStore) :
    store.lookup.NamesWithinReach := by
  refine Lookup.namesWithinReach_of_subset
    (store.units.map fun u => Location.canonical u.location) ?_ (by simp [lookup])
  rintro location ⟨q, unit, hanswer, rfl⟩
  have hfound : store.resolve q.current q.path = .found unit := hanswer
  obtain ⟨hlocation, hfind⟩ := resolve_eq_found_iff.1 hfound
  obtain ⟨before, u, after, hunits, hcanonical, -, -⟩ := find?_eq_some_iff.1 hfind
  have hu : u ∈ store.units := by simp [hunits]
  exact List.mem_map.2 ⟨u, hu, hcanonical.trans hlocation.symm⟩

/-- **A rule that names one location at most**: its source has a location of its own, or the rule is
for one import path. -/
def Rule.isDefinite (rule : Rule) : Bool :=
  match rule.answer with
  | .source _ none => rule.path?.isSome
  | _ => true

/-- The location that such a rule names. -/
def Rule.location? (rule : Rule) : Option Location :=
  match rule.answer with
  | .source _ (some location) => some location
  | .source _ none => rule.path?
  | _ => none

/-- A definite rule that leads to a source names its location. -/
theorem Rule.location?_eq_some {rule : Rule} (hdefinite : rule.isDefinite = true)
    {current : Location} {path : String} (happlies : rule.applies current path = true)
    {unit : SourceUnit} (hfound : rule.resolution path = .found unit) :
    rule.location? = some unit.location := by
  obtain ⟨current?, path?, answer⟩ := rule
  cases answer with
  | absent | failure | crash => cases hfound
  | source text location =>
    cases hfound
    cases location with
    | some location => rfl
    | none =>
      -- the rule is for the path that was asked for
      obtain ⟨own, hown⟩ := Option.isSome_iff_exists.1 hdefinite
      simp_all [applies, location?]

theorem Rule.length_filterMap_location? (rules : List Rule) :
    (rules.filterMap Rule.location?).length ≤ (Lookup.ofRules rules).reach := by
  show _ ≤ (rules.map Rule.reach).foldr (· + ·) 0
  induction rules with
  | nil => simp
  | cons rule rules ih =>
    rw [List.map_cons, List.foldr_cons, List.filterMap_cons]
    cases hlocation : rule.location? with
    | none =>
      show (rules.filterMap Rule.location?).length ≤ _
      omega
    | some location =>
      have hreach : 1 ≤ rule.reach := by
        obtain ⟨current?, path?, answer⟩ := rule
        cases answer with
        | source text own => exact Nat.le_add_right 1 _
        | absent | failure | crash => cases hlocation
      show (rules.filterMap Rule.location?).length + 1 ≤ _
      omega

/-- A source that a table leads to is that of one of its rules. -/
theorem Lookup.exists_of_answer_ofRules {rules : List Rule} {q : Query} {unit : SourceUnit}
    (h : (Lookup.ofRules rules).answer q = .found unit) :
    ∃ rule ∈ rules, rule.applies q.current q.path = true
      ∧ rule.resolution q.path = .found unit := by
  unfold answer ofRules at h
  dsimp only at h
  split at h
  · next rule hrule =>
    have happlies : rule.applies q.current q.path = true := by simpa using List.find?_some hrule
    exact ⟨rule, List.mem_of_find?_eq_some hrule, happlies, h⟩
  · cases h

/-- **A table of definite rules names one location for each of them** at most. -/
theorem Lookup.namesWithinReach_ofRules {rules : List Rule}
    (hrules : ∀ rule ∈ rules, rule.isDefinite = true) :
    (Lookup.ofRules rules).NamesWithinReach := by
  refine namesWithinReach_of_subset _ ?_ (Rule.length_filterMap_location? rules)
  rintro location ⟨q, unit, hanswer, rfl⟩
  obtain ⟨rule, hmem, happlies, hfound⟩ := exists_of_answer_ofRules hanswer
  exact List.mem_filterMap.2
    ⟨rule, hmem, rule.location?_eq_some (hrules rule hmem) happlies hfound⟩

/-! ## Tables of any rules

A rule for all import paths may name as many locations as there are paths. What a walk asks for are
imports of the root and of the sources in the table, so it comes to its end all the same. -/

/-- **What holds of the queries of a walk**: what holds of those it starts with and passes on from a
query to the imports of the source it leads to. -/
theorem Lookup.forall_queries_walkFrom {r : Lookup} {tolerance : Tolerance} {P : Query → Prop}
    (hfound : ∀ q unit, P q → r.answer q = .found unit → ∀ p ∈ unit.queries, P p) {budget : Nat}
    {entered : List SourceUnit} {before pending : List Query} (hpending : ∀ q ∈ pending, P q) :
    ∀ q ∈ (r.resolver.walkFrom tolerance budget entered before pending).queries, P q := by
  fun_induction Resolver.walkFrom r.resolver tolerance budget entered before pending with
  | case1 =>
    intro q hq
    cases hq
  | case2 budget entered before q rest unit hanswer _ ih
  | case5 budget entered before q rest hanswer _ ih
  | case7 budget entered before q rest _ hanswer _ ih =>
    have hq := List.forall_mem_cons.1 hpending
    exact List.forall_mem_cons.2 ⟨hq.1, ih hq.2⟩
  | case4 entered before q rest unit hanswer _ budget ih =>
    have hq := List.forall_mem_cons.1 hpending
    have hunit := hfound q unit hq.1 hanswer
    exact List.forall_mem_cons.2 ⟨hq.1, ih (List.forall_mem_append.2 ⟨hunit, hq.2⟩)⟩
  | case3 entered before q rest | case6 budget entered before q rest
  | case8 budget entered before q rest | case9 budget entered before q rest =>
    exact List.forall_mem_singleton.2 (List.forall_mem_cons.1 hpending).1

/-- The locations and the import paths that are written in a rule. -/
def Rule.named (rule : Rule) : List Location :=
  match rule.answer with
  | .source text location => location.toList ++ (Import.scan text).map (·.path)
  | _ => []

theorem Rule.length_flatMap_named (rules : List Rule) :
    (rules.flatMap Rule.named).length ≤ (Lookup.ofRules rules).reach := by
  show _ ≤ (rules.map Rule.reach).foldr (· + ·) 0
  induction rules with
  | nil => simp
  | cons rule rules ih =>
    have hrule : rule.named.length ≤ rule.reach := by
      obtain ⟨current?, path?, answer⟩ := rule
      cases answer with
      | absent | failure | crash => exact Nat.le_refl 0
      | source text location => cases location <;> simp [named, reach, Nat.add_comm]
    rw [List.flatMap_cons, List.length_append, List.map_cons, List.foldr_cons]
    omega

/-- What a rule leads to is at the path that was asked for or at a location that is written in it,
and so are the import paths of its source. -/
theorem Rule.named_of_resolution {rule : Rule} {path : String} {unit : SourceUnit}
    (h : rule.resolution path = .found unit) :
    (unit.location = path ∨ unit.location ∈ rule.named)
      ∧ ∀ p ∈ unit.queries, p.path ∈ rule.named := by
  obtain ⟨current?, path?, answer⟩ := rule
  cases answer with
  | absent | failure | crash => cases h
  | source text location =>
    cases h
    constructor
    · cases location with
      | none => exact .inl rfl
      | some location => exact .inr (by simp [named])
    · intro p hp
      obtain ⟨i, hi, rfl⟩ := List.mem_map.1 hp
      exact List.mem_append_right _ (List.mem_map_of_mem hi)

/-- **A walk over a table of rules comes to its end**, whatever the rules are. -/
theorem Resolver.walk_ofRules_ne_endless (rules : List Rule) (tolerance : Tolerance)
    (root : SourceUnit) :
    ((Resolver.ofRules rules).walk tolerance root).outcome ≠ .error .endless := by
  intro hendless
  have hpaths : ∀ q ∈ ((Resolver.ofRules rules).walk tolerance root).queries,
      q.path ∈ root.queries.map (·.path) ++ rules.flatMap Rule.named := by
    refine Lookup.forall_queries_walkFrom (fun q unit _ hanswer p hp => ?_) fun q hq => ?_
    · obtain ⟨rule, hmem, -, hfound⟩ := Lookup.exists_of_answer_ofRules hanswer
      have hnamed := (Rule.named_of_resolution hfound).2 p hp
      exact List.mem_append_right _ (List.mem_flatMap.2 ⟨rule, hmem, hnamed⟩)
    · exact List.mem_append_left _ (List.mem_map_of_mem hq)
  have hwithin : StaysWithin (root.queries.map (·.path) ++ rules.flatMap Rule.named)
      ((Resolver.ofRules rules).exchanges
        ((Resolver.ofRules rules).walk tolerance root).queries) := by
    intro e he unit hanswer
    rw [Resolver.ofRules, Lookup.exchanges_resolver] at he
    obtain ⟨q, hq, rfl⟩ := List.mem_map.1 he
    obtain ⟨rule, hmem, -, hfound⟩ := Lookup.exists_of_answer_ofRules hanswer
    rcases (Rule.named_of_resolution hfound).1 with hat | hnamed
    · rw [hat]
      exact hpaths q hq
    · exact List.mem_append_right _ (List.mem_flatMap.2 ⟨rule, hmem, hnamed⟩)
  have hroom := isMet_of_walk hendless _ hwithin
  have hreach := Rule.length_flatMap_named rules
  rw [List.length_append, List.length_map] at hroom
  have hsame : (Resolver.ofRules rules).reach = (Lookup.ofRules rules).reach := rfl
  omega

/-! ## Both engines -/

/-- **What the engine that drives the proof tool asks is bounded**, whether the host lets it go on
or not. -/
theorem CommandLine.Installation.exists_entersOnce (tool : CommandLine.Installation)
    (host : CommandLine.Host) (r : Lookup) (root : SourceUnit) (flags : Flags) (curve : Curve)
    (w : CommandLine.Workshop)
    (hends : ((tool.engine host).compile root r.resolver flags curve w).1.outcome
      ≠ .error .endless) :
    ∃ units,
      r.EntersOnce root ((tool.engine host).compile root r.resolver flags curve w).1.trace units
      ∧ (¬ StoppedByHost ((tool.engine host).compile root r.resolver flags curve w).1.outcome →
        ∃ stop, r.Visits SourceTree.tolerance [] root
          ((tool.engine host).compile root r.resolver flags curve w).1.trace units stop) := by
  by_cases hhost : StoppedByHost
      ((tool.engine host).compile root r.resolver flags curve w).1.outcome
  · obtain ⟨more, hmore⟩ : ((tool.engine host).compile root r.resolver flags curve w).1.trace
        <+: (r.resolver.walk SourceTree.tolerance root).queries := tool.trace_compile_prefix host
    have hfollows : r.Follows root [] (r.resolver.walk SourceTree.tolerance root).queries :=
      (r.reaches_root root).follows.1
    rw [← hmore] at hfollows
    exact ⟨_, hfollows.of_append.entersOnce, fun hfree => absurd hhost hfree⟩
  · obtain ⟨units, stop, hvisits⟩ := tool.exists_visits root flags curve host r w hhost hends
    exact ⟨units, (Lookup.visits_iff_descends.1 hvisits).entersOnce, fun _ => ⟨stop, hvisits⟩⟩

/-- **Walks end.** If the answers of a resolver name finitely many locations, then a recursion along
the imports of a root comes to its end, whichever way it is written and whatever it passes over.
However it ended, it entered no location twice, and it made no more calls than the sources that it
entered, each the first one seen at its location, have imports; and it is the walk, given room for
these sources. An engine comes to the end of such a recursion if the resolver's reach is enough, or
to where the host stops it, and its calls are bounded in the same way. The reach of a store is
enough, and so is that of a table. -/
theorem import_walks_end (r : Lookup) (hfinite : r.locations.Finite) (root : SourceUnit) :
    (∀ tolerance,
      (∃ asked units stop, r.Descends tolerance [root] root.queries asked units stop)
      ∧ (∃ asked units stop, r.Visits tolerance [] root asked units stop)
      ∧ ∀ asked units stop,
        r.Descends tolerance [root] root.queries asked units stop
          ∨ r.Visits tolerance [] root asked units stop →
        r.EntersOnce root asked units
          ∧ ∀ budget, units.length ≤ budget + 1 →
            r.resolver.walkFrom tolerance budget [root] [] root.queries
              = ⟨asked, Lookup.outcomeAt units stop⟩)
    ∧ (r.locations.ncard ≤ r.reach + root.queries.length → ∀ flags curve,
      (∀ (script : Scripted.Script) (s : Scripted.State),
        (script.engine.compile root r.resolver flags curve s).1.outcome ≠ .error .endless
        ∧ ∃ units stop, r.Descends script.tolerance [root] root.queries
          (script.engine.compile root r.resolver flags curve s).1.trace units stop)
      ∧ ∀ (tool : CommandLine.Installation) (host : CommandLine.Host) (w : CommandLine.Workshop),
        ((tool.engine host).compile root r.resolver flags curve w).1.outcome ≠ .error .endless
        ∧ ∃ units,
          r.EntersOnce root ((tool.engine host).compile root r.resolver flags curve w).1.trace units
          ∧ (¬ CommandLine.StoppedByHost
              ((tool.engine host).compile root r.resolver flags curve w).1.outcome →
            ∃ stop, r.Visits CommandLine.SourceTree.tolerance [] root
              ((tool.engine host).compile root r.resolver flags curve w).1.trace units stop))
    ∧ (∀ store : SourceStore, store.lookup.NamesWithinReach)
    ∧ (∀ rules : List Rule, (∀ rule ∈ rules, rule.isDefinite = true) →
      (Lookup.ofRules rules).NamesWithinReach)
    ∧ ∀ rules tolerance,
      ((Resolver.ofRules rules).walk tolerance root).outcome ≠ .error .endless := by
  refine ⟨fun tolerance => ⟨Lookup.exists_descends hfinite tolerance root, ?_, ?_⟩,
    fun hreach flags curve => ⟨fun script s => ?_, fun tool host w => ?_⟩,
    SourceStore.namesWithinReach_lookup, fun _ => Lookup.namesWithinReach_ofRules,
    fun rules tolerance => Resolver.walk_ofRules_ne_endless rules tolerance root⟩
  · obtain ⟨asked, units, stop, hdescends⟩ := Lookup.exists_descends hfinite tolerance root
    exact ⟨asked, units, stop, Lookup.visits_iff_descends.2 hdescends⟩
  · intro asked units stop hrecursion
    have hdescends : r.Descends tolerance [root] root.queries asked units stop :=
      hrecursion.elim id Lookup.visits_iff_descends.1
    refine ⟨hdescends.entersOnce, fun budget hbudget => hdescends.walkFrom_eq ?_ []⟩
    rw [List.length_singleton]
    omega
  · have hends : (script.engine.compile root r.resolver flags curve s).1.outcome
        ≠ .error .endless := by
      rw [ne_eq, script.compile_eq_endless_iff]
      exact Lookup.walkFrom_ne_endless hfinite hreach
    exact ⟨hends, script.exists_descends root flags curve r s hends⟩
  · have hends : ((tool.engine host).compile root r.resolver flags curve w).1.outcome
        ≠ .error .endless := by
      intro hendless
      exact Lookup.walkFrom_ne_endless hfinite hreach
        (tool.walk_eq_endless_of_compile host hendless)
    exact ⟨hends, tool.exists_entersOnce host r root flags curve w hends⟩

/-- Two files that import each other, and one that both import. The walk comes to its end, and makes
a call for each import of the three. -/
theorem import_walks_end_partlyKnown :
    partlyKnown.locations.Finite
      ∧ ((Scripted.Script.engine {}).compile partlyKnownRoot partlyKnown.resolver .empty .bn128
          {}).1.outcome ≠ .error .endless
      ∧ ∃ units stop, partlyKnown.Visits ⟨true, false⟩ [] partlyKnownRoot
          [⟨"main", "a"⟩, ⟨"a", "main"⟩, ⟨"a", "b"⟩, ⟨"main", "std"⟩, ⟨"main", "b"⟩] units stop
        ∧ partlyKnown.EntersOnce partlyKnownRoot
          [⟨"main", "a"⟩, ⟨"a", "main"⟩, ⟨"a", "b"⟩, ⟨"main", "std"⟩, ⟨"main", "b"⟩] units := by
  have hreach : partlyKnown.NamesWithinReach := by
    refine Lookup.namesWithinReach_of_subset ["a", "b", "main"] ?_ (Nat.le_refl 3)
    rintro location ⟨q, unit, hanswer, rfl⟩
    unfold Lookup.answer partlyKnown at hanswer
    dsimp only at hanswer
    split at hanswer
    · cases hanswer
      simp
    · split at hanswer
      · cases hanswer
        simp
      · split at hanswer
        · cases hanswer
          simp [partlyKnownRoot]
        · cases hanswer
  obtain ⟨-, hengines, -⟩ := import_walks_end partlyKnown hreach.finite partlyKnownRoot
  obtain ⟨hscripted, hdriven⟩ :=
    hengines (hreach.ncard_le.trans (Nat.le_add_right ..)) .empty .bn128
  obtain ⟨-, units, henters, hvisits⟩ := hdriven {} CommandLine.bareHost {}
  rw [compile_partlyKnown] at henters hvisits
  obtain ⟨stop, hstop⟩ := hvisits (CommandLine.Installation.not_stoppedByHost_missing {})
  exact ⟨hreach.finite, (hscripted {} {}).1, units, stop, hstop, henters⟩

end ProofToolchain
