import ProofToolchain.Proofs.Import.Agreement

/-!
# The order in which imports are asked for

A walk goes depth first and in text order. That is a rule about its next call: of the sources met so
far, the one that was met last and has an import left is asked for its next one
(`Lookup.IsNext`). The rule leaves no choice, so it says what the whole order is, and what is
usually said of such an order follows from it (`Lookup.isDepthFirst_of_follows`): each call is for
an import of the source first seen at its location, which is the root's or that of an earlier
answer; the imports of one source are asked for in text order, each once and never again; and
between two imports of one source everything that is met there is walked to its end.

The rule holds because of what the list of pending queries is. It is made of what the sources that
were entered have left, those entered last first (`Lookup.Reaches`), and a call takes one query off
it and may put those of one source in front.
-/

namespace ProofToolchain

/-! ## Calls at a location -/

/-- **The calls for the imports of one file**, in order. -/
def callsAt (asked : List Query) (location : Location) : List Query :=
  asked.filter (·.current == location)

theorem callsAt_append (asked more : List Query) (location : Location) :
    callsAt (asked ++ more) location = callsAt asked location ++ callsAt more location :=
  List.filter_append ..

theorem callsAt_cons_of_eq {q : Query} {location : Location} (h : q.current = location)
    (asked : List Query) : callsAt (q :: asked) location = q :: callsAt asked location :=
  List.filter_cons_of_pos (by simpa using h)

theorem callsAt_cons_of_ne {q : Query} {location : Location} (h : q.current ≠ location)
    (asked : List Query) : callsAt (q :: asked) location = callsAt asked location :=
  List.filter_cons_of_neg (by simpa using h)

theorem callsAt_append_singleton_of_eq {q : Query} {location : Location}
    (h : q.current = location) (asked : List Query) :
    callsAt (asked ++ [q]) location = callsAt asked location ++ [q] := by
  rw [callsAt_append, callsAt_cons_of_eq h]
  rfl

theorem callsAt_append_singleton_of_ne {q : Query} {location : Location}
    (h : q.current ≠ location) (asked : List Query) :
    callsAt (asked ++ [q]) location = callsAt asked location := by
  rw [callsAt_append, callsAt_cons_of_ne h]
  exact List.append_nil _

/-- Nothing is asked for at a location that none of the calls is made at. -/
theorem callsAt_eq_nil {asked : List Query} {units : List SourceUnit} {location : Location}
    (h : ∀ p ∈ asked, SourceUnit.anyAt units p.current = true)
    (hnew : SourceUnit.anyAt units location = false) : callsAt asked location = [] := by
  refine List.filter_eq_nil_iff.2 fun p hp hat => ?_
  have hold := h p hp
  rw [beq_iff_eq.1 hat, hnew] at hold
  cases hold

/-- A location with calls has a last one. -/
theorem exists_last_of_callsAt {asked : List Query} {location : Location}
    (h : callsAt asked location ≠ []) :
    ∃ before q after, asked = before ++ q :: after ∧ q.current = location
      ∧ callsAt asked location = callsAt before location ++ [q] := by
  induction asked using List.reverseRecOn with
  | nil => exact absurd rfl h
  | append_singleton asked q ih =>
    by_cases hq : q.current = location
    · exact ⟨asked, q, [], rfl, hq, callsAt_append_singleton_of_eq hq asked⟩
    · rw [callsAt_append_singleton_of_ne hq] at h ⊢
      obtain ⟨before, p, after, rfl, hp, hlast⟩ := ih h
      exact ⟨before, p, after ++ [q], by simp, hp, hlast⟩

/-- Every query of a source is about its location. -/
theorem SourceUnit.current_of_mem_queries {unit : SourceUnit} {q : Query} (h : q ∈ unit.queries) :
    q.current = unit.location := by
  obtain ⟨i, -, rfl⟩ := List.mem_map.1 h
  rfl

/-- **What a source has left** to be asked for. -/
def SourceUnit.left (unit : SourceUnit) (before : List Query) : List Query :=
  unit.queries.drop (callsAt before unit.location).length

namespace SourceUnit

variable {unit : SourceUnit} {before : List Query} {q : Query}

theorem callsAt_append_left (h : callsAt before unit.location <+: unit.queries) :
    callsAt before unit.location ++ unit.left before = unit.queries :=
  (List.prefix_iff_eq_append.1 h)

/-- A call for another file leaves a source what it has. -/
theorem left_append_of_ne (h : q.current ≠ unit.location) :
    unit.left (before ++ [q]) = unit.left before := by
  rw [left, callsAt_append_singleton_of_ne h, left]

/-- A call for the file itself takes one query. -/
theorem left_append_of_eq (h : q.current = unit.location) :
    unit.left (before ++ [q]) = (unit.left before).tail := by
  rw [left, callsAt_append_singleton_of_eq h, left, List.tail_drop, List.length_append,
    List.length_singleton]

/-- What a source has left are some of its queries. -/
theorem mem_queries_of_left {rest : List Query} (h : unit.left before = q :: rest) :
    q ∈ unit.queries :=
  List.mem_of_mem_drop (show q ∈ unit.left before by rw [h]; exact List.mem_cons_self)

end SourceUnit

/-- **The first query of what several sources have left** belongs to the first of them that has
something left, and without it the others have what they had. -/
theorem exists_of_flatMap_left {before : List Query} {q : Query} {rest : List Query}
    {units : List SourceUnit} (hnodup : (units.map (·.location)).Nodup)
    (h : units.flatMap (·.left before) = q :: rest) :
    ∃ done unit others, units = done ++ unit :: others ∧ (∀ v ∈ done, v.left before = [])
      ∧ (∃ more, unit.left before = q :: more) ∧ units.flatMap (·.left (before ++ [q])) = rest := by
  induction units with
  | nil => cases h
  | cons v units ih =>
    rw [List.map_cons, List.nodup_cons] at hnodup
    rw [List.flatMap_cons] at h
    -- no other source stands at the location of the one that the query belongs to
    have hothers : ∀ u ∈ units, u.location ≠ v.location := fun u hu heq =>
      hnodup.1 (List.mem_map.2 ⟨u, hu, heq⟩)
    cases hv : v.left before with
    | nil =>
      rw [hv, List.nil_append] at h
      obtain ⟨done, unit, others, rfl, hdone, ⟨more, hmore⟩, hrest⟩ := ih hnodup.2 h
      have hq := SourceUnit.current_of_mem_queries (SourceUnit.mem_queries_of_left hmore)
      have hne : q.current ≠ v.location := hq ▸ hothers unit (by simp)
      refine ⟨v :: done, unit, others, rfl, ?_, ⟨more, hmore⟩, ?_⟩
      · exact List.forall_mem_cons.2 ⟨hv, hdone⟩
      · rw [List.flatMap_cons, SourceUnit.left_append_of_ne hne, hv, hrest, List.nil_append]
    | cons p more =>
      rw [hv, List.cons_append, List.cons.injEq] at h
      obtain ⟨rfl, rfl⟩ := h
      have hp := SourceUnit.current_of_mem_queries (SourceUnit.mem_queries_of_left hv)
      refine ⟨[], v, units, rfl, by simp, ⟨more, hv⟩, ?_⟩
      rw [List.flatMap_cons, SourceUnit.left_append_of_eq hp, hv, List.tail_cons]
      refine congrArg (more ++ ·) (List.flatMap_congr fun u hu => ?_)
      exact SourceUnit.left_append_of_ne (hp ▸ (hothers u hu).symm)

namespace Lookup

/-! ## The sources met -/

/-- The sources met, with one more answer that leads to a source. -/
def meet (met : List SourceUnit) (unit : SourceUnit) : List SourceUnit :=
  if SourceUnit.anyAt met unit.location then met else met ++ [unit]

/-- **The sources met** on the way from a root, each where its location was first seen. -/
def met (r : Lookup) (root : SourceUnit) (asked : List Query) : List SourceUnit :=
  (asked.filterMap r.found?).foldl meet [root]

/-- **The next call.** It is for the next import of the source that was met last among those that
have one left. -/
def IsNext (r : Lookup) (root : SourceUnit) (before : List Query) (q : Query) : Prop :=
  ∃ earlier unit later, r.met root before = earlier ++ unit :: later
    ∧ (∀ v ∈ later, callsAt before v.location = v.queries)
    ∧ callsAt before unit.location ++ [q] <+: unit.queries

section Met

variable {r : Lookup} {root : SourceUnit} {asked : List Query} {q : Query}

theorem met_append_singleton : r.met root (asked ++ [q])
    = match r.found? q with
      | none => r.met root asked
      | some unit => meet (r.met root asked) unit := by
  cases hq : r.found? q <;> simp [met, hq]

theorem prefix_meet (met : List SourceUnit) (unit : SourceUnit) : met <+: meet met unit := by
  unfold meet
  split
  · exact List.prefix_rfl
  · exact List.prefix_append _ _

/-- Sources that were met stay in their places. -/
theorem prefix_met_append (r : Lookup) (root : SourceUnit) (asked more : List Query) :
    r.met root asked <+: r.met root (asked ++ more) := by
  induction more using List.reverseRecOn with
  | nil => rw [List.append_nil]
  | append_singleton more q ih =>
    rw [← List.append_assoc, met_append_singleton]
    split
    · exact ih
    · exact ih.trans (prefix_meet _ _)

/-- No location is met twice. -/
theorem nodup_met (r : Lookup) (root : SourceUnit) (asked : List Query) :
    ((r.met root asked).map (·.location)).Nodup := by
  induction asked using List.reverseRecOn with
  | nil => exact List.nodup_singleton _
  | append_singleton asked q ih =>
    rw [met_append_singleton]
    split
    · exact ih
    · next unit _ =>
      unfold meet
      split
      · exact ih
      · next hnew => exact SourceUnit.nodup_append_singleton ih (by simpa using hnew)

/-- **The source met at a location is the one first seen there.** -/
theorem find?_met (r : Lookup) (root : SourceUnit) (asked : List Query) (location : Location) :
    (r.met root asked).find? (·.location == location) = r.firstSeen? [root] asked location := by
  have hmeet : ∀ met units : List SourceUnit, (units.foldl meet met).find? (·.location == location)
      = (met ++ units).find? (·.location == location) := by
    intro met units
    induction units generalizing met with
    | nil => rw [List.foldl_nil, List.append_nil]
    | cons unit units ih =>
      rw [List.foldl_cons, ih, meet]
      split
      · next hold => exact (find?_append_cons_of_anyAt hold _ _).symm
      · rw [← List.append_cons]
  exact hmeet [root] _

/-- A source is met at a location if and only if it is the one first seen there. -/
theorem mem_met_iff {unit : SourceUnit} :
    unit ∈ r.met root asked ↔ r.firstSeen? [root] asked unit.location = some unit := by
  rw [← find?_met]
  exact (find?_location_eq_some_iff (r.nodup_met root asked)).symm

end Met

/-! ## The rule of the next call -/

/-- **A walk under way** after some calls: it has entered the sources met, and its list of pending
queries is what those have left, the last one first. -/
structure Reaches (r : Lookup) (root : SourceUnit) (before : List Query)
    (entered : List SourceUnit) (pending : List Query) : Prop where
  /-- The sources met are the sources entered. -/
  met : r.met root before = entered
  /-- Calls were for imports of these sources. -/
  current : ∀ q ∈ before, SourceUnit.anyAt entered q.current = true
  /-- The calls for each were for its first imports. -/
  called : ∀ unit ∈ entered, callsAt before unit.location <+: unit.queries
  /-- The pending queries are what is left. -/
  pending : entered.reverse.flatMap (·.left before) = pending

/-- At the root nothing was asked for. -/
theorem reaches_root (r : Lookup) (root : SourceUnit) :
    r.Reaches root [] [root] root.queries where
  met := rfl
  current := by simp
  called := by simp [callsAt]
  pending := by simp [SourceUnit.left, callsAt]

namespace Reaches

variable {r : Lookup} {root : SourceUnit} {before rest : List Query}
  {entered : List SourceUnit} {q : Query}

/-- The next query is for an import of a source that was entered, behind which nothing is left. -/
theorem exists_of_cons (h : r.Reaches root before entered (q :: rest)) :
    ∃ earlier unit later, entered = earlier ++ unit :: later
      ∧ (∀ v ∈ later, v.left before = []) ∧ (∃ more, unit.left before = q :: more)
      ∧ entered.reverse.flatMap (·.left (before ++ [q])) = rest := by
  have hnodup : (entered.reverse.map (·.location)).Nodup := by
    rw [List.map_reverse, List.nodup_reverse, ← h.met]
    exact r.nodup_met root before
  obtain ⟨done, unit, others, hunits, hdone, hmore, hrest⟩ :=
    exists_of_flatMap_left hnodup h.pending
  refine ⟨others.reverse, unit, done.reverse, ?_, ?_, hmore, hrest⟩
  · rw [← List.reverse_reverse entered, hunits]
    simp
  · exact fun v hv => hdone v (List.mem_reverse.1 hv)

/-- **A walk makes the next call.** -/
theorem isNext (h : r.Reaches root before entered (q :: rest)) : r.IsNext root before q := by
  obtain ⟨earlier, unit, later, rfl, hlater, ⟨more, hmore⟩, -⟩ := h.exists_of_cons
  refine ⟨earlier, unit, later, h.met, fun v hv => ?_, more, ?_⟩
  · have hqueries := SourceUnit.callsAt_append_left (h.called v (by simp [hv]))
    rwa [hlater v hv, List.append_nil] at hqueries
  · rw [List.append_assoc, List.singleton_append, ← hmore]
    exact SourceUnit.callsAt_append_left (h.called unit (by simp))

/-- The call is for an import of a source that was entered. -/
theorem current_of_cons (h : r.Reaches root before entered (q :: rest)) :
    ∀ p ∈ before ++ [q], SourceUnit.anyAt entered p.current = true := by
  obtain ⟨earlier, unit, later, rfl, -, ⟨more, hmore⟩, -⟩ := h.exists_of_cons
  have hq := SourceUnit.current_of_mem_queries (SourceUnit.mem_queries_of_left hmore)
  refine List.forall_mem_append.2 ⟨h.current, ?_⟩
  simpa using SourceUnit.anyAt_iff.2 ⟨unit, by simp, hq.symm⟩

/-- With the call, too, what each source was asked for are its first imports. -/
theorem called_of_cons (h : r.Reaches root before entered (q :: rest)) :
    ∀ v ∈ entered, callsAt (before ++ [q]) v.location <+: v.queries := by
  intro v hv
  obtain ⟨earlier, unit, later, hunits, -, ⟨more, hmore⟩, -⟩ := h.exists_of_cons
  have hq := SourceUnit.current_of_mem_queries (SourceUnit.mem_queries_of_left hmore)
  by_cases hlocation : q.current = v.location
  · -- the source is the one that the query belongs to
    have hnodup : (entered.map (·.location)).Nodup := h.met ▸ r.nodup_met root before
    obtain rfl : v = unit :=
      List.inj_on_of_nodup_map hnodup hv (by simp [hunits]) (hlocation.symm.trans hq)
    refine ⟨more, ?_⟩
    rw [callsAt_append_singleton_of_eq hlocation, List.append_assoc, List.singleton_append, ← hmore]
    exact SourceUnit.callsAt_append_left (h.called v hv)
  · rw [callsAt_append_singleton_of_ne hlocation]
    exact h.called v hv

/-- After the call one query less is pending. -/
theorem call (h : r.Reaches root before entered (q :: rest))
    (hmet : r.met root (before ++ [q]) = entered) :
    r.Reaches root (before ++ [q]) entered rest where
  met := hmet
  current := h.current_of_cons
  called := h.called_of_cons
  pending := by
    obtain ⟨_, _, _, -, -, -, hrest⟩ := h.exists_of_cons
    exact hrest

/-- After a call that leads to a new source its queries are pending before the others. -/
theorem enter {unit : SourceUnit} (h : r.Reaches root before entered (q :: rest))
    (hanswer : r.answer q = .found unit) (hnew : SourceUnit.anyAt entered unit.location = false) :
    r.Reaches root (before ++ [q]) (entered ++ [unit]) (unit.queries ++ rest) := by
  have hfresh : callsAt (before ++ [q]) unit.location = [] :=
    callsAt_eq_nil h.current_of_cons hnew
  refine ⟨?_, fun p hp => ?_, List.forall_mem_append.2 ⟨h.called_of_cons, ?_⟩, ?_⟩
  · rw [met_append_singleton, found?_eq_some_iff.2 hanswer, h.met]
    exact if_neg (by simp [hnew])
  · rw [SourceUnit.anyAt, List.any_append, ← SourceUnit.anyAt, h.current_of_cons p hp,
      Bool.true_or]
  · simp [hfresh]
  · obtain ⟨_, _, _, -, -, -, hrest⟩ := h.exists_of_cons
    rw [List.reverse_append, List.reverse_singleton, List.singleton_append, List.flatMap_cons,
      hrest, SourceUnit.left, hfresh, List.length_nil, List.drop_zero]

end Reaches

/-- **Calls that follow the rule**, after some others: each is the next one. -/
def Follows (r : Lookup) (root : SourceUnit) (before asked : List Query) : Prop :=
  ∀ earlier q later, asked = earlier ++ q :: later → r.IsNext root (before ++ earlier) q

section Follows

variable {r : Lookup} {root : SourceUnit} {before asked : List Query} {q : Query}

theorem follows_nil : r.Follows root before [] := by
  intro earlier q later h
  cases earlier <;> cases h

theorem Follows.cons (hnext : r.IsNext root before q) (h : r.Follows root (before ++ [q]) asked) :
    r.Follows root before (q :: asked) := by
  intro earlier p later hsplit
  cases earlier with
  | nil =>
    cases hsplit
    rwa [List.append_nil]
  | cons first earlier =>
    cases hsplit
    rw [List.append_cons]
    exact h earlier p later rfl

/-- A call before a walk that follows the rule. -/
theorem Follows.after {w : Walk} (hnext : r.IsNext root before q)
    (h : r.Follows root (before ++ [q]) w.queries ∧ ∀ units, w.outcome = .ok units →
      r.Reaches root (before ++ [q] ++ w.queries) units []) :
    r.Follows root before (w.after q).queries ∧ ∀ units, (w.after q).outcome = .ok units →
      r.Reaches root (before ++ (w.after q).queries) units [] := by
  refine ⟨h.1.cons hnext, fun units hout => ?_⟩
  rw [Walk.queries_after, List.append_cons]
  exact h.2 units hout

/-- **A walk follows the rule**, and one that comes to its end has nothing left to ask for. -/
theorem Reaches.follows {tolerance : Tolerance} {budget : Nat} {entered : List SourceUnit}
    {pending : List Query} (h : r.Reaches root before entered pending) :
    r.Follows root before (r.resolver.walkFrom tolerance budget entered before pending).queries
      ∧ ∀ units, (r.resolver.walkFrom tolerance budget entered before pending).outcome = .ok units →
        r.Reaches root
          (before ++ (r.resolver.walkFrom tolerance budget entered before pending).queries)
          units [] := by
  fun_induction Resolver.walkFrom r.resolver tolerance budget entered before pending with
  | case1 budget entered =>
    refine ⟨follows_nil, fun units hout => ?_⟩
    cases hout
    rwa [List.append_nil]
  | case2 budget entered before q rest unit hanswer hold ih =>
    rw [answer_resolver] at hanswer
    have hmet : r.met root (before ++ [q]) = entered := by
      rw [met_append_singleton, found?_eq_some_iff.2 hanswer, h.met]
      exact if_pos hold
    exact Follows.after h.isNext (ih (h.call hmet))
  | case4 entered before q rest unit hanswer hnew budget ih =>
    exact Follows.after h.isNext (ih (h.enter hanswer (by simpa using hnew)))
  | case5 budget entered before q rest hanswer _ ih
  | case7 budget entered before q rest _ hanswer _ ih =>
    rw [answer_resolver] at hanswer
    have hmet : r.met root (before ++ [q]) = entered := by
      rw [met_append_singleton, show r.found? q = none by rw [found?, hanswer], h.met]
    exact Follows.after h.isNext (ih (h.call hmet))
  -- the call is the last one
  | case3 | case6 | case8 | case9 =>
    refine ⟨follows_nil.cons h.isNext, fun units hout => ?_⟩
    cases hout

end Follows

/-! ## What the rule says -/

/-- **A depth-first walk in text order.** Calls follow the rule of the next call, and this is what
it says about where they are made, about those for one file and about those in between. -/
structure IsDepthFirst (r : Lookup) (root : SourceUnit) (asked : List Query) : Prop where
  /-- Each call is the next one. -/
  next : ∀ before q after, asked = before ++ q :: after → r.IsNext root before q
  /-- Each is made at the root's location or at that of an earlier answer, for an import of the
  source first seen there. -/
  origin : ∀ before q after, asked = before ++ q :: after →
    (q.current = root.location
        ∨ ∃ p ∈ before, ∃ unit, r.answer p = .found unit ∧ unit.location = q.current)
      ∧ ∃ unit, r.firstSeen? [root] before q.current = some unit
        ∧ ∃ i ∈ Import.scan unit.source, i.path = q.path
  /-- The calls for a file are for its first imports, once each. -/
  textOrder : ∀ location unit, r.firstSeen? [root] asked location = some unit →
    callsAt asked location <+: unit.queries
  /-- Between two calls for a file everything met there is walked to its end. -/
  subtree : ∀ before q between q' after, asked = before ++ q :: (between ++ q' :: after) →
    q'.current = q.current → ∀ location unit, r.firstSeen? [root] before location = none →
      r.firstSeen? [root] (before ++ q :: between) location = some unit →
      callsAt between location = unit.queries

section IsDepthFirst

variable {r : Lookup} {root : SourceUnit} {asked before : List Query} {q : Query}

/-- The source that the next call is for was met. -/
theorem IsNext.exists_met (h : r.IsNext root before q) :
    ∃ unit ∈ r.met root before, unit.location = q.current
      ∧ callsAt before unit.location ++ [q] <+: unit.queries := by
  obtain ⟨earlier, unit, later, hmet, -, hinitial⟩ := h
  have hq : q ∈ unit.queries := hinitial.subset (by simp)
  exact ⟨unit, by simp [hmet], (SourceUnit.current_of_mem_queries hq).symm, hinitial⟩

/-- Two sources that were met at one location are one. -/
theorem eq_of_mem_met {unit unit' : SourceUnit} (h : unit ∈ r.met root asked)
    (h' : unit' ∈ r.met root asked) (hlocation : unit.location = unit'.location) : unit = unit' :=
  List.inj_on_of_nodup_map (r.nodup_met root asked) h h' hlocation

/-- **What is met after a source stands behind it.** -/
theorem mem_later_of_met {more : List Query} {earlier later : List SourceUnit}
    {v unit : SourceUnit} (hmet : r.met root (before ++ more) = earlier ++ v :: later)
    (hv : v ∈ r.met root before) (hunit : unit ∈ r.met root (before ++ more))
    (hnew : unit ∉ r.met root before) : unit ∈ later := by
  have hinitial := r.prefix_met_append root before more
  have hnodup := List.Nodup.of_map _ (r.nodup_met root (before ++ more))
  rw [hmet] at hinitial hnodup hunit
  rcases List.mem_append.1 hunit with hearlier | hlater
  · rcases List.prefix_or_prefix_of_prefix hinitial (List.prefix_append earlier _) with hle | hle
    · exact absurd (hle.subset hv) fun hmem =>
        (List.nodup_append.1 hnodup).2.2 v hmem v List.mem_cons_self rfl
    · exact absurd (hle.subset hearlier) hnew
  · refine (List.mem_cons.1 hlater).resolve_left fun heq => ?_
    exact hnew (heq ▸ hv)

/-- Calls that follow the rule are made where a source was met. -/
theorem Follows.anyAt_met (h : r.Follows root [] asked) :
    ∀ p ∈ asked, SourceUnit.anyAt (r.met root asked) p.current = true := by
  intro p hp
  obtain ⟨earlier, later, rfl⟩ := List.append_of_mem hp
  obtain ⟨unit, hunit, hat, -⟩ := (h earlier p later rfl).exists_met
  exact SourceUnit.anyAt_iff.2 ⟨unit, (r.prefix_met_append root _ _).subset hunit, hat⟩

/-- Some calls that follow the rule, without those after them. -/
theorem Follows.of_append {more : List Query} (h : r.Follows root [] (asked ++ more)) :
    r.Follows root [] asked := by
  rintro earlier q later rfl
  exact h earlier q (later ++ more) (by simp)

/-- **Calls for one file are for its first imports.** -/
theorem Follows.prefix_queries (h : r.Follows root [] asked) {unit : SourceUnit}
    (hunit : unit ∈ r.met root asked) : callsAt asked unit.location <+: unit.queries := by
  by_cases hcalls : callsAt asked unit.location = []
  · rw [hcalls]
    exact List.nil_prefix
  · obtain ⟨earlier, q, later, rfl, hat, hlast⟩ := exists_last_of_callsAt hcalls
    obtain ⟨v, hv, hvat, hinitial⟩ := (h earlier q later rfl).exists_met
    obtain rfl : v = unit :=
      eq_of_mem_met ((r.prefix_met_append root _ _).subset hv) hunit (hvat.trans hat)
    rwa [hlast]

/-- **What is met between two calls for one file is walked to its end** there. -/
theorem Follows.callsAt_between {between after : List Query} {q' : Query}
    (h : r.Follows root [] (before ++ q :: (between ++ q' :: after)))
    (hcurrent : q'.current = q.current) {unit : SourceUnit}
    (hfresh : SourceUnit.anyAt (r.met root before) unit.location = false)
    (hunit : unit ∈ r.met root (before ++ q :: between)) :
    callsAt between unit.location = unit.queries := by
  have hsplit : before ++ q :: (between ++ q' :: after)
      = before ++ q :: between ++ q' :: after := by
    simp
  have hbefore : r.Follows root [] before := h.of_append
  obtain ⟨v, hv, hvat, -⟩ := (h before q _ rfl).exists_met
  obtain ⟨earlier, v', later, hmet, hlater, hinitial'⟩ := h _ q' after hsplit
  rw [List.nil_append] at hmet hlater
  have hvat' : v'.location = q'.current :=
    (SourceUnit.current_of_mem_queries (hinitial'.subset (by simp))).symm
  -- both calls are for the file of a source that was met before the first of them
  obtain rfl : v = v' := by
    refine eq_of_mem_met ((r.prefix_met_append root before (q :: between)).subset hv) ?_
      (hvat.trans (hcurrent.symm.trans hvat'.symm))
    simp [hmet]
  have hnew : unit ∉ r.met root before := fun hold =>
    SourceUnit.anyAt_eq_false_iff.1 hfresh unit hold rfl
  have hall := hlater unit (mem_later_of_met hmet hv hunit hnew)
  have hne : q.current ≠ unit.location := by
    rw [← hvat]
    exact SourceUnit.anyAt_eq_false_iff.1 hfresh v hv
  rwa [callsAt_append, callsAt_eq_nil hbefore.anyAt_met hfresh, List.nil_append,
    callsAt_cons_of_ne hne] at hall

/-- A location at which no source was seen is not among those met. -/
theorem firstSeen?_eq_none_iff {location : Location} :
    r.firstSeen? [root] asked location = none
      ↔ SourceUnit.anyAt (r.met root asked) location = false := by
  rw [← find?_met, List.find?_eq_none, SourceUnit.anyAt_eq_false_iff]
  simp

/-- The source seen first at a location stands there. -/
theorem location_of_firstSeen? {units : List SourceUnit} {unit : SourceUnit} {location : Location}
    (h : r.firstSeen? units asked location = some unit) : unit.location = location := by
  simpa using List.find?_some h

/-- **Calls that follow the rule are a depth-first walk in text order.** -/
theorem isDepthFirst_of_follows (h : r.Follows root [] asked) : r.IsDepthFirst root asked where
  next := h
  origin := by
    intro before q after hsplit
    obtain ⟨unit, hunit, hat, hinitial⟩ := (h before q after hsplit).exists_met
    have hfirst := mem_met_iff.1 hunit
    obtain ⟨i, hi, hpath⟩ := List.mem_map.1 (hinitial.subset (by simp : q ∈ _ ++ [q]))
    rw [hat] at hfirst
    refine ⟨?_, unit, hfirst, i, hi, congrArg Query.path hpath⟩
    rcases List.mem_append.1 (List.mem_of_find?_eq_some hfirst) with hroot | hfound
    · exact .inl ((List.mem_singleton.1 hroot) ▸ hat.symm)
    · obtain ⟨p, hp, hanswer⟩ := List.mem_filterMap.1 hfound
      exact .inr ⟨p, hp, unit, found?_eq_some_iff.1 hanswer, hat⟩
  textOrder := by
    intro location unit hfirst
    obtain rfl := location_of_firstSeen? hfirst
    exact h.prefix_queries (mem_met_iff.2 hfirst)
  subtree := by
    rintro before q between q' after rfl hcurrent location unit hfresh hfirst
    obtain rfl := location_of_firstSeen? hfirst
    exact h.callsAt_between hcurrent (firstSeen?_eq_none_iff.1 hfresh) (mem_met_iff.2 hfirst)

end IsDepthFirst

/-- When nothing is pending, every source that was entered was asked for all its imports. -/
theorem Reaches.callsAt_eq {r : Lookup} {root : SourceUnit} {asked : List Query}
    {units : List SourceUnit} (h : r.Reaches root asked units []) {unit : SourceUnit}
    (hunit : unit ∈ units) : callsAt asked unit.location = unit.queries := by
  have hleft : unit.left asked = [] :=
    List.flatMap_eq_nil_iff.1 h.pending unit (List.mem_reverse.2 hunit)
  have hqueries := SourceUnit.callsAt_append_left (h.called unit hunit)
  rwa [hleft, List.append_nil] at hqueries

section Walk

variable {r : Lookup} {root : SourceUnit} {tolerance : Tolerance}

/-- **A walk is depth first and in text order**, however it ends. -/
theorem isDepthFirst_walk (r : Lookup) (tolerance : Tolerance) (root : SourceUnit) :
    r.IsDepthFirst root (r.resolver.walk tolerance root).queries :=
  isDepthFirst_of_follows (r.reaches_root root).follows.1

/-- A walk that comes to its end asks for all imports of all sources seen. -/
theorem callsAt_of_walk {units : List SourceUnit}
    (h : (r.resolver.walk tolerance root).outcome = .ok units)
    {location : Location} {unit : SourceUnit}
    (hfirst : r.firstSeen? [root] (r.resolver.walk tolerance root).queries location = some unit) :
    callsAt (r.resolver.walk tolerance root).queries location = unit.queries := by
  have hreaches := (r.reaches_root root).follows.2 units h
  rw [List.nil_append] at hreaches
  obtain rfl := location_of_firstSeen? hfirst
  exact hreaches.callsAt_eq (hreaches.met ▸ mem_met_iff.2 hfirst)

/-- A walk that is not led on without an end comes to its end if nothing stops it. -/
theorem exists_ok_of_walk (hends : (r.resolver.walk tolerance root).outcome ≠ .error .endless)
    (hfree : ∀ q ∈ (r.resolver.walk tolerance root).queries,
      tolerance.obstacle? q (r.answer q) = none) :
    ∃ units, (r.resolver.walk tolerance root).outcome = .ok units := by
  obtain ⟨units, stop, hout, hdescends⟩ := descends_of_walkFrom hends
  cases stop with
  | none => exact ⟨units, hout⟩
  | some obstacle =>
    obtain ⟨q, hq, hobstacle⟩ := hdescends.exists_obstacle
    cases (hfree q hq).symm.trans hobstacle

end Walk

end Lookup

/-! ## The calls that are recorded -/

namespace Scripted.Script

variable (script : Script) (root : SourceUnit) (resolver : Resolver) (flags : Flags)
  (curve : Curve) (s : State)

/-- An obstacle to the walk is what comes of the compilation. -/
theorem outcome_compile_of_obstacle {obstacle : Obstacle}
    (h : (resolver.walk script.tolerance root).outcome = .error obstacle) :
    (script.engine.compile root resolver flags curve s).1.outcome = .error obstacle.stop := by
  have hcall : (script.engine.compile root resolver flags curve s).1 = _ :=
    script.compile_fst root resolver flags curve s
  rw [hcall, Walk.sources, h]
  rfl

/-- **A compilation that is not broken off is recorded** with all it asked. -/
theorem calls_compile
    (hreturns : ∀ stop,
      (script.engine.compile root resolver flags curve s).1.outcome = .error stop →
        stop.breaksOff = false) :
    (script.engine.compile root resolver flags curve s).2.calls.compile
      = s.calls.compile
        ++ [⟨root, flags, curve, (resolver.walk script.tolerance root).queries⟩] := by
  have hcall : (script.engine.compile root resolver flags curve s).1 = _ :=
    script.compile_fst root resolver flags curve s
  rw [hcall] at hreturns
  show (script.compile root resolver flags curve s).2.calls.compile = _
  unfold compile
  dsimp only
  cases hsources : (resolver.walk script.tolerance root).sources with
  | error stop =>
    rw [hsources] at hreturns
    have hstop := hreturns stop rfl
    cases stop with
    | failed e => rfl
    | crashed | endless => cases hstop
  | ok units =>
    by_cases hf : script.compileFails = true
    · simp only [hf, if_true]
      rfl
    · simp only [hf]
      rfl

/-- **What a compilation asks is a depth-first walk in text order**, whatever the script says. It is
recorded as it was asked, and every call is for the next import of the source first seen at its
location. An unknown import is the last one that is asked for, and the error names it; so is one
whose failure is raised, unless the engine carries on after failures. If no call ends the walk in
this way, then all imports of all sources seen are asked for. A compilation that is broken off, or
led on without an end, leaves no record. -/
theorem compile_depthFirst (r : Lookup)
    (hsound : (script.engine.compile root r.resolver flags curve s).1.outcome ≠ .error .crashed)
    (hends : (script.engine.compile root r.resolver flags curve s).1.outcome ≠ .error .endless) :
    ∃ asked, (script.engine.compile root r.resolver flags curve s).2.calls.compile
        = s.calls.compile ++ [⟨root, flags, curve, asked⟩]
      ∧ r.IsDepthFirst root asked
      ∧ (∀ before q after, asked = before ++ q :: after → r.answer q = .absent →
        after = [] ∧ (script.engine.compile root r.resolver flags curve s).1.outcome
          = .error (.failed (.stage .compile (q.current ++ ": import not found: " ++ q.path))))
      ∧ (script.swallowsFailures = false → ∀ before q after failure,
        asked = before ++ q :: after → r.answer q = .raised failure →
        after = [] ∧ (script.engine.compile root r.resolver flags curve s).1.outcome
          = .error (.failed (.callback "compile" "resolver" failure)))
      ∧ ((∀ q ∈ asked, r.answer q ≠ .absent) →
        (script.swallowsFailures = false → ∀ q ∈ asked, ∀ failure,
          r.answer q ≠ .raised failure) →
        ∀ location unit, r.firstSeen? [root] asked location = some unit →
          callsAt asked location = unit.queries) := by
  have hrecord := script.calls_compile root r.resolver flags curve s fun stop hstop => by
    cases stop with
    | failed e => rfl
    | crashed => exact absurd hstop hsound
    | endless => exact absurd hstop hends
  -- an answer that ends the walk is what comes of the compilation
  have hstops : ∀ before q after obstacle,
      (r.resolver.walk script.tolerance root).queries = before ++ q :: after →
      script.tolerance.obstacle? q (r.answer q) = some obstacle →
      after = [] ∧ (script.engine.compile root r.resolver flags curve s).1.outcome
        = .error obstacle.stop := fun before q after obstacle hasked hobstacle =>
    (Lookup.eq_nil_of_obstacle hasked hobstacle).imp_right
      (script.outcome_compile_of_obstacle root r.resolver flags curve s)
  refine ⟨_, hrecord, r.isDepthFirst_walk script.tolerance root, ?_, ?_, ?_⟩
  · intro before q after hasked hanswer
    exact hstops before q after (.absent q) hasked (by rw [hanswer]; rfl)
  · intro hraises before q after failure hasked hanswer
    refine hstops before q after (.raised failure) hasked ?_
    rw [hanswer, Tolerance.obstacle?, Script.tolerance, hraises]
    rfl
  · intro hknown hquiet location unit hfirst
    have hends' : (r.resolver.walk script.tolerance root).outcome ≠ .error .endless := fun h =>
      hends (script.outcome_compile_of_obstacle root r.resolver flags curve s h)
    obtain ⟨units, hunits⟩ := Lookup.exists_ok_of_walk hends' fun q hq => by
      cases hanswer : r.answer q with
      | found unit => rfl
      | absent => exact absurd hanswer (hknown q hq)
      | raised failure =>
        refine if_pos ?_
        by_contra hraises
        exact hquiet (Bool.eq_false_iff.2 hraises) q hq failure hanswer
      | crashed =>
        obtain ⟨before, after, hasked⟩ := List.append_of_mem hq
        exact absurd (hstops before q after .crashed hasked (by rw [hanswer]; rfl)).2 hsound
    exact Lookup.callsAt_of_walk hunits hfirst

/-- The first source is walked to its end, back to the root included, before the next import of the
root. That one is not known, and the last one is not asked for. -/
theorem compile_depthFirst_partlyKnown :
    ((Script.engine {}).compile partlyKnownRoot partlyKnown.resolver .empty .bn128 {}).1.outcome
        = .error (.failed (.stage .compile "main: import not found: std"))
      ∧ ((Script.engine {}).compile partlyKnownRoot partlyKnown.resolver .empty .bn128
          {}).2.calls.compile
        = [⟨partlyKnownRoot, .empty, .bn128,
          [⟨"main", "a"⟩, ⟨"a", "main"⟩, ⟨"a", "b"⟩, ⟨"main", "std"⟩]⟩]
      ∧ partlyKnown.IsDepthFirst partlyKnownRoot
          [⟨"main", "a"⟩, ⟨"a", "main"⟩, ⟨"a", "b"⟩, ⟨"main", "std"⟩] := by
  have hwalk : partlyKnown.resolver.walk ⟨false, false⟩ partlyKnownRoot
      = ⟨[⟨"main", "a"⟩, ⟨"a", "main"⟩, ⟨"a", "b"⟩, ⟨"main", "std"⟩],
        .error (.absent ⟨"main", "std"⟩)⟩ := by cbv
  have hout : ((Script.engine {}).compile partlyKnownRoot partlyKnown.resolver .empty .bn128
        {}).1.outcome
      = .error (Obstacle.absent ⟨"main", "std"⟩).stop :=
    outcome_compile_of_obstacle {} _ _ _ _ _ (congrArg Walk.outcome hwalk)
  obtain ⟨asked, hrecord, hdepthFirst, habsent, -⟩ :=
    compile_depthFirst {} partlyKnownRoot .empty .bn128 {} partlyKnown
      (by rw [hout, ne_eq, Except.error.injEq]; exact Stop.noConfusion)
      (by rw [hout, ne_eq, Except.error.injEq]; exact Stop.noConfusion)
  have hcalls := calls_compile {} partlyKnownRoot partlyKnown.resolver .empty .bn128 {}
    fun stop hstop => by
      rw [hout] at hstop
      cases hstop
      rfl
  obtain rfl : asked = [⟨"main", "a"⟩, ⟨"a", "main"⟩, ⟨"a", "b"⟩, ⟨"main", "std"⟩] := by
    have hsame := List.append_cancel_left (hrecord.symm.trans hcalls)
    have hasked : asked = (partlyKnown.resolver.walk ⟨false, false⟩ partlyKnownRoot).queries := by
      injection hsame with hcall
      injection hcall
    rw [hasked, hwalk]
  exact ⟨(habsent [⟨"main", "a"⟩, ⟨"a", "main"⟩, ⟨"a", "b"⟩] ⟨"main", "std"⟩ [] rfl rfl).2,
    hrecord, hdepthFirst⟩

end Scripted.Script

end ProofToolchain
