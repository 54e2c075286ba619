import Mathlib.Data.List.Basic
import Mathlib.Data.Nat.Find
import ProofToolchain.Proofs.Witness.Rows

/-!
# Which index an output is listed under

A file's outputs are listed without their indices: first the values of its lines for index 0, then
those for index 1 and so on (`outputs_eq_flatMap`). So the place of a value in the list is its
index exactly if no index is repeated and none is left out below another (`isPlacedByIndex_iff`);
otherwise the values after a gap or a repetition are listed under other indices than their own.
-/

namespace ProofToolchain.Witness

/-- **The values of an index**: those of the file's lines for the output variable of that index, in
the order of the lines. -/
def valuesAt (file : String) (index : Nat) : List String :=
  (((rows file.toList).filterMap output?).filter (·.1 = index)).map (·.2)

/-- **Values are placed by index**: each is the value of the file's only line for the output
variable whose index is its place. -/
def IsPlacedByIndex (file : String) (values : List String) : Prop :=
  ∀ index value, values[index]? = some value → valuesAt file index = [value]

/-! ## Runs of one index -/

/-- In a list ordered by index, outputs of the largest index come after the others. -/
theorem eq_filter_append_filter {listed : List (Nat × String)} {last : Nat}
    (hlisted : listed.Pairwise fun a b => a.1 ≤ b.1) (hlast : ∀ a ∈ listed, a.1 < last + 1) :
    listed = listed.filter (·.1 < last) ++ listed.filter (·.1 = last) := by
  induction listed with
  | nil => rfl
  | cons a listed ih =>
    obtain ⟨hfirst, hlisted⟩ := List.pairwise_cons.1 hlisted
    obtain ⟨ha, hothers⟩ := List.forall_mem_cons.1 hlast
    by_cases hlt : a.1 < last
    · have hne : a.1 ≠ last := hlt.ne
      have hrest : listed = listed.filter (·.1 < last) ++ listed.filter (·.1 = last) :=
        ih hlisted hothers
      rw [List.filter_cons_of_pos (by simpa using hlt),
        List.filter_cons_of_neg (by simpa using hne), List.cons_append, ← hrest]
    · -- from the first output of the largest index on there is no other index
      have hall : ∀ b ∈ a :: listed, b.1 = last := by
        refine List.forall_mem_cons.2 ⟨by omega, fun b hb => ?_⟩
        have hle := hfirst b hb
        have hb := hothers b hb
        omega
      rw [List.filter_eq_nil_iff.2 fun b hb => by simpa using (hall b hb).ge,
        List.filter_eq_self.2 fun b hb => decide_eq_true (hall b hb), List.nil_append]

/-- **A list ordered by index** is made of its parts of one index, in the order of the indices. -/
theorem eq_flatMap_filter {listed : List (Nat × String)} {bound : Nat}
    (hlisted : listed.Pairwise fun a b => a.1 ≤ b.1) (hbound : ∀ a ∈ listed, a.1 < bound) :
    listed = (List.range bound).flatMap fun index => listed.filter (·.1 = index) := by
  induction bound generalizing listed with
  | zero => exact List.eq_nil_iff_forall_not_mem.2 fun a ha => Nat.not_lt_zero _ (hbound a ha)
  | succ last ih =>
    have hsmaller : listed.filter (·.1 < last)
        = (List.range last).flatMap fun index => listed.filter (·.1 = index) := by
      rw [ih (hlisted.filter _) fun a ha => of_decide_eq_true (List.mem_filter.1 ha).2]
      refine List.flatMap_congr fun index hindex => ?_
      rw [List.filter_filter]
      refine List.filter_congr fun a _ => Bool.and_eq_left_iff_imp.2 fun heq => ?_
      exact decide_eq_true ((of_decide_eq_true heq).trans_lt (List.mem_range.1 hindex))
    rw [List.range_succ, List.flatMap_append, List.flatMap_singleton, ← hsmaller]
    exact eq_filter_append_filter hlisted hbound

/-! ## The values of an index -/

/-- The index of an output is a word. -/
theorem lt_of_output?_eq_some {row : List (List Char)} {found : Nat × String}
    (h : output? row = some found) : found.1 < Text.wordLimit 64 := by
  unfold output? at h
  split at h
  · split at h
    · obtain ⟨index, hindex, rfl⟩ := Option.map_eq_some_iff.1 h
      exact of_decide_eq_true (Option.filter_eq_some_iff.1 hindex).2
    · cases h
  · cases h

theorem lt_of_valuesAt_ne_nil {file : String} {index : Nat} (h : valuesAt file index ≠ []) :
    index < Text.wordLimit 64 := by
  obtain ⟨value, hvalue⟩ := List.exists_mem_of_ne_nil _ h
  obtain ⟨found, hfound, rfl⟩ := List.mem_map.1 hvalue
  obtain ⟨hfound, hindex⟩ := List.mem_filter.1 hfound
  obtain ⟨row, -, hrow⟩ := List.mem_filterMap.1 hfound
  rw [← of_decide_eq_true hindex]
  exact lt_of_output?_eq_some hrow

/-- **The outputs of a file** are the values of its indices, one index after the other. -/
theorem outputs_eq_flatMap {file : String} {values : List String} {bound : Nat}
    (h : outputs file = .ok values) (hbound : ∀ index, valuesAt file index ≠ [] → index < bound) :
    values = (List.range bound).flatMap (valuesAt file) := by
  obtain ⟨-, rfl⟩ := outputs_eq_ok_iff.1 h
  generalize hfound : (rows file.toList).filterMap output? = found
  have hvaluesAt : ∀ index, valuesAt file index
      = ((found.mergeSort comesFirst).filter (·.1 = index)).map (·.2) := by
    intro index
    rw [filter_mergeSort, ← hfound]
    rfl
  have hsorted : (found.mergeSort comesFirst).Pairwise fun a b => a.1 ≤ b.1 :=
    (List.pairwise_mergeSort comesFirst_trans comesFirst_total found).imp of_decide_eq_true
  have hlt : ∀ a ∈ found.mergeSort comesFirst, a.1 < bound := by
    intro a ha
    refine hbound a.1 (List.ne_nil_of_mem (a := a.2) ?_)
    rw [hvaluesAt]
    exact List.mem_map_of_mem (List.mem_filter.2 ⟨ha, decide_eq_true rfl⟩)
  conv_lhs => rw [eq_flatMap_filter hsorted hlt, List.map_flatMap]
  exact List.flatMap_congr fun index _ => (hvaluesAt index).symm

/-- Indices with one value each give these values. -/
theorem flatMap_range_eq_map {values : Nat → List String} {value : Nat → String} {bound : Nat}
    (h : ∀ index < bound, values index = [value index]) :
    (List.range bound).flatMap values = (List.range bound).map value := by
  rw [List.map_eq_flatMap]
  exact List.flatMap_congr fun index hindex => h index (List.mem_range.1 hindex)

/-- Values that are placed by index are those of the indices below their number. -/
theorem flatMap_range_length {file : String} {values : List String}
    (hplaced : IsPlacedByIndex file values) :
    (List.range values.length).flatMap (valuesAt file) = values := by
  have hvalue : ∀ index < values.length, valuesAt file index = [values[index]?.getD ""] := by
    intro index hlt
    rw [List.getElem?_eq_getElem hlt, Option.getD_some]
    exact hplaced index _ (List.getElem?_eq_getElem hlt)
  rw [flatMap_range_eq_map hvalue]
  refine List.ext_getElem (by simp) fun index hlt hlt' => ?_
  rw [List.getElem_map, List.getElem_range, List.getElem?_eq_getElem hlt', Option.getD_some]

/-- Where values are placed by index, no index is beyond them. -/
theorem lt_length_of_isPlacedByIndex {file : String} {values : List String}
    (h : outputs file = .ok values) (hplaced : IsPlacedByIndex file values) {index : Nat}
    (hne : valuesAt file index ≠ []) : index < values.length := by
  by_contra hle
  have hlt := lt_of_valuesAt_ne_nil hne
  -- the values placed so far are all there are, so the indices after them have none
  have hall := outputs_eq_flatMap h fun _ => lt_of_valuesAt_ne_nil
  rw [← Nat.add_sub_cancel' ((not_lt.1 hle).trans hlt.le), List.range_add, List.flatMap_append,
    flatMap_range_length hplaced, List.self_eq_append_right, List.flatMap_eq_nil_iff] at hall
  refine hne (hall index (List.mem_map.2 ⟨index - values.length, List.mem_range.2 ?_, ?_⟩))
  · omega
  · exact Nat.add_sub_cancel' (not_lt.1 hle)

/-- Values are placed by index where all indices below some bound have one value and others none. -/
theorem isPlacedByIndex_of_bound {file : String} {values : List String} {bound : Nat}
    (h : outputs file = .ok values) (hbound : ∀ index, valuesAt file index ≠ [] → index < bound)
    (hsingle : ∀ index < bound, (valuesAt file index).length = 1) :
    IsPlacedByIndex file values := by
  have hvalue : ∀ index < bound, valuesAt file index = [(valuesAt file index).headD ""] := by
    intro index hlt
    obtain ⟨value, heq⟩ := List.length_eq_one_iff.1 (hsingle index hlt)
    rw [heq]
    rfl
  intro index value hget
  rw [outputs_eq_flatMap h hbound, flatMap_range_eq_map hvalue] at hget
  obtain ⟨hlt, hget⟩ := List.getElem?_eq_some_iff.1 hget
  rw [List.getElem_map, List.getElem_range] at hget
  rw [hvalue index (by simpa using hlt), hget]

/-- **When the outputs of a file are placed by index**: they are the values of index 0, then those
of index 1 and so on, and so each stands in the place of its index exactly if no index has more than
one and none has none below one that has. -/
theorem isPlacedByIndex_iff {file : String} {values : List String} (h : outputs file = .ok values) :
    values = (List.range (Text.wordLimit 64)).flatMap (valuesAt file)
      ∧ (IsPlacedByIndex file values ↔
        (∀ index, (valuesAt file index).length ≤ 1)
          ∧ ∀ index later, index < later → valuesAt file later ≠ [] →
            valuesAt file index ≠ []) := by
  refine ⟨outputs_eq_flatMap h fun _ => lt_of_valuesAt_ne_nil, fun hplaced => ⟨?_, ?_⟩, ?_⟩
  · intro index
    by_cases hne : valuesAt file index = []
    · rw [hne]
      exact Nat.zero_le 1
    · rw [hplaced index _ (List.getElem?_eq_getElem (lt_length_of_isPlacedByIndex h hplaced hne))]
      rfl
  · intro index later hlt hne
    have hlater := lt_length_of_isPlacedByIndex h hplaced hne
    rw [hplaced index _ (List.getElem?_eq_getElem (hlt.trans hlater))]
    exact List.cons_ne_nil _ _
  · rintro ⟨hsingle, hdown⟩
    -- the bound is the first index without values
    have hunused : ∃ index, valuesAt file index = [] :=
      ⟨Text.wordLimit 64, by_contra fun hne => lt_irrefl _ (lt_of_valuesAt_ne_nil hne)⟩
    have hbound : ∀ index, valuesAt file index ≠ [] → index < Nat.find hunused := by
      intro index hne
      by_contra hle
      rcases (not_lt.1 hle).eq_or_lt with heq | hlt
      · exact hne (heq ▸ Nat.find_spec hunused)
      · exact hdown _ index hlt hne (Nat.find_spec hunused)
    refine isPlacedByIndex_of_bound h hbound fun index hlt => ?_
    exact (hsingle index).antisymm (List.length_pos_of_ne_nil (Nat.find_min hunused hlt))

/-- Two outputs, the one of the larger index first. -/
def swappedFile : String := "~out_1 7\n~out_0 3\n"

theorem isPlacedByIndex_iff_swappedFile :
    outputs swappedFile = .ok ["3", "7"]
      ∧ IsPlacedByIndex swappedFile ["3", "7"]
      ∧ (∀ index, (valuesAt swappedFile index).length ≤ 1)
      ∧ ∀ index later, index < later → valuesAt swappedFile later ≠ [] →
        valuesAt swappedFile index ≠ [] := by
  have hplaced : IsPlacedByIndex swappedFile ["3", "7"] := by
    rintro (_ | _ | index) value hget
    · cases hget
      rfl
    · cases hget
      rfl
    · cases hget
  have hread : unsortedOutputs swappedFile.toList = .ok [(1, "7"), (0, "3")] := by rfl
  have houtputs : outputs swappedFile = .ok ["3", "7"] :=
    outputs_eq_ok_of_perm hread (.swap (0, "3") (1, "7") []) (by decide)
  exact ⟨houtputs, hplaced, (isPlacedByIndex_iff houtputs).2.1 hplaced⟩

/-- A file whose only output has the index 1. -/
def gappedFile : String := "~out_1 7\n"

/-- **An output takes the place of one that is missing**: the value of index 1 is listed as that of
index 0, which has none. -/
theorem not_isPlacedByIndex_gappedFile :
    outputs gappedFile = .ok ["7"] ∧ valuesAt gappedFile 0 = [] ∧ valuesAt gappedFile 1 = ["7"]
      ∧ ¬ IsPlacedByIndex gappedFile ["7"] := by
  have hread : unsortedOutputs gappedFile.toList = .ok [(1, "7")] := by rfl
  have hnone : valuesAt gappedFile 0 = [] := by rfl
  refine ⟨outputs_eq_ok_of_perm hread (.refl [(1, "7")]) (by decide), hnone, by rfl, ?_⟩
  intro hplaced
  exact List.cons_ne_nil _ _ ((hplaced 0 "7" rfl).symm.trans hnone)

end ProofToolchain.Witness
