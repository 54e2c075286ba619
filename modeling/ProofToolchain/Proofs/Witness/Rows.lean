import Mathlib.Data.List.Nodup
import ProofToolchain.Proofs.Text.Lines
import ProofToolchain.Witness.Outputs

/-!
# The rows of a witness file

A row is the words of a line that is not blank. Reading succeeds exactly if every row is readable,
and then each row gives its output, if it is one, in the order of the rows
(`unsortedOutputs_eq_ok_iff`). Listing the outputs by index leaves those of one index in the order
of their rows (`filter_mergeSort`).
-/

namespace ProofToolchain.Witness

/-- **The rows of a file**: the words of its lines, without those of blank lines. -/
def rows (file : List Char) : List (List (List Char)) :=
  ((Text.lines file).map Text.words).filter (!·.isEmpty)

/-- The index that the name of an output variable ends in. -/
def indexOf? (name : List Char) : Option Nat :=
  Text.readUnsigned? 64 (name.drop outputName.length)

/-- **A row is readable** if it has a name and a value and, where the name is that of an output
variable, an index. -/
def IsReadable (row : List (List Char)) : Prop :=
  ∃ name value rest, row = name :: value :: rest
    ∧ (outputName.isPrefixOf name = true → (indexOf? name).isSome = true)

/-- The output that a row gives, with its index. -/
def output? : List (List Char) → Option (Nat × String)
  | name :: value :: _ =>
    if outputName.isPrefixOf name then (indexOf? name).map fun index => (index, String.ofList value)
    else none
  | _ => none

/-! ## Reading -/

/-- What is read under a condition that holds is what there is to read. -/
theorem ok_eq_ok_iff {α : Type} {p : Prop} (hp : p) {a b : α} :
    (Except.ok a : Except Error α) = .ok b ↔ p ∧ b = a := by
  rw [Except.ok.injEq, eq_comm]
  exact (and_iff_right hp).symm

/-- Nothing is read under a condition that fails. -/
theorem error_eq_ok_iff {α : Type} {p q : Prop} (hp : ¬ p) {e : Error} {b : α} :
    (Except.error e : Except Error α) = .ok b ↔ p ∧ q :=
  ⟨nofun, fun h => absurd h.1 hp⟩

/-- **A line is read** exactly if its words are a readable row, and gives what the row gives. -/
theorem readLine_eq_ok_iff {line : List Char} {read : Option (Nat × String)} :
    readLine line = .ok read ↔
      IsReadable (Text.words line) ∧ read = output? (Text.words line) := by
  unfold readLine
  generalize Text.words line = row
  cases row with
  | nil => exact error_eq_ok_iff (by simp [IsReadable])
  | cons name row =>
    cases row with
    | nil => exact error_eq_ok_iff (by simp [IsReadable])
    | cons value rest =>
      show (outputIndex? name >>= fun index? => _) = _ ↔ IsReadable _ ∧ read = ite _ _ _
      unfold outputIndex?
      by_cases houtput : outputName.isPrefixOf name = true
      · rw [if_pos houtput, if_pos houtput]
        unfold indexOf?
        cases hindex : Text.readUnsigned? 64 (name.drop outputName.length) with
        | none =>
          refine error_eq_ok_iff ?_
          rintro ⟨_, _, _, hrow, hsome⟩
          cases hrow
          have hsome : (Text.readUnsigned? 64 (name.drop outputName.length)).isSome = true :=
            hsome houtput
          rw [hindex] at hsome
          cases hsome
        | some index => exact ok_eq_ok_iff ⟨_, _, _, rfl, fun _ => Option.isSome_of_mem hindex⟩
      · rw [if_neg houtput, if_neg houtput]
        exact ok_eq_ok_iff ⟨_, _, _, rfl, fun h => absurd h houtput⟩

/-- **Lines are read** exactly if each of them is. -/
theorem mapM_readLine_eq_ok_iff {ls : List (List Char)} {read : List (Option (Nat × String))} :
    ls.mapM readLine = .ok read ↔
      (∀ line ∈ ls, IsReadable (Text.words line))
        ∧ read = ls.map fun line => output? (Text.words line) := by
  induction ls generalizing read with
  | nil => exact ok_eq_ok_iff (by simp)
  | cons line ls ih =>
    rw [List.mapM_cons, List.forall_mem_cons]
    cases hline : readLine line with
    | error e =>
      refine error_eq_ok_iff fun hall => ?_
      cases hline.symm.trans (readLine_eq_ok_iff.2 ⟨hall.1, rfl⟩)
    | ok first =>
      obtain ⟨hfirst, rfl⟩ := readLine_eq_ok_iff.1 hline
      cases hls : ls.mapM readLine with
      | error e =>
        refine error_eq_ok_iff fun hall => ?_
        cases hls.symm.trans (ih.2 ⟨hall.2, rfl⟩)
      | ok others =>
        obtain ⟨hothers, rfl⟩ := ih.1 hls
        exact ok_eq_ok_iff ⟨hfirst, hothers⟩

/-- The lines that are read are the rows of the file. -/
theorem map_words_fileLines (file : List Char) : (fileLines file).map Text.words = rows file := by
  unfold fileLines rows
  rw [List.filter_map, List.filter_map, List.map_map]
  have hblank : ((!·.isEmpty) ∘ Text.trim) = ((!·.isEmpty) ∘ Text.words) := by
    funext line
    show (!(Text.trim line).isEmpty) = (!(Text.words line).isEmpty)
    rw [Bool.eq_iff_iff]
    simp [Text.trim_eq_nil_iff]
  rw [hblank]
  exact List.map_congr_left fun line _ => Text.words_trim line

/-- **A file is read** exactly if its rows are readable, and then it has the outputs that its rows
give. -/
theorem unsortedOutputs_eq_ok_iff {file : List Char} {found : List (Nat × String)} :
    unsortedOutputs file = .ok found ↔
      (∀ row ∈ rows file, IsReadable row) ∧ found = (rows file).filterMap output? := by
  have hread : ∀ read, (fileLines file).mapM readLine = .ok read ↔
      (∀ row ∈ rows file, IsReadable row) ∧ read = (rows file).map output? := by
    intro read
    rw [mapM_readLine_eq_ok_iff, ← map_words_fileLines, List.forall_mem_map, List.map_map]
    rfl
  unfold unsortedOutputs
  cases hlines : (fileLines file).mapM readLine with
  | error e =>
    refine error_eq_ok_iff fun hreadable => ?_
    cases hlines.symm.trans ((hread _).2 ⟨hreadable, rfl⟩)
  | ok read =>
    obtain ⟨hreadable, rfl⟩ := (hread read).1 hlines
    show Except.ok (((rows file).map output?).filterMap id) = _ ↔ _
    rw [List.filterMap_map, Function.id_comp]
    exact ok_eq_ok_iff hreadable

/-! ## Listing by index -/

/-- Whether an output is not to come after another. -/
def comesFirst (a b : Nat × String) : Bool :=
  a.1 ≤ b.1

theorem comesFirst_trans (a b c : Nat × String) (hab : comesFirst a b = true)
    (hbc : comesFirst b c = true) : comesFirst a c = true :=
  decide_eq_true ((of_decide_eq_true hab).trans (of_decide_eq_true hbc))

theorem comesFirst_total (a b : Nat × String) : (comesFirst a b || comesFirst b a) = true := by
  simpa [comesFirst] using le_total a.1 b.1

/-- The outputs of a file are those of its rows, by index, if the rows are readable. -/
theorem outputs_eq_ok_iff {file : String} {values : List String} :
    outputs file = .ok values ↔
      (∀ row ∈ rows file.toList, IsReadable row)
        ∧ values = (((rows file.toList).filterMap output?).mergeSort comesFirst).map (·.2) := by
  unfold outputs
  cases hfound : unsortedOutputs file.toList with
  | error e =>
    refine error_eq_ok_iff fun hreadable => ?_
    cases hfound.symm.trans (unsortedOutputs_eq_ok_iff.2 ⟨hreadable, rfl⟩)
  | ok found =>
    obtain ⟨hreadable, rfl⟩ := unsortedOutputs_eq_ok_iff.1 hfound
    exact ok_eq_ok_iff hreadable

/-- **Outputs of one index keep their order.** -/
theorem filter_mergeSort (found : List (Nat × String)) (index : Nat) :
    (found.mergeSort comesFirst).filter (·.1 = index) = found.filter (·.1 = index) := by
  -- they are in order already, so sorting leaves them as they are
  have hordered : (found.filter (·.1 = index)).Pairwise fun a b => comesFirst a b = true := by
    refine List.pairwise_of_forall_mem_list fun a ha b hb => decide_eq_true ?_
    have hindex := of_decide_eq_true (List.mem_filter.1 ha).2
    have hindex' := of_decide_eq_true (List.mem_filter.1 hb).2
    exact (hindex.trans hindex'.symm).le
  have hkept : (found.filter (·.1 = index)).Sublist (found.mergeSort comesFirst) :=
    List.sublist_mergeSort comesFirst_trans comesFirst_total hordered List.filter_sublist
  have hpart : (found.filter (·.1 = index)).Sublist
      ((found.mergeSort comesFirst).filter (·.1 = index)) := by
    simpa using hkept.filter (·.1 = index)
  have hperm := (List.mergeSort_perm found comesFirst).filter (·.1 = index)
  exact (hpart.eq_of_length hperm.length_eq.symm).symm

/-- Outputs with distinct indices are listed by index in one way. -/
theorem mergeSort_eq_of_perm {found listed : List (Nat × String)} (hperm : found.Perm listed)
    (hlisted : listed.Pairwise fun a b => a.1 < b.1) : found.mergeSort comesFirst = listed := by
  have hsorted := List.pairwise_mergeSort comesFirst_trans comesFirst_total found
  have hordered : listed.Pairwise fun a b => comesFirst a b = true :=
    hlisted.imp fun h => decide_eq_true h.le
  refine List.Perm.eq_of_pairwise (fun a b ha hb hab hba => ?_) hsorted hordered
    ((List.mergeSort_perm found comesFirst).trans hperm)
  -- two outputs of one index are one output
  have hnodup : (listed.map (·.1)).Nodup := List.pairwise_map.2 (hlisted.imp fun h => h.ne)
  exact List.inj_on_of_nodup_map hnodup
    (((List.mergeSort_perm found comesFirst).trans hperm).mem_iff.1 ha) hb
    (Nat.le_antisymm (of_decide_eq_true hab) (of_decide_eq_true hba))

/-- **A file's outputs** are those it is read to have, listed by index. -/
theorem outputs_eq_ok_of_perm {file : String} {found listed : List (Nat × String)}
    (h : unsortedOutputs file.toList = .ok found) (hperm : found.Perm listed)
    (hlisted : listed.Pairwise fun a b => a.1 < b.1) : outputs file = .ok (listed.map (·.2)) := by
  unfold outputs
  rw [h]
  show Except.ok ((found.mergeSort comesFirst).map (·.2)) = _
  rw [mergeSort_eq_of_perm hperm hlisted]

end ProofToolchain.Witness
