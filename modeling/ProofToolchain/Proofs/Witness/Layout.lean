import ProofToolchain.Proofs.Witness.Rows

/-!
# Files that list outputs

How a witness file may be written: on each line a variable and its value with blanks around and
between them, or blanks only, and a line feed after it, with or without a carriage return
(`WrittenFile`). Such a file has the rows it was written with (`rows_of_writtenFile`), whatever the
blanks are. If it lists the values of the outputs, in any order and among any other variables, they
are read back in the order of their indices (`outputs_of_writtenFile`).
-/

namespace ProofToolchain.Witness

open Text (IsGap IsWord words)

/-- The name of an output variable. -/
def outputVariable (index : Nat) : List Char :=
  outputName ++ Text.decimal index

/-- **How a line may be written**, and the variable and the value on it, if any. -/
inductive WrittenLine : List Char → Option (List Char × List Char) → Prop
  /-- Blanks only. -/
  | blank {gap : List Char} : IsGap gap → WrittenLine gap none
  /-- A variable and its value. -/
  | entry {before name between value after : List Char} : IsGap before → IsWord name →
      IsGap between → between ≠ [] → IsWord value → IsGap after →
      WrittenLine (before ++ (name ++ (between ++ (value ++ after)))) (some (name, value))

/-- **How a file may be written**, and the variables and values in it in the order of its lines. -/
inductive WrittenFile : List Char → List (List Char × List Char) → Prop
  /-- The last line, which may be empty and has no ending. -/
  | last {line : List Char} {given : Option (List Char × List Char)} : '\n' ∉ line →
      WrittenLine line given → WrittenFile line given.toList
  /-- A line with its ending, and the lines after it. -/
  | line {line ending rest : List Char} {given : Option (List Char × List Char)}
      {entries : List (List Char × List Char)} : '\n' ∉ line → WrittenLine line given →
      ending = "\n".toList ∨ ending = "\r\n".toList → WrittenFile rest entries →
      WrittenFile (line ++ (ending ++ rest)) (given.toList ++ entries)

/-- The row of a variable and its value. -/
def rowOf (entry : List Char × List Char) : List (List Char) :=
  [entry.1, entry.2]

/-! ## The rows of a written file -/

/-- A line with an ending is read before the rest. -/
theorem rows_append {line : List Char} (h : '\n' ∉ line) (rest : List Char) :
    rows (line ++ '\n' :: rest) = [words line].filter (!·.isEmpty) ++ rows rest := by
  unfold rows
  rw [Text.lines_append h, List.map_cons, Text.words_dropReturn, ← List.filter_append]
  rfl

theorem rows_of_not_mem {line : List Char} (h : '\n' ∉ line) :
    rows line = [words line].filter (!·.isEmpty) := by
  unfold rows
  rw [Text.lines_of_not_mem h]
  cases line <;> rfl

theorem words_of_writtenLine {line : List Char} {given : Option (List Char × List Char)}
    (h : WrittenLine line given) :
    [words line].filter (!·.isEmpty) = given.toList.map rowOf := by
  cases h with
  | blank hgap =>
    rw [Text.words_of_isGap hgap]
    rfl
  | entry hbefore hname hbetween hne hvalue hafter =>
    rw [Text.words_gap_append hbefore, Text.words_append_of_isWord hname hbetween hne,
      Text.words_append_gap hafter, Text.words_of_isWord hvalue]
    rfl

/-- **The rows of a written file** are those it was written with. -/
theorem rows_of_writtenFile {file : List Char} {entries : List (List Char × List Char)}
    (h : WrittenFile file entries) : rows file = entries.map rowOf := by
  induction h with
  | last hline hwritten => rw [rows_of_not_mem hline, words_of_writtenLine hwritten]
  | @line line ending rest given entries hline hwritten hending hrest ih =>
    rw [List.map_append, ← ih, ← words_of_writtenLine hwritten]
    rcases hending with rfl | rfl
    · exact rows_append hline rest
    · -- the carriage return is a blank at the end of the line
      have hreturn : IsGap ['\r'] := by decide
      rw [← Text.words_append_gap hreturn line, ← rows_append (by simpa using hline) rest,
        List.append_assoc]
      rfl

/-! ## Reading the outputs back -/

theorem isPrefixOf_outputVariable (index : Nat) :
    outputName.isPrefixOf (outputVariable index) = true :=
  List.isPrefixOf_iff_prefix.2 (List.prefix_append outputName _)

/-- **An output variable has its index**, if a word can hold it. -/
theorem indexOf?_outputVariable {index : Nat} (h : index < Text.wordLimit 64) :
    indexOf? (outputVariable index) = some index := by
  unfold indexOf? outputVariable
  rw [List.drop_left]
  exact Text.readUnsigned?_decimal h

/-- The row of an output variable gives its value. -/
theorem output?_rowOf_outputVariable {index : Nat} (h : index < Text.wordLimit 64)
    (value : String) :
    output? (rowOf (outputVariable index, value.toList)) = some (index, value) := by
  unfold output? rowOf
  dsimp only
  rw [if_pos (isPrefixOf_outputVariable index), indexOf?_outputVariable h, Option.map_some,
    String.ofList_toList]

/-- The row of any other variable gives none. -/
theorem output?_rowOf_of_not_isPrefixOf {entry : List Char × List Char}
    (h : ¬ outputName.isPrefixOf entry.1 = true) : output? (rowOf entry) = none :=
  if_neg h

/-- Values with their indices, in the order of the indices. -/
def indexed (values : List String) : List (Nat × String) :=
  values.mapIdx fun index value => (index, value)

theorem map_indexed (values : List String) : (indexed values).map (·.2) = values := by
  refine List.ext_getElem (by simp [indexed]) fun i hi hi' => ?_
  simp [indexed]

theorem pairwise_indexed (values : List String) :
    (indexed values).Pairwise fun a b => a.1 < b.1 := by
  rw [List.pairwise_iff_getElem]
  intro i j hi hj hlt
  simpa [indexed] using hlt

/-- Values written under the names of their output variables. -/
def outputEntries (values : List String) : List (List Char × List Char) :=
  values.mapIdx fun index value => (outputVariable index, value.toList)

/-- Written under the names of their variables, values are read with their indices. -/
theorem filterMap_outputEntries {values : List String}
    (hlength : values.length ≤ Text.wordLimit 64) :
    (outputEntries values).filterMap (output? ∘ rowOf) = indexed values := by
  have hread : (outputEntries values).map (output? ∘ rowOf) = (indexed values).map some := by
    refine List.ext_getElem (by simp [indexed, outputEntries]) fun i hi hi' => ?_
    have hi : i < values.length := by simpa [indexed] using hi'
    have hread := output?_rowOf_outputVariable (hi.trans_le hlength) values[i]
    simpa [indexed, outputEntries] using hread
  rw [← Function.id_comp (output? ∘ rowOf), ← List.filterMap_map, hread, List.filterMap_map]
  exact List.filterMap_some

/-- **The outputs of a written file**: if its output variables, in whatever order, are those of some
values, the outputs are these values in the order of their indices. The values have no blanks, since
they stand on its lines as words, and the bound lets a machine word hold their indices. -/
theorem outputs_of_writtenFile {file : String} {entries : List (List Char × List Char)}
    {values : List String} (hfile : WrittenFile file.toList entries)
    (hentries : (entries.filter (outputName.isPrefixOf ·.1)).Perm (outputEntries values))
    (hlength : values.length ≤ Text.wordLimit 64) : outputs file = .ok values := by
  have hrows := rows_of_writtenFile hfile
  have hread : unsortedOutputs file.toList = .ok ((rows file.toList).filterMap output?) := by
    refine unsortedOutputs_eq_ok_iff.2 ⟨?_, rfl⟩
    rw [hrows, List.forall_mem_map]
    intro entry hentry
    refine ⟨entry.1, entry.2, [], rfl, fun houtput => ?_⟩
    -- a variable named as an output is one of those listed
    have hlisted := hentries.mem_iff.1 (List.mem_filter.2 ⟨hentry, houtput⟩)
    obtain ⟨index, hlt, rfl⟩ := List.mem_mapIdx.1 hlisted
    rw [indexOf?_outputVariable (hlt.trans_le hlength)]
    rfl
  have hfound : ((rows file.toList).filterMap output?).Perm (indexed values) := by
    rw [hrows, List.filterMap_map, ← filterMap_outputEntries hlength]
    refine .trans (.of_eq ?_) (hentries.filterMap (output? ∘ rowOf))
    rw [List.filterMap_filter]
    refine List.filterMap_congr fun entry _ => ?_
    by_cases houtput : outputName.isPrefixOf entry.1 = true
    · rw [if_pos houtput]
    · rw [if_neg houtput]
      exact output?_rowOf_of_not_isPrefixOf houtput
  rw [outputs_eq_ok_of_perm hread hfound (pairwise_indexed values), map_indexed]

/-- A file with its outputs in reverse order, another variable, a blank line and both endings. -/
def reversedFile : String := "~out_1\t7 \r\n\n  ~one 1\n~out_0 3"

/-- What is written in it. -/
def reversedEntries : List (List Char × List Char) :=
  [("~out_1".toList, "7".toList), ("~one".toList, "1".toList), ("~out_0".toList, "3".toList)]

theorem writtenFile_reversedFile : WrittenFile reversedFile.toList reversedEntries := by
  have hfirst : WrittenLine "~out_1\t7 ".toList (some ("~out_1".toList, "7".toList)) :=
    @WrittenLine.entry [] "~out_1".toList ['\t'] "7".toList [' '] (by decide) (by decide)
      (by decide) (by decide) (by decide) (by decide)
  have hother : WrittenLine "  ~one 1".toList (some ("~one".toList, "1".toList)) :=
    @WrittenLine.entry [' ', ' '] "~one".toList [' '] "1".toList [] (by decide) (by decide)
      (by decide) (by decide) (by decide) (by decide)
  have hlast : WrittenLine "~out_0 3".toList (some ("~out_0".toList, "3".toList)) :=
    @WrittenLine.entry [] "~out_0".toList [' '] "3".toList [] (by decide) (by decide)
      (by decide) (by decide) (by decide) (by decide)
  have hblank : WrittenLine [] none := .blank (by decide)
  exact .line (by decide) hfirst (.inr rfl) (.line List.not_mem_nil hblank (.inl rfl)
    (.line (by decide) hother (.inl rfl) (.last (by decide) hlast)))

theorem outputs_of_writtenFile_reversedFile :
    WrittenFile reversedFile.toList reversedEntries
      ∧ (reversedEntries.filter (outputName.isPrefixOf ·.1)).Perm (outputEntries ["3", "7"])
      ∧ ["3", "7"].length ≤ Text.wordLimit 64
      ∧ outputs reversedFile = .ok ["3", "7"] := by
  have hentries : outputEntries ["3", "7"]
      = [("~out_0".toList, "3".toList), ("~out_1".toList, "7".toList)] := by decide
  have hperm : (reversedEntries.filter (outputName.isPrefixOf ·.1)).Perm
      (outputEntries ["3", "7"]) := by
    rw [hentries]
    exact .swap _ _ _
  have hlength : ["3", "7"].length ≤ Text.wordLimit 64 := by decide
  exact ⟨writtenFile_reversedFile, hperm, hlength,
    outputs_of_writtenFile writtenFile_reversedFile hperm hlength⟩

end ProofToolchain.Witness
