import ProofToolchain.CommandLine.Arguments

/-!
# Positional values and the switch after them

Without an interface the values of a call stand on the command line one after another, and a
switch may follow them. Nothing marks where they end. So values that end in the switch itself make
the command line of a call that has fewer values and asks for what the switch asks for
(`Imitates`). There is no other way for two calls to have the same command line
(`positionalArgs_eq_iff`), so it tells them apart unless one imitates the other
(`tellsApart_iff`). Calls without the switch among their values are always told apart.
-/

namespace ProofToolchain.CommandLine

/-- The switch that asks for the witness in the form `snarkjs` reads. -/
def circomSwitch : String := "--circom-witness"

/-- The command line of a call without an interface. -/
def positionalArgs (values : List String) (snarkjs : Bool) : List String :=
  ["compute-witness", "--input", programFile, "--output", witnessFile]
    ++ whenever (!values.isEmpty) ("--arguments" :: values)
    ++ whenever snarkjs [circomSwitch, circomWitnessFile]

/-- **A call without an interface succeeds** if its arguments spell values, and then these and the
switch make its command line. -/
theorem witnessArgs_none_eq_ok_iff {text : String} {snarkjs : Bool} {args : List String}
    {fed : Option String} :
    witnessArgs none text snarkjs = .ok (args, fed) ↔
      ∃ values, Argument.flattenText text = .ok values ∧ args = positionalArgs values snarkjs
        ∧ fed = none := by
  unfold witnessArgs
  dsimp only
  cases Argument.flattenText text with
  | error e => simp [bind, Except.bind]
  | ok values =>
    show Except.ok (positionalArgs values snarkjs, none) = .ok (args, fed) ↔ _
    constructor
    · intro h
      cases h
      exact ⟨values, rfl, rfl, rfl⟩
    · rintro ⟨_, h, rfl, rfl⟩
      cases h
      rfl

/-- **A call imitates another** if it does without the switch, but has it among its values, where
the other has it after them. -/
def Imitates (values : List String) (snarkjs : Bool) (others : List String) (snarkjs' : Bool) :
    Prop :=
  snarkjs = false ∧ snarkjs' = true ∧ others ≠ []
    ∧ values = others ++ [circomSwitch, circomWitnessFile]

/-- The values are written after a mark of their own, if there are any. -/
theorem whenever_values_eq_iff {values others : List String} :
    whenever (!values.isEmpty) ("--arguments" :: values)
        = whenever (!others.isEmpty) ("--arguments" :: others) ↔ values = others := by
  cases values <;> cases others <;> simp [whenever]

/-- The switch is taken for values only where there are other values before it. -/
theorem whenever_values_eq_append_iff {values others : List String} :
    whenever (!values.isEmpty) ("--arguments" :: values)
        = whenever (!others.isEmpty) ("--arguments" :: others) ++ [circomSwitch, circomWitnessFile]
      ↔ others ≠ [] ∧ values = others ++ [circomSwitch, circomWitnessFile] := by
  cases others with
  | nil => cases values <;> simp [whenever, circomSwitch]
  | cons other others => cases values <;> simp [whenever]

/-- **Two calls with one command line** are the same, or one imitates the other. -/
theorem positionalArgs_eq_iff {values others : List String} {snarkjs snarkjs' : Bool} :
    positionalArgs values snarkjs = positionalArgs others snarkjs' ↔
      values = others ∧ snarkjs = snarkjs' ∨ Imitates values snarkjs others snarkjs'
        ∨ Imitates others snarkjs' values snarkjs := by
  unfold positionalArgs Imitates
  rw [List.append_assoc, List.append_assoc, List.append_right_inj]
  cases snarkjs with
  | false =>
    cases snarkjs' with
    | false =>
      show whenever (!values.isEmpty) _ ++ [] = whenever (!others.isEmpty) _ ++ [] ↔ _
      rw [List.append_nil, List.append_nil, whenever_values_eq_iff]
      simp
    | true =>
      show whenever (!values.isEmpty) _ ++ [] = whenever (!others.isEmpty) _ ++ [_, _] ↔ _
      rw [List.append_nil, whenever_values_eq_append_iff]
      simp
  | true =>
    cases snarkjs' with
    | false =>
      show whenever (!values.isEmpty) _ ++ [_, _] = whenever (!others.isEmpty) _ ++ [] ↔ _
      rw [List.append_nil, eq_comm, whenever_values_eq_append_iff]
      simp
    | true =>
      show whenever (!values.isEmpty) _ ++ [_, _] = whenever (!others.isEmpty) _ ++ [_, _] ↔ _
      rw [List.append_left_inj, whenever_values_eq_iff]
      simp

/-- **The command line tells two calls apart**: where both have one and it is the same, they have
the same values and the same switch. -/
def TellsApart (text text' : String) (snarkjs snarkjs' : Bool) : Prop :=
  ∀ args args' fed fed', witnessArgs none text snarkjs = .ok (args, fed) →
    witnessArgs none text' snarkjs' = .ok (args', fed') → args = args' →
      Argument.flattenText text = Argument.flattenText text' ∧ snarkjs = snarkjs'

/-- Calls of which neither imitates the other are told apart. -/
theorem tellsApart_of_not_imitates {text text' : String} {snarkjs snarkjs' : Bool}
    (h : ∀ values others, Argument.flattenText text = .ok values →
      Argument.flattenText text' = .ok others → ¬ Imitates values snarkjs others snarkjs'
        ∧ ¬ Imitates others snarkjs' values snarkjs) :
    TellsApart text text' snarkjs snarkjs' := by
  intro args args' fed fed' hargs hargs' heq
  obtain ⟨values, hvalues, rfl, -⟩ := witnessArgs_none_eq_ok_iff.1 hargs
  obtain ⟨others, hothers, rfl, -⟩ := witnessArgs_none_eq_ok_iff.1 hargs'
  obtain ⟨hnot, hnot'⟩ := h values others hvalues hothers
  rcases positionalArgs_eq_iff.1 heq with ⟨rfl, rfl⟩ | himitates | himitates
  · exact ⟨hvalues.trans hothers.symm, rfl⟩
  · exact absurd himitates hnot
  · exact absurd himitates hnot'

/-- **When a command line tells two calls apart**: exactly if neither imitates the other. That is so
wherever no value of either call is the switch. -/
theorem tellsApart_iff (text text' : String) (snarkjs snarkjs' : Bool) :
    (TellsApart text text' snarkjs snarkjs' ↔
        ∀ values others, Argument.flattenText text = .ok values →
          Argument.flattenText text' = .ok others → ¬ Imitates values snarkjs others snarkjs'
            ∧ ¬ Imitates others snarkjs' values snarkjs)
      ∧ ((∀ values, Argument.flattenText text = .ok values
          ∨ Argument.flattenText text' = .ok values → circomSwitch ∉ values) →
        TellsApart text text' snarkjs snarkjs') := by
  refine ⟨⟨fun happart values others hvalues hothers => ?_, tellsApart_of_not_imitates⟩, ?_⟩
  · -- where one imitates the other the command line is the same and the switch is not
    have hsame : positionalArgs values snarkjs = positionalArgs others snarkjs' →
        snarkjs = snarkjs' := fun heq =>
      (happart _ _ _ _ (witnessArgs_none_eq_ok_iff.2 ⟨values, hvalues, rfl, rfl⟩)
        (witnessArgs_none_eq_ok_iff.2 ⟨others, hothers, rfl, rfl⟩) heq).2
    constructor
    · intro himitates
      have hflag := hsame (positionalArgs_eq_iff.2 (.inr (.inl himitates)))
      obtain ⟨rfl, rfl, -⟩ := himitates
      cases hflag
    · intro himitates
      have hflag := hsame (positionalArgs_eq_iff.2 (.inr (.inr himitates)))
      obtain ⟨rfl, rfl, -⟩ := himitates
      cases hflag
  · intro hfree
    refine tellsApart_of_not_imitates fun values others hvalues hothers => ⟨?_, ?_⟩
    · rintro ⟨-, -, -, rfl⟩
      exact hfree _ (.inl hvalues) (by simp)
    · rintro ⟨-, -, -, rfl⟩
      exact hfree _ (.inr hothers) (by simp)

/-- An argument list that spells the switch. -/
def switchAsValue : String := "[\"3\", \"--circom-witness\", \"out.wtns\"]"

/-- **Values are taken for the switch**: with them the tool is asked for something that the call
does without. -/
theorem not_tellsApart_switchAsValue :
    Argument.flattenText switchAsValue = .ok ["3", "--circom-witness", "out.wtns"]
      ∧ Argument.flattenText "[\"3\"]" = .ok ["3"]
      ∧ witnessArgs none switchAsValue false = witnessArgs none "[\"3\"]" true
      ∧ ¬ TellsApart switchAsValue "[\"3\"]" false true := by
  have hvalues :
      Argument.flattenText switchAsValue = .ok ["3", "--circom-witness", "out.wtns"] := by
    cbv
  have hothers : Argument.flattenText "[\"3\"]" = .ok ["3"] := by cbv
  have hargs : witnessArgs none switchAsValue false
      = .ok (positionalArgs ["3", "--circom-witness", "out.wtns"] false, none) :=
    witnessArgs_none_eq_ok_iff.2 ⟨_, hvalues, rfl, rfl⟩
  have hargs' : witnessArgs none "[\"3\"]" true = .ok (positionalArgs ["3"] true, none) :=
    witnessArgs_none_eq_ok_iff.2 ⟨_, hothers, rfl, rfl⟩
  refine ⟨hvalues, hothers, hargs.trans hargs'.symm, fun happart => ?_⟩
  cases (happart _ _ _ _ hargs hargs' rfl).2

end ProofToolchain.CommandLine
