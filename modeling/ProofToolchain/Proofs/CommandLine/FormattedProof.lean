import ProofToolchain.CommandLine.Answers
import ProofToolchain.Proofs.Json.Reading
import ProofToolchain.Proofs.Json.Separation
import ProofToolchain.Proofs.Text.Lines

/-!
# A formatted proof is what was printed

The tool prints a formatted proof as one JSON text or as several with commas between them, which are
no JSON text. So its output is read as it is and, if that fails, once more between brackets.

The two readings see the same tokens, up to the brackets. The output is read as it is exactly if it
is one item, and between brackets if it is any number of them, so the second reading never makes
an array of one item out of what the first refused, and it cannot end early at a bracket of the
output (`Json.Literal.parse?_brackets_eq_some_iff`). What the brackets cost is one level of
nesting. The blanks around the output are those of Unicode, of which JSON knows four; they are all
gone before anything is read.
-/

namespace ProofToolchain.CommandLine

open Json (Literal tokens? mapM_eq_some_iff_forall₂)

/-! ## What is printed -/

/-- **A text that a value is printed as**, so that it may stand in an array. -/
structure IsPrinted (text : String) (value : Json) : Prop where
  /-- It spells the value. -/
  parses : Json.parse? text = some value
  /-- It starts and ends with a character that is no white space. -/
  tight : Text.IsTight text.toList
  /-- It leaves room for the brackets of the array. -/
  nests : ∀ l, Literal.parse? text.toList = some l → l.depth ≤ 126

/-- What a text says is known from the literal it spells. -/
theorem IsPrinted.of_literal {text : String} {l : Literal} {value : Json}
    (hl : Literal.parse? text.toList = some l) (hvalue : l.toJson? Json.maxDepth = some value)
    (htight : Text.IsTight text.toList) (hdepth : l.depth ≤ 126) : IsPrinted text value where
  parses := by rw [Json.parse?, hl, Option.bind_some, hvalue]
  tight := htight
  nests := by
    rintro _ h
    cases hl.symm.trans h
    exact hdepth

/-- **What is printed are literals** that make the values one level deeper as well. -/
theorem exists_items_of_isPrinted {texts : List String} {values : List Json}
    (h : List.Forall₂ IsPrinted texts values) :
    ∃ items, List.Forall₂ (fun text item => tokens? text = some item.tokens)
        (texts.map String.toList) items
      ∧ List.Forall₂ (fun item value => Literal.toJson? 126 item = some value) items values := by
  induction h with
  | nil => exact ⟨[], .nil, .nil⟩
  | @cons text value texts values hprinted _ ih =>
    obtain ⟨items, htexts, hvalues⟩ := ih
    obtain ⟨l, hl, hvalue⟩ := Option.bind_eq_some_iff.1 hprinted.parses
    exact ⟨l :: items, .cons (Literal.parse?_eq_some_iff.1 hl) htexts,
      .cons (Literal.toJson?_of_depth_le hvalue (hprinted.nests l hl)) hvalues⟩

/-- What is printed is all that is left when the blanks around it are trimmed. -/
theorem trim_join_of_isPrinted {texts : List String} {values : List Json}
    (h : List.Forall₂ IsPrinted texts values) {before after : List Char}
    (hbefore : Text.IsGap before) (hafter : Text.IsGap after) :
    Text.trim (before ++ Text.join [','] (texts.map String.toList) ++ after)
      = Text.join [','] (texts.map String.toList) := by
  by_cases hne : texts = []
  · subst hne
    rw [List.map_nil, Text.join, List.append_nil, Text.trim_eq_nil_iff,
      Text.words_gap_append hbefore, Text.words_of_isGap hafter]
  · have hboth : List.Forall₂ (fun text value => Text.IsTight text.toList ∧ IsPrinted text value)
        texts values := h.imp fun _ _ hprinted => ⟨hprinted.tight, hprinted⟩
    have htight : ∀ text ∈ texts.map String.toList, Text.IsTight text :=
      List.forall_mem_map.2 ((List.forall₂_and_left _ _).1 hboth).1
    exact Text.trim_gap_append_gap hbefore hafter
      (Text.isTight_join (by simpa using hne) htight)

/-! ## The two readings -/

section Readings

variable {stdout : String} {value : Json}

theorem formattedProof_of_parse?
    (h : Json.parse? (String.ofList (Text.trim stdout.toList)) = some value) :
    formattedProof stdout = value := by
  unfold formattedProof
  dsimp only
  rw [h]

theorem formattedProof_of_brackets
    (h : Json.parse? (String.ofList (Text.trim stdout.toList)) = none)
    (hbrackets : Json.parse? (String.ofList ('[' :: Text.trim stdout.toList ++ [']']))
      = some value) : formattedProof stdout = value := by
  unfold formattedProof
  dsimp only
  rw [h]
  dsimp only
  rw [hbrackets]

theorem formattedProof_of_neither
    (h : Json.parse? (String.ofList (Text.trim stdout.toList)) = none)
    (hbrackets : Json.parse? (String.ofList ('[' :: Text.trim stdout.toList ++ [']'])) = none) :
    formattedProof stdout = .string (String.ofList (Text.trim stdout.toList)) := by
  unfold formattedProof
  dsimp only
  rw [h]
  dsimp only
  rw [hbrackets]

end Readings

/-- **The value that printed values are together**: one is itself, and any other number of them is
an array. -/
def together : List Json → Json
  | [value] => value
  | values => .array values

theorem together_of_length_ne_one {values : List Json} (h : values.length ≠ 1) :
    together values = .array values := by
  unfold together
  split
  · exact absurd rfl h
  · rfl

/-- **What was printed is recovered.** -/
theorem formattedProof_of_isPrinted {texts : List String} {values : List Json}
    (h : List.Forall₂ IsPrinted texts values) {before after : List Char}
    (hbefore : Text.IsGap before) (hafter : Text.IsGap after) :
    formattedProof (String.ofList (before ++ Text.join [','] (texts.map String.toList) ++ after))
      = together values := by
  have htrim := trim_join_of_isPrinted h hbefore hafter
  obtain ⟨items, htexts, hitems⟩ := exists_items_of_isPrinted h
  have hcut := Json.tokens?_join htexts
  by_cases hone : values.length = 1
  · obtain ⟨value, rfl⟩ := List.length_eq_one_iff.1 hone
    cases h with
    | @cons text _ texts _ hprinted hrest =>
      cases hrest
      refine formattedProof_of_parse? ?_
      rw [String.toList_ofList, htrim]
      show Json.parse? (String.ofList text.toList) = some value
      rw [String.ofList_toList, hprinted.parses]
  · rw [together_of_length_ne_one hone]
    refine formattedProof_of_brackets ?_ ?_
    · rw [String.toList_ofList, htrim]
      exact Json.parse?_eq_none_of_items hcut (hitems.length_eq ▸ hone)
    · rw [String.toList_ofList, htrim, Json.parse?_brackets hcut,
        mapM_eq_some_iff_forall₂.2 hitems, Option.map_some]

/-- The blanks of JSON are white space. -/
theorem isBlank_of_json {c : Char} (h : Json.isBlank c = true) : Text.isBlank c = true := by
  simp only [Json.isBlank, Bool.or_eq_true, beq_iff_eq] at h
  rcases h with ((rfl | rfl) | rfl) | rfl <;> decide

/-- **An output without tokens** is blank. -/
theorem isGap_of_tokens?_eq_nil {stdout : List Char} (h : tokens? (Text.trim stdout) = some []) :
    Text.IsGap stdout := by
  have hgap : Text.IsGap (Text.trim stdout) :=
    fun c hc => isBlank_of_json (Json.isBlank_of_tokens?_eq_nil h c hc)
  rw [← Text.words_eq_nil_iff, ← Text.words_trim]
  exact Text.words_of_isGap hgap

/-- **What is read between brackets** only is an array, but not of one item, and of none only if
nothing but blanks was printed. -/
theorem exists_array_of_brackets {stdout : List Char} {value : Json}
    (h : Json.parse? (String.ofList (Text.trim stdout)) = none)
    (hbrackets : Json.parse? (String.ofList ('[' :: Text.trim stdout ++ [']'])) = some value) :
    ∃ values, value = .array values ∧ values.length ≠ 1 ∧ (values = [] ↔ Text.IsGap stdout) := by
  obtain ⟨l, hl, -⟩ := Option.bind_eq_some_iff.1 hbrackets
  rw [String.toList_ofList] at hl
  obtain ⟨items, rfl, hcut⟩ := Literal.parse?_brackets_eq_some_iff.1 hl
  rw [Json.parse?_brackets hcut] at hbrackets
  obtain ⟨values, hvalues, rfl⟩ := Option.map_eq_some_iff.1 hbrackets
  have hitems := mapM_eq_some_iff_forall₂.1 hvalues
  refine ⟨values, rfl, fun hone => ?_, fun hnil => ?_, fun hgap => ?_⟩
  · -- one item would have been read as it is
    obtain ⟨v, rfl⟩ := List.length_eq_one_iff.1 hone
    cases hitems with
    | @cons item _ items _ hitem hrest =>
      cases hrest
      have hdepth : item.depth ≤ Json.maxDepth :=
        (Literal.depth_le_of_toJson? hitem).trans (by decide)
      rw [Json.parse?, String.toList_ofList, Literal.parse?_eq_some_iff.2 hcut, Option.bind_some,
        Literal.toJson?_of_depth_le hitem hdepth] at h
      cases h
  · subst hnil
    cases hitems
    exact isGap_of_tokens?_eq_nil hcut
  · rw [Text.trim_eq_nil_iff.2 (Text.words_of_isGap hgap), Json.tokens?_nil] at hcut
    have hnil : items = [] := Literal.itemsTokens_injective (Option.some.inj hcut).symm
    subst hnil
    cases hitems
    rfl

/-- **A formatted proof is what was printed.** If texts of values are printed with commas between
them, and any blanks around them, the proof is the one value or, if there are several or none, the
array of them.

Conversely, where only the reading between brackets succeeds, it gives an array, never of exactly
one item, and of none exactly if nothing but blanks was printed. Where neither does, the proof is
the output as a text, without the blanks around it. -/
theorem formattedProof_recovers :
    (∀ {texts : List String} {values : List Json}, List.Forall₂ IsPrinted texts values →
        ∀ {before after : List Char}, Text.IsGap before → Text.IsGap after →
          formattedProof
              (String.ofList (before ++ Text.join [','] (texts.map String.toList) ++ after))
            = together values)
      ∧ ∀ stdout : String, Json.parse? (String.ofList (Text.trim stdout.toList)) = none →
          (∀ value,
              Json.parse? (String.ofList ('[' :: Text.trim stdout.toList ++ [']'])) = some value →
            formattedProof stdout = value
              ∧ ∃ values, value = .array values ∧ values.length ≠ 1
                  ∧ (values = [] ↔ Text.IsGap stdout.toList))
            ∧ (Json.parse? (String.ofList ('[' :: Text.trim stdout.toList ++ [']'])) = none →
                formattedProof stdout = .string (String.ofList (Text.trim stdout.toList))) := by
  refine ⟨formattedProof_of_isPrinted, fun stdout h => ⟨fun value hbrackets => ⟨?_, ?_⟩, ?_⟩⟩
  · exact formattedProof_of_brackets h hbrackets
  · exact exists_array_of_brackets h hbrackets
  · exact formattedProof_of_neither h

/-- An object whose key is a bracket. -/
def bracketText : String := "\x7b\"]\":[1]\x7d"

/-- What it spells. -/
def bracketValue : Json := .object [("]", .array [.number (.integer 1)])]

/-- A string with a comma in it. -/
def commaText : String := "\"a,b\""

/-- **Brackets and commas in strings** separate nothing, and an ideographic space counts as a blank.
What is open when the output ends keeps the output a text. -/
theorem formattedProof_recovers_brackets :
    IsPrinted bracketText bracketValue ∧ IsPrinted commaText (.string "a,b")
      ∧ formattedProof (String.ofList (['\u3000']
          ++ Text.join [','] ([bracketText, commaText].map String.toList) ++ ['\n']))
        = .array [bracketValue, .string "a,b"]
      ∧ formattedProof " 1,[2 " = .string "1,[2" := by
  have hbracket : IsPrinted bracketText bracketValue :=
    .of_literal (l := .object [([.char ']'], .array [.number ⟨false, ['1'], none, none⟩])])
      (by cbv) rfl ⟨⟨'{', rfl, by decide⟩, ⟨'}', rfl, by decide⟩⟩ (by decide)
  have hcomma : IsPrinted commaText (.string "a,b") :=
    .of_literal (l := .string [.char 'a', .char ',', .char 'b'])
      (by cbv) rfl ⟨⟨'"', rfl, by decide⟩, ⟨'"', rfl, by decide⟩⟩ (by decide)
  have hopen : Literal.parse? "1,[2".toList = none := by cbv
  have hclosed : Literal.parse? "[1,[2]".toList = none := by cbv
  obtain ⟨hrecovers, hfallback⟩ := formattedProof_recovers
  refine ⟨hbracket, hcomma,
    hrecovers (.cons hbracket (.cons hcomma .nil)) (by decide) (by decide), ?_⟩
  refine (hfallback " 1,[2 " ?_).2 ?_
  · show (Literal.parse? "1,[2".toList).bind _ = none
    rw [hopen]
    rfl
  · show (Literal.parse? "[1,[2]".toList).bind _ = none
    rw [hclosed]
    rfl

end ProofToolchain.CommandLine
