import Mathlib.Data.List.DropRight
import ProofToolchain.Text.Blank

/-!
# The words of a line and the lines of a text

The words of a text do not depend on the blanks around it (`words_trim`), and a word that blanks
follow is the first one, whatever comes after (`words_append_of_isWord`). The first line of a text
is what stands before its first line feed (`lines_append`), so the lines of a text are the ones that
a grammar of line ends gives it (`lined_iff`). The carriage return that may be dropped from the end
of a line is a blank, so it changes no word (`words_dropReturn`).
-/

namespace ProofToolchain.Text

/-- Blanks in a row, or none. -/
def IsGap (gap : List Char) : Prop :=
  ∀ c ∈ gap, isBlank c = true

/-- A word: at least one character and none of them a blank. -/
def IsWord (word : List Char) : Prop :=
  word ≠ [] ∧ ∀ c ∈ word, isBlank c = false

-- the characters of the text are gone through, not all there are
instance : DecidablePred IsGap :=
  List.decidableBAll (isBlank · = true)

instance : DecidablePred IsWord := fun word =>
  haveI := List.decidableBAll (isBlank · = false) word
  inferInstanceAs (Decidable (word ≠ [] ∧ ∀ c ∈ word, isBlank c = false))

variable {gap word : List Char}

/-! ## Words -/

/-- A blank ends the words before it. -/
theorem words_append_blank {c : Char} (h : isBlank c = true) (a b : List Char) :
    words (a ++ c :: b) = words a ++ words b := by
  unfold words
  rw [split_append_sep h, List.filter_append]

theorem words_cons_blank {c : Char} (h : isBlank c = true) (cs : List Char) :
    words (c :: cs) = words cs :=
  words_append_blank h [] cs

/-- Blanks before a text change none of its words. -/
theorem words_gap_append (hgap : IsGap gap) (cs : List Char) : words (gap ++ cs) = words cs := by
  induction gap with
  | nil => rfl
  | cons c gap ih =>
    rw [List.cons_append, words_cons_blank (hgap c (by simp))]
    exact ih fun d hd => hgap d (List.mem_cons_of_mem c hd)

@[simp] theorem words_of_isGap (hgap : IsGap gap) : words gap = [] := by
  rw [← List.append_nil gap, words_gap_append hgap]
  rfl

/-- Blanks after a text change none of its words. -/
theorem words_append_gap (hgap : IsGap gap) (cs : List Char) : words (cs ++ gap) = words cs := by
  cases gap with
  | nil => rw [List.append_nil]
  | cons c gap =>
    have hrest : IsGap gap := fun d hd => hgap d (List.mem_cons_of_mem c hd)
    rw [words_append_blank (hgap c (by simp)), words_of_isGap hrest, List.append_nil]

/-- A word is the only word of its own text. -/
@[simp] theorem words_of_isWord (hword : IsWord word) : words word = [word] := by
  unfold words
  rw [split_of_forall_neg hword.2]
  simp [hword.1]

/-- A word that blanks follow is the first word. -/
theorem words_append_of_isWord (hword : IsWord word) (hgap : IsGap gap) (hne : gap ≠ [])
    (cs : List Char) : words (word ++ (gap ++ cs)) = word :: words cs := by
  obtain ⟨c, gap, rfl⟩ := List.exists_cons_of_ne_nil hne
  have hrest : IsGap gap := fun d hd => hgap d (List.mem_cons_of_mem c hd)
  rw [List.cons_append, words_append_blank (hgap c (by simp)), words_of_isWord hword,
    words_gap_append hrest]
  rfl

/-- Only blanks have no words. -/
theorem words_eq_nil_iff {cs : List Char} : words cs = [] ↔ IsGap cs := by
  refine ⟨fun h => ?_, words_of_isGap⟩
  induction cs with
  | nil => simp [IsGap]
  | cons c cs ih =>
    cases hc : isBlank c with
    | true =>
      rw [words_cons_blank hc] at h
      exact List.forall_mem_cons.2 ⟨hc, ih h⟩
    | false =>
      -- a character that is no blank stands in the first piece, which then is not left out
      obtain ⟨w, ws, hw⟩ := List.exists_cons_of_ne_nil (split_ne_nil isBlank cs)
      unfold words at h
      rw [split_cons_of_neg hc hw] at h
      simp at h

/-- A text is its trimmed text with blanks around it. -/
theorem exists_eq_append_trim (cs : List Char) :
    ∃ before after, IsGap before ∧ IsGap after ∧ cs = before ++ (trim cs ++ after) := by
  refine ⟨cs.takeWhile isBlank, (cs.dropWhile isBlank).rtakeWhile isBlank,
    fun c => List.mem_takeWhile_imp, fun c => List.mem_rtakeWhile_imp, ?_⟩
  show cs = _ ++ ((cs.dropWhile isBlank).rdropWhile isBlank ++ _)
  rw [List.rdropWhile_append_rtakeWhile, List.takeWhile_append_dropWhile]

@[simp] theorem words_trim (cs : List Char) : words (trim cs) = words cs := by
  obtain ⟨before, after, hbefore, hafter, hcs⟩ := exists_eq_append_trim cs
  conv_rhs => rw [hcs, words_gap_append hbefore, words_append_gap hafter]

/-- Nothing is left of a text exactly if it has no words. -/
theorem trim_eq_nil_iff {cs : List Char} : trim cs = [] ↔ words cs = [] := by
  constructor
  · intro h
    rw [← words_trim, h]
    rfl
  · intro h
    have hblank : cs.dropWhile isBlank = [] := List.dropWhile_eq_nil_iff.2 (words_eq_nil_iff.1 h)
    unfold trim
    rw [hblank]
    rfl

/-! ## Trimming -/

/-- A text that starts and ends with characters that are no blanks. -/
def IsTight (cs : List Char) : Prop :=
  (∃ c ∈ cs.head?, isBlank c = false) ∧ ∃ c ∈ cs.getLast?, isBlank c = false

/-- Blanks are taken off up to the first character that is none. -/
theorem dropWhile_gap_append (hgap : IsGap gap) {cs : List Char}
    (h : ∃ c ∈ cs.head?, isBlank c = false) : (gap ++ cs).dropWhile isBlank = cs := by
  obtain ⟨c, hc, hblank⟩ := h
  cases cs with
  | nil => cases hc
  | cons d cs =>
    cases hc
    rw [List.dropWhile_append_of_pos hgap]
    exact List.dropWhile_cons_of_neg (by simp [hblank])

/-- **Trimming takes off the blanks around a text**, and no more. -/
theorem trim_gap_append_gap {before after cs : List Char} (hbefore : IsGap before)
    (hafter : IsGap after) (h : IsTight cs) : trim (before ++ cs ++ after) = cs := by
  have hreverse : IsGap after.reverse := fun c hc => hafter c (List.mem_reverse.1 hc)
  have hhead : ∃ c ∈ (cs ++ after).head?, isBlank c = false := by
    obtain ⟨c, hc, hblank⟩ := h.1
    exact ⟨c, List.mem_head?_append_of_mem_head? hc, hblank⟩
  have hlast : ∃ c ∈ cs.reverse.head?, isBlank c = false := by
    rw [List.head?_reverse]
    exact h.2
  unfold trim
  rw [List.append_assoc, dropWhile_gap_append hbefore hhead, List.reverse_append,
    dropWhile_gap_append hreverse hlast, List.reverse_reverse]

/-- Tight texts are a tight text when they are put together with commas. -/
theorem isTight_join {sep : List Char} {texts : List (List Char)} (hne : texts ≠ [])
    (h : ∀ text ∈ texts, IsTight text) : IsTight (join sep texts) := by
  induction texts with
  | nil => exact absurd rfl hne
  | cons text texts ih =>
    obtain ⟨htext, hrest⟩ := List.forall_mem_cons.1 h
    cases texts with
    | nil => exact htext
    | cons next texts =>
      obtain ⟨-, c, hc, hblank⟩ := ih (List.cons_ne_nil _ _) hrest
      obtain ⟨⟨d, hd, hblank'⟩, -⟩ := htext
      refine ⟨⟨d, ?_, hblank'⟩, c, ?_, hblank⟩
      · show d ∈ (text ++ sep ++ join sep (next :: texts)).head?
        rw [List.append_assoc]
        exact List.mem_head?_append_of_mem_head? hd
      · exact List.mem_getLast?_append_of_mem_getLast? hc

/-! ## Lines -/

/-- **The first line** of a text is what stands before its first line feed. -/
theorem lines_append {line : List Char} (h : '\n' ∉ line) (rest : List Char) :
    lines (line ++ '\n' :: rest) = dropReturn line :: lines rest := by
  have hpieces : split (· == '\n') (line ++ '\n' :: rest) = line :: split (· == '\n') rest := by
    rw [split_append_sep (by rfl), split_of_forall_neg fun c hc => ?_]
    · rfl
    · exact beq_false_of_ne fun heq => h (heq ▸ hc)
  obtain ⟨p, ps, hps⟩ := List.exists_cons_of_ne_nil (split_ne_nil (· == '\n') rest)
  unfold lines
  rw [hpieces, hps]
  -- the last piece of the text is the last one of the rest, which has one
  dsimp only
  rw [List.getLast?_cons_cons, List.dropLast_cons_cons, List.map_cons]
  split <;> rfl

/-- A text without a line feed is a line, unless it is empty. -/
theorem lines_of_not_mem {line : List Char} (h : '\n' ∉ line) :
    lines line = if line = [] then [] else [line] := by
  have hpieces : split (· == '\n') line = [line] :=
    split_of_forall_neg fun c hc => beq_false_of_ne fun heq => h (heq ▸ hc)
  unfold lines
  rw [hpieces]
  cases line <;> rfl

/-- A line that a carriage return ends is the line without it. -/
theorem dropReturn_concat (line : List Char) : dropReturn (line ++ ['\r']) = line := by
  simp [dropReturn]

/-- **A text and its lines.** A line is ended by a line feed, or by a carriage return and a line
feed. What nothing ends is a line too, unless it is empty, and keeps its carriage returns. -/
inductive Lined : List Char → List (List Char) → Prop
  | nil : Lined [] []
  | unended {line : List Char} : line ≠ [] → '\n' ∉ line → Lined line [line]
  | lineFeed {line rest : List Char} {ls : List (List Char)} : '\n' ∉ line →
      line.getLast? ≠ some '\r' → Lined rest ls → Lined (line ++ '\n' :: rest) (line :: ls)
  | returnLineFeed {line rest : List Char} {ls : List (List Char)} : '\n' ∉ line →
      Lined rest ls → Lined (line ++ '\r' :: '\n' :: rest) (line :: ls)

/-- Every text has lines. -/
theorem lined_lines (cs : List Char) : Lined cs (lines cs) := by
  by_cases h : '\n' ∈ cs
  · -- the text is taken apart at its first line feed, and the rest is shorter
    obtain ⟨line, rest, hcs, hline⟩ := List.eq_append_cons_of_mem h
    have hshorter : rest.length < cs.length := by
      rw [hcs, List.length_append, List.length_cons]
      omega
    have hrest := lined_lines rest
    rw [hcs, lines_append hline]
    by_cases hreturn : line.getLast? = some '\r'
    · obtain ⟨line, rfl⟩ := List.getLast?_eq_some_iff.1 hreturn
      rw [dropReturn_concat, List.append_assoc]
      exact .returnLineFeed (fun hmem => hline (List.mem_append_left _ hmem)) hrest
    · rw [dropReturn, if_neg hreturn]
      exact .lineFeed hline hreturn hrest
  · rw [lines_of_not_mem h]
    split
    · next hnil =>
      subst hnil
      exact .nil
    · next hne => exact .unended hne h
termination_by cs.length

/-- **The lines of a text are the only ones it has.** -/
theorem lined_iff {cs : List Char} {ls : List (List Char)} : Lined cs ls ↔ lines cs = ls := by
  refine ⟨fun h => ?_, fun h => h ▸ lined_lines cs⟩
  induction h with
  | nil => rfl
  | unended hne hline => rw [lines_of_not_mem hline, if_neg hne]
  | lineFeed hline hlast _ ih => rw [lines_append hline, dropReturn, if_neg hlast, ih]
  | @returnLineFeed line rest ls hline _ ih =>
    have hreturn : '\n' ∉ line ++ ['\r'] := by simpa using hline
    have hlines := lines_append hreturn rest
    rw [dropReturn_concat, ih, List.append_assoc] at hlines
    exact hlines

/-- The carriage return at the end of a line is a blank. -/
@[simp] theorem words_dropReturn (line : List Char) : words (dropReturn line) = words line := by
  unfold dropReturn
  by_cases h : line.getLast? = some '\r'
  · have hreturn : IsGap ['\r'] := by decide
    rw [if_pos h]
    conv_rhs => rw [← List.dropLast_append_getLast? '\r' h, words_append_gap hreturn]
  · rw [if_neg h]

end ProofToolchain.Text
