import ProofToolchain.Text.Blank

/-!
# Words that occur in a text

Output is searched for a word (`contains`), and that finds the word exactly where it stands as a run
of consecutive characters. Such a run cannot begin in characters that the word does not have
(`infix_append_of_disjoint`), and cannot go across one of them (`infix_append_cons_iff`). So texts
put together with a foreign character between them hold the word only if one of them does, and each
of its places lies in one of them (`place_of_append_cons`).
-/

namespace ProofToolchain.Text

/-- **What the search finds**: runs of consecutive characters. -/
theorem contains_iff (word cs : List Char) : contains word cs = true ↔ word <:+: cs := by
  induction cs with
  | nil =>
    show word.isEmpty = true ↔ _
    rw [List.isEmpty_iff, List.infix_nil]
  | cons c cs ih =>
    rw [contains, Bool.or_eq_true, List.isPrefixOf_iff_prefix, ih, List.infix_cons_iff]

section Runs

variable {α : Type} {word : List α}

/-- A run does not begin in elements that it does not have. -/
theorem infix_append_of_disjoint {before : List α} (hword : word ≠ [])
    (h : ∀ a ∈ before, a ∉ word) (rest : List α) :
    word <:+: before ++ rest ↔ word <:+: rest := by
  induction before with
  | nil => rfl
  | cons a before ih =>
    obtain ⟨b, tail, rfl⟩ := List.exists_cons_of_ne_nil hword
    have hab : b ≠ a := fun hab => h a List.mem_cons_self (hab ▸ List.mem_cons_self)
    rw [List.cons_append, List.infix_cons_iff, List.cons_prefix_cons,
      ih fun c hc => h c (List.mem_cons_of_mem a hc)]
    exact or_iff_right fun hrun => hab hrun.1

/-- A run that starts a list ends before an element that it does not have. -/
theorem prefix_append_cons_iff {a : α} (ha : a ∉ word) (before after : List α) :
    word <+: before ++ a :: after ↔ word <+: before := by
  refine ⟨fun h => ?_, fun h => h.trans (List.prefix_append before _)⟩
  induction before generalizing word with
  | nil =>
    cases word with
    | nil => exact List.nil_prefix
    | cons b tail => exact absurd (List.cons_prefix_cons.1 h).1.symm (List.ne_of_not_mem_cons ha)
  | cons c before ih =>
    cases word with
    | nil => exact List.nil_prefix
    | cons b tail =>
      obtain ⟨rfl, htail⟩ := List.cons_prefix_cons.1 h
      exact List.cons_prefix_cons.2 ⟨rfl, ih (fun hmem => ha (List.mem_cons_of_mem b hmem)) htail⟩

/-- **A run does not go across an element that it does not have.** -/
theorem infix_append_cons_iff {a : α} (hword : word ≠ []) (ha : a ∉ word)
    (before after : List α) :
    word <:+: before ++ a :: after ↔ word <:+: before ∨ word <:+: after := by
  induction before with
  | nil =>
    have hnil : ¬ word <:+: [] := fun h => hword (List.infix_nil.1 h)
    have hfirst : ∀ b ∈ [a], b ∉ word := fun b hb => List.mem_singleton.1 hb ▸ ha
    rw [or_iff_right hnil]
    exact infix_append_of_disjoint hword hfirst after
  | cons b before ih =>
    rw [List.cons_append, List.infix_cons_iff, ← List.cons_append, prefix_append_cons_iff ha, ih,
      List.infix_cons_iff, or_assoc]

/-- **A place of a run lies on one side** of an element that it does not have: it is a place in what
comes before that element, or in what comes after it. -/
theorem place_of_append_cons {a : α} (ha : a ∉ word) {first second before after : List α}
    (h : first ++ a :: second = before ++ word ++ after) :
    (∃ rest, first = before ++ word ++ rest ∧ after = rest ++ a :: second)
      ∨ ∃ start, before = first ++ a :: start ∧ second = start ++ word ++ after := by
  rcases List.append_eq_append_iff.1 h with ⟨tail, hfirst, htail⟩ | ⟨rest, hfirst, hafter⟩
  · cases tail with
    | nil => exact .inl ⟨[], by simpa using hfirst.symm, htail.symm⟩
    | cons b tail =>
      -- the element stands before the end of the run, so it stands before the run
      obtain ⟨rfl, hsecond⟩ := List.cons.inj htail
      rcases List.append_eq_append_iff.1 hfirst with ⟨start, rfl, hword⟩ | ⟨start, rfl, hstart⟩
      · exact absurd (hword ▸ List.mem_append_right start List.mem_cons_self) ha
      · cases start with
        | nil =>
          have hword : a :: tail = word := hstart
          exact absurd (hword ▸ List.mem_cons_self) ha
        | cons c start =>
          obtain ⟨rfl, htail⟩ := List.cons.inj hstart
          exact .inr ⟨start, rfl, hsecond.trans (congrArg (· ++ after) htail)⟩
  · exact .inl ⟨rest, hfirst, hafter⟩

end Runs

/-- **Texts with a foreign character between them** hold a word exactly if one of them does. -/
theorem contains_append_cons {word : List Char} {c : Char} (hword : word ≠ []) (hc : c ∉ word)
    (before after : List Char) :
    contains word (before ++ c :: after) = (contains word before || contains word after) := by
  rw [Bool.eq_iff_iff, Bool.or_eq_true, contains_iff, contains_iff, contains_iff,
    infix_append_cons_iff hword hc]

end ProofToolchain.Text
