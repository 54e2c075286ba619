import ProofToolchain.CommandLine.Answers
import ProofToolchain.Proofs.Text.Occurrence

/-!
# The two streams of a verification

The tool answers a verification on two streams, and the answer is looked for in one text: what was
printed, a line feed, and what was complained of (`searched`). A word that stands across the joint
would be an answer that neither stream gives. There is none, since no word that is looked for has a
line feed, so a word is found exactly if one of the streams says it (`IsSaid`).

What follows needs no text any more. The outcome is a function of which words are said
(`verdict`), the streams may be exchanged, and more output never takes an acceptance back
(`verificationOutcome_byStream`).
-/

namespace ProofToolchain.CommandLine

/-- **The text that is searched** for an answer. -/
def searched (stdout stderr : String) : List Char :=
  stdout.toList ++ '\n' :: stderr.toList

/-- **A word is said** if one of the streams holds it. -/
def IsSaid (word : List Char) (stdout stderr : String) : Prop :=
  word <:+: stdout.toList ∨ word <:+: stderr.toList

/-- **The outcome that two words decide**, the first of which counts before the second. -/
def verdict (passed failed : Bool) : Option Bool :=
  if passed then some true else if failed then some false else none

/-- An acceptance is what the first word decides. -/
theorem verdict_eq_true_iff : ∀ {passed failed : Bool},
    verdict passed failed = some true ↔ passed = true := by
  decide

/-- A rejection is what the second word decides, where the first is not said. -/
theorem verdict_eq_false_iff : ∀ {passed failed : Bool},
    verdict passed failed = some false ↔ ¬ passed = true ∧ failed = true := by
  decide

theorem verdict_eq_none_iff : ∀ {passed failed : Bool},
    verdict passed failed = none ↔ ¬ passed = true ∧ ¬ failed = true := by
  decide

variable {stdout stderr : String} {word : List Char}

/-! ## Words -/

/-- **What is found in the text that is searched** is found in one of the streams. -/
theorem contains_searched (hword : word ≠ []) (hline : '\n' ∉ word) (stdout stderr : String) :
    Text.contains word (searched stdout stderr)
      = (Text.contains word stdout.toList || Text.contains word stderr.toList) :=
  Text.contains_append_cons hword hline stdout.toList stderr.toList

theorem contains_or_contains_iff :
    (Text.contains word stdout.toList || Text.contains word stderr.toList) = true
      ↔ IsSaid word stdout stderr := by
  rw [Bool.or_eq_true, Text.contains_iff, Text.contains_iff, IsSaid]

/-- More text before and after a stream takes no word away. -/
theorem infix_toList_append {text : String} (h : word <:+: text.toList) (before after : String) :
    word <:+: (before ++ text ++ after).toList := by
  rw [String.toList_append, String.toList_append]
  exact h.trans (List.infix_append before.toList text.toList after.toList)

/-! ## Outcomes -/

/-- **The outcome is decided by which words are said**, stream by stream. -/
theorem verificationOutcome_eq_verdict (stdout stderr : String) :
    verificationOutcome stdout stderr
      = verdict (Text.contains passedWord stdout.toList || Text.contains passedWord stderr.toList)
          (Text.contains failedWord stdout.toList || Text.contains failedWord stderr.toList) := by
  rw [← contains_searched (by decide) (by decide), ← contains_searched (by decide) (by decide)]
  rfl

theorem verificationOutcome_eq_true_iff :
    verificationOutcome stdout stderr = some true ↔ IsSaid passedWord stdout stderr := by
  rw [verificationOutcome_eq_verdict, verdict_eq_true_iff, contains_or_contains_iff]

theorem verificationOutcome_eq_false_iff :
    verificationOutcome stdout stderr = some false
      ↔ ¬ IsSaid passedWord stdout stderr ∧ IsSaid failedWord stdout stderr := by
  rw [verificationOutcome_eq_verdict, verdict_eq_false_iff, contains_or_contains_iff,
    contains_or_contains_iff]

theorem verificationOutcome_eq_none_iff :
    verificationOutcome stdout stderr = none
      ↔ ¬ IsSaid passedWord stdout stderr ∧ ¬ IsSaid failedWord stdout stderr := by
  rw [verificationOutcome_eq_verdict, verdict_eq_none_iff, contains_or_contains_iff,
    contains_or_contains_iff]

/-- **The streams may be exchanged.** -/
theorem verificationOutcome_swap (stdout stderr : String) :
    verificationOutcome stderr stdout = verificationOutcome stdout stderr := by
  rw [verificationOutcome_eq_verdict, verificationOutcome_eq_verdict,
    Bool.or_comm (Text.contains passedWord stderr.toList),
    Bool.or_comm (Text.contains failedWord stderr.toList)]

/-- **More output never takes an acceptance back**, on whichever stream it comes. -/
theorem verificationOutcome_append (h : verificationOutcome stdout stderr = some true)
    (before after : String) :
    verificationOutcome (before ++ stdout ++ after) stderr = some true
      ∧ verificationOutcome stdout (before ++ stderr ++ after) = some true := by
  simp only [verificationOutcome_eq_true_iff] at h ⊢
  rcases h with hout | herr
  · exact ⟨.inl (infix_toList_append hout before after), .inl hout⟩
  · exact ⟨.inr herr, .inr (infix_toList_append herr before after)⟩

/-- **A place in the text that is searched lies in one stream**: what stands between `before` and
`after` is in what was printed, or in what was complained of. -/
def LiesInOne (stdout stderr : String) (before word after : List Char) : Prop :=
  (∃ rest, stdout.toList = before ++ word ++ rest ∧ after = rest ++ '\n' :: stderr.toList)
    ∨ ∃ start, before = stdout.toList ++ '\n' :: start ∧ stderr.toList = start ++ word ++ after

/-- **A verification is decided stream by stream.** -/
structure IsDecidedByStream (stdout stderr : String) : Prop where
  /-- A proof is accepted if a stream says so. -/
  accepted : verificationOutcome stdout stderr = some true ↔ IsSaid passedWord stdout stderr
  /-- It is rejected if no stream says that and one of them says that it is. -/
  rejected : verificationOutcome stdout stderr = some false
    ↔ ¬ IsSaid passedWord stdout stderr ∧ IsSaid failedWord stdout stderr
  /-- It is undecided if neither word is said. -/
  undecided : verificationOutcome stdout stderr = none
    ↔ ¬ IsSaid passedWord stdout stderr ∧ ¬ IsSaid failedWord stdout stderr
  /-- No word stands across the joint. -/
  placed : ∀ word ∈ [passedWord, failedWord], ∀ before after,
    searched stdout stderr = before ++ word ++ after → LiesInOne stdout stderr before word after
  /-- Which stream is which does not matter. -/
  swapped : verificationOutcome stderr stdout = verificationOutcome stdout stderr
  /-- An acceptance outlasts whatever else is said. -/
  lasting : ∀ before after, verificationOutcome stdout stderr = some true →
    verificationOutcome (before ++ stdout ++ after) stderr = some true
      ∧ verificationOutcome stdout (before ++ stderr ++ after) = some true

/-- **Every verification is decided stream by stream**, whatever the tool says on them. -/
theorem verificationOutcome_byStream (stdout stderr : String) :
    IsDecidedByStream stdout stderr where
  accepted := verificationOutcome_eq_true_iff
  rejected := verificationOutcome_eq_false_iff
  undecided := verificationOutcome_eq_none_iff
  placed word hword before after h := by
    have hlines : ∀ word ∈ [passedWord, failedWord], '\n' ∉ word := by decide
    exact Text.place_of_append_cons (hlines word hword) h
  swapped := verificationOutcome_swap stdout stderr
  lasting before after h := verificationOutcome_append h before after

/-- **A word in two halves** on two streams is not said: the proof counts as rejected. With the word
on one stream it is accepted, and stays so when the other word comes before and after it. -/
theorem verificationOutcome_byStream_splitWord :
    verificationOutcome "PASS" "ED FAILED" = some false
      ∧ verificationOutcome "FAILED PASSED FAILED" "FAILED" = some true
      ∧ verificationOutcome "FAILED" "FAILED PASSED FAILED" = some true := by
  have hsaid : IsSaid passedWord "PASSED" "FAILED" := .inl (List.infix_refl _)
  have hsplit := verificationOutcome_byStream "PASS" "ED FAILED"
  have hwhole := verificationOutcome_byStream "PASSED" "FAILED"
  have hlasting := (hwhole.lasting "FAILED " " FAILED" (hwhole.accepted.2 hsaid)).1
  refine ⟨hsplit.rejected.2 ⟨?_, ?_⟩, hlasting, ?_⟩
  · rw [← contains_or_contains_iff]
    decide
  · rw [← contains_or_contains_iff]
    decide
  · exact (verificationOutcome_byStream _ _).swapped.trans hlasting

end ProofToolchain.CommandLine
