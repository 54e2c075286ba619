import Mathlib
import ProofToolchain.Proofs.Import.Grammar

/-!
# Comments and imports

A comment is to be no more than a blank, so a text should have the same imports when its comments
are overwritten with as many spaces (`blankComments`). The new text is cut as the old one was, with
the spaces in the places of the comments (`Tokenizes.blanked`), and so its imports are those that
the rule gives when it looks past comments too (`scan_blankComments_eq`).

The scanner does not look past them. It loses no import and finds none that is not there, but it
misses those that have a comment between the keyword and the literal, and no others.
-/

namespace ProofToolchain.Import

/-! ## Overwriting comments -/

namespace Token

/-- A comment. -/
def isComment : Token → Bool
  | line _ => true
  | block _ _ => true
  | _ => false

/-- A blank or a comment. -/
def isSpacing (t : Token) : Bool :=
  t.isBlank || t.isComment

/-- A token, or as many spaces as a comment has bytes. -/
def blanked (t : Token) : List Token :=
  if t.isComment then List.replicate (byteSize t.text) (.other ' ') else [t]

/-- What is looked past is no keyword. -/
theorem isKeyword_of_isSpacing {t : Token} (h : t.isSpacing = true) : t.isKeyword = false := by
  cases t with
  | word text => cases h
  | _ => rfl

/-- A comment takes some space. -/
theorem byteSize_text_of_isComment {t : Token} (h : t.isComment = true) :
    0 < byteSize t.text := by
  have hslash : 0 < '/'.utf8Size := Char.utf8Size_pos '/'
  cases t with
  | line body => exact Nat.add_pos_left hslash _
  | block body closed => exact Nat.add_pos_left hslash _
  | _ => cases h

/-- The text of an overwritten comment. -/
theorem flatMap_text_blanked {t : Token} (h : t.isComment = true) :
    t.blanked.flatMap text = List.replicate (byteSize t.text) ' ' := by
  rw [blanked, if_pos h, List.flatMap_replicate]
  simp [text]

/-- All else stays. -/
theorem blanked_of_not_isComment {t : Token} (h : t.isComment = false) : t.blanked = [t] :=
  if_neg (by simp [h])

end Token

/-- **A text with its comments overwritten**: each byte of a comment is a space, and all else is as
it was. -/
def blankComments (source : String) : String :=
  String.ofList (((tokens source.toList).flatMap Token.blanked).flatMap Token.text)

/-! ## The new text is cut as the old one -/

/-- A space is a token before any text. -/
theorem Tokenizes.spaces {cs : List Char} {ts : List Token} (h : Tokenizes cs ts) (n : Nat) :
    Tokenizes (List.replicate n ' ' ++ cs) (List.replicate n (.other ' ') ++ ts) := by
  induction n with
  | zero => exact h
  | succ n ih =>
    have hlexeme : (Token.other ' ').IsLexeme := ⟨by decide, by decide⟩
    exact .cons hlexeme (fun hslash => absurd hslash (by decide)) ih

/-- The first character stays unless a comment starts there. -/
theorem head?_blanked {cs : List Char} {ts : List Token} (h : Tokenizes cs ts) :
    ((ts.flatMap Token.blanked).flatMap Token.text).head? = cs.head?
      ∨ cs ≠ [] ∧ ((ts.flatMap Token.blanked).flatMap Token.text).head? = some ' ' := by
  cases h with
  | nil => exact .inl rfl
  | @cons t rest ts hlexeme _ _ =>
    obtain ⟨c, cs, htext⟩ := List.exists_cons_of_ne_nil hlexeme.text_ne_nil
    rw [List.flatMap_cons, List.flatMap_append]
    cases hcomment : t.isComment with
    | true =>
      obtain ⟨n, hn⟩ := Nat.exists_eq_succ_of_ne_zero
        (Nat.ne_of_gt (Token.byteSize_text_of_isComment hcomment))
      rw [Token.flatMap_text_blanked hcomment, hn]
      exact .inr ⟨by simp [htext], rfl⟩
    | false =>
      rw [Token.blanked_of_not_isComment hcomment, List.flatMap_singleton, htext]
      exact .inl rfl

/-- Where a token ends, it also ends if what follows starts with a space instead. -/
theorem Token.StopsBefore.of_head? {t : Token} {rest rest' : List Char} (h : t.StopsBefore rest)
    (hcomment : t.isComment = false)
    (hhead : rest'.head? = rest.head? ∨ rest ≠ [] ∧ rest'.head? = some ' ') :
    t.StopsBefore rest' := by
  have hmem : ∀ c ∈ rest'.head?, c ∈ rest.head? ∨ c = ' ' := by
    intro c hc
    rcases hhead with hhead | ⟨-, hhead⟩
    · exact .inl (hhead ▸ hc)
    · exact .inr (Option.some.inj (hhead.symm.trans hc)).symm
  cases t with
  | line body => cases hcomment
  | block body closed => cases hcomment
  | literal body closed =>
    intro hclosed
    rcases hhead with hhead | ⟨hne, -⟩
    · rwa [h hclosed, List.head?_nil, List.head?_eq_none_iff] at hhead
    · exact absurd (h hclosed) hne
  | word text =>
    intro c hc
    rcases hmem c hc with hc | rfl
    · exact h c hc
    · decide
  | other d =>
    intro hd c hc
    rcases hmem c hc with hc | rfl
    · exact h hd c hc
    · decide

/-- **The new text is cut into the same tokens**, with spaces in the places of the comments. -/
theorem Tokenizes.blanked {cs : List Char} {ts : List Token} (h : Tokenizes cs ts) :
    Tokenizes ((ts.flatMap Token.blanked).flatMap Token.text) (ts.flatMap Token.blanked) := by
  induction h with
  | nil => exact .nil
  | @cons t rest ts hlexeme hstop hts ih =>
    rw [List.flatMap_cons, List.flatMap_append]
    cases hcomment : t.isComment with
    | true =>
      rw [Token.flatMap_text_blanked hcomment, Token.blanked, if_pos hcomment]
      exact ih.spaces _
    | false =>
      rw [Token.blanked_of_not_isComment hcomment, List.flatMap_singleton]
      exact .cons hlexeme (hstop.of_head? hcomment (head?_blanked hts)) ih

/-! ## What is found there -/

/-- Tokens that are looked past change nothing. -/
theorem isAfterKeyword_append_of_forall {skips : Token → Bool} {gap : List Token}
    (h : ∀ t ∈ gap, skips t = true) (before : List Token) :
    isAfterKeyword skips (before ++ gap) = isAfterKeyword skips before := by
  induction gap using List.reverseRecOn with
  | nil => rw [List.append_nil]
  | append_singleton gap t ih =>
    rw [← List.append_assoc, isAfterKeyword_append_singleton, if_pos (h t (by simp)),
      ih fun u hu => h u (by simp [hu])]

/-- Overwriting comments keeps the size of a text. -/
theorem byteSize_blanked (ts : List Token) :
    byteSize ((ts.flatMap Token.blanked).flatMap Token.text)
      = byteSize (ts.flatMap Token.text) := by
  have hspaces : ∀ n, byteSize (List.replicate n ' ') = n := by
    intro n
    induction n with
    | zero => rfl
    | succ n ih =>
      have hspace : ' '.utf8Size = 1 := by decide
      rw [List.replicate_succ, byteSize, ih, hspace, Nat.add_comm]
  induction ts with
  | nil => rfl
  | cons t ts ih =>
    rw [List.flatMap_cons, List.flatMap_append, byteSize_append, List.flatMap_cons,
      byteSize_append, ih]
    cases hcomment : t.isComment with
    | true => rw [Token.flatMap_text_blanked hcomment, hspaces]
    | false => rw [Token.blanked_of_not_isComment hcomment, List.flatMap_singleton]

/-- The spaces of a comment are looked past as the comment was to be. -/
theorem isAfterKeyword_blanked (before : List Token) :
    isAfterKeyword Token.isBlank (before.flatMap Token.blanked)
      = isAfterKeyword Token.isSpacing before := by
  induction before using List.reverseRecOn with
  | nil => rfl
  | append_singleton before t ih =>
    rw [List.flatMap_append, List.flatMap_singleton, isAfterKeyword_append_singleton, ← ih]
    cases hcomment : t.isComment with
    | true =>
      have hspaces : ∀ u ∈ t.blanked, u.isBlank = true := by
        intro u hu
        rw [Token.blanked, if_pos hcomment] at hu
        rw [List.eq_of_mem_replicate hu]
        decide
      rw [isAfterKeyword_append_of_forall hspaces, if_pos (by simp [Token.isSpacing, hcomment])]
    | false =>
      rw [Token.blanked_of_not_isComment hcomment, isAfterKeyword_append_singleton]
      simp [Token.isSpacing, hcomment]

/-- What a token is after some tokens, it is after those with their comments overwritten, if
comments are looked past. -/
theorem importAt?_blanked (before : List Token) (t : Token) :
    importAt? Token.isBlank (before.flatMap Token.blanked) t
      = importAt? Token.isSpacing before t := by
  unfold importAt?
  rw [isAfterKeyword_blanked, byteSize_blanked]

/-- There are no imports among spaces. -/
theorem importsFrom_spaces (skips : Token → Bool) (before ts : List Token) (n : Nat) :
    importsFrom skips before (List.replicate n (.other ' ') ++ ts)
      = importsFrom skips (before ++ List.replicate n (.other ' ')) ts := by
  induction n generalizing before with
  | zero => simp
  | succ n ih =>
    have hspace : importAt? skips before (.other ' ') = none := by simp [importAt?, Token.path?]
    rw [List.replicate_succ, List.cons_append, importsFrom, hspace, ih, List.append_assoc]
    rfl

/-- A comment holds no path. -/
theorem importAt?_of_isComment (skips : Token → Bool) (before : List Token) {t : Token}
    (h : t.isComment = true) : importAt? skips before t = none := by
  have hpath : t.path? = none := by
    cases t with
    | literal body closed => cases h
    | _ => rfl
  simp [importAt?, hpath]

/-- The imports among tokens with overwritten comments are those that are found when comments are
looked past. -/
theorem importsFrom_blanked (before ts : List Token) :
    importsFrom Token.isBlank (before.flatMap Token.blanked) (ts.flatMap Token.blanked)
      = importsFrom Token.isSpacing before ts := by
  induction ts generalizing before with
  | nil => rfl
  | cons t ts ih =>
    have hbefore : (before ++ [t]).flatMap Token.blanked
        = before.flatMap Token.blanked ++ t.blanked := by simp
    have hrest := ih (before ++ [t])
    rw [hbefore] at hrest
    rw [List.flatMap_cons, importsFrom, ← hrest]
    cases hcomment : t.isComment with
    | true =>
      rw [importAt?_of_isComment _ _ hcomment, Token.blanked, if_pos hcomment, importsFrom_spaces]
      rfl
    | false =>
      rw [Token.blanked_of_not_isComment hcomment, List.singleton_append, importsFrom,
        importAt?_blanked]

/-- **The imports of a text with overwritten comments** are those of the text itself by the rule
that looks past comments. -/
theorem scan_blankComments_eq (source : String) :
    scan (blankComments source) = importsFrom Token.isSpacing [] (tokens source.toList) := by
  have hcut := (tokenizes_tokens source.toList).blanked
  rw [← importsFrom_blanked]
  exact scan_eq_of_tokenizes (by rwa [blankComments, String.toList_ofList])

/-! ## Which imports are missed -/

/-- A gap of blanks and comments with a comment in it does not end in a keyword. -/
theorem not_isAfterKeyword_of_isComment {gap : List Token}
    (hgap : ∀ t ∈ gap, t.isSpacing = true) (hcomment : ∃ t ∈ gap, t.isComment = true)
    (before : List Token) : isAfterKeyword Token.isBlank (before ++ gap) = false := by
  induction gap using List.reverseRecOn with
  | nil => simp at hcomment
  | append_singleton gap t ih =>
    have ht := hgap t (by simp)
    rw [← List.append_assoc, isAfterKeyword_append_singleton]
    cases hblank : t.isBlank with
    | false => simpa using Token.isKeyword_of_isSpacing ht
    | true =>
      obtain ⟨u, hu, hucomment⟩ := hcomment
      rcases List.mem_append.1 hu with hu | hu
      · exact ih (fun v hv => hgap v (by simp [hv])) ⟨u, hu, hucomment⟩
      · obtain rfl := List.mem_singleton.1 hu
        cases u <;> first | cases hblank | cases hucomment

/-- What comes after a keyword, those tokens aside that are looked past, has that keyword before
it. -/
theorem exists_of_isAfterKeyword {skips : Token → Bool} {before : List Token}
    (h : isAfterKeyword skips before = true) :
    ∃ init word gap, before = init ++ word :: gap ∧ word.isKeyword = true
      ∧ ∀ t ∈ gap, skips t = true := by
  induction before using List.reverseRecOn with
  | nil => cases h
  | append_singleton before t ih =>
    rw [isAfterKeyword_append_singleton] at h
    cases hskips : skips t with
    | false => exact ⟨before, t, [], rfl, by simpa [hskips] using h, by simp⟩
    | true =>
      obtain ⟨init, word, gap, rfl, hword, hgap⟩ := ih (by simpa [hskips] using h)
      refine ⟨init, word, gap ++ [t], by simp, hword, fun u hu => ?_⟩
      rcases List.mem_append.1 hu with hu | hu
      · exact hgap u hu
      · rwa [List.mem_singleton.1 hu]

/-- A keyword before tokens that are looked past is the last one. -/
theorem isAfterKeyword_of_keyword {skips : Token → Bool} {word : Token} {gap : List Token}
    (hword : word.isKeyword = true) (hskips : skips word = false)
    (hgap : ∀ t ∈ gap, skips t = true) (init : List Token) :
    isAfterKeyword skips (init ++ word :: gap) = true := by
  rw [← List.singleton_append, ← List.append_assoc, isAfterKeyword_append_of_forall hgap,
    isAfterKeyword_append_singleton, hskips]
  exact hword

/-- A keyword is neither a blank nor a comment. -/
theorem Token.isSpacing_of_isKeyword {t : Token} (h : t.isKeyword = true) :
    t.isSpacing = false := by
  cases hspacing : t.isSpacing with
  | false => rfl
  | true => rw [isKeyword_of_isSpacing hspacing] at h; cases h

/-- What comes after a keyword and blanks comes after it whether or not comments are looked
past. -/
theorem isAfterKeyword_isSpacing {before : List Token}
    (h : isAfterKeyword Token.isBlank before = true) :
    isAfterKeyword Token.isSpacing before = true := by
  obtain ⟨init, word, gap, rfl, hword, hgap⟩ := exists_of_isAfterKeyword h
  exact isAfterKeyword_of_keyword hword (Token.isSpacing_of_isKeyword hword)
    (fun t ht => by simp [Token.isSpacing, hgap t ht]) init

/-- **The tokens `before` hide an import**: they end with a keyword and, after it, blanks and
comments, at least one of these. -/
def Hides (before : List Token) : Prop :=
  ∃ init word gap, before = init ++ word :: gap ∧ word.isKeyword = true
    ∧ (∀ t ∈ gap, t.isSpacing = true) ∧ ∃ t ∈ gap, t.isComment = true

/-- Tokens hide an import if a keyword comes last when comments are looked past, and does not when
they are not. -/
theorem hides_iff {before : List Token} :
    Hides before ↔
      isAfterKeyword Token.isSpacing before = true
        ∧ isAfterKeyword Token.isBlank before = false := by
  constructor
  · rintro ⟨init, word, gap, rfl, hword, hgap, hcomment⟩
    refine ⟨isAfterKeyword_of_keyword hword (Token.isSpacing_of_isKeyword hword) hgap init, ?_⟩
    rw [← List.singleton_append, ← List.append_assoc]
    exact not_isAfterKeyword_of_isComment hgap hcomment _
  · rintro ⟨hafter, hnot⟩
    obtain ⟨init, word, gap, rfl, hword, hgap⟩ := exists_of_isAfterKeyword hafter
    refine ⟨init, word, gap, rfl, hword, hgap, ?_⟩
    by_contra hcomment
    -- without a comment the gap is blank, and the keyword comes last either way
    have hblank : ∀ t ∈ gap, t.isBlank = true := by
      intro t ht
      have hspacing := hgap t ht
      rcases Bool.or_eq_true_iff.1 hspacing with hblank | htcomment
      · exact hblank
      · exact absurd ⟨t, ht, htcomment⟩ hcomment
    have hspacing := Token.isSpacing_of_isKeyword hword
    have hword' : word.isBlank = false := (Bool.or_eq_false_iff.1 hspacing).1
    rw [isAfterKeyword_of_keyword hword hword' hblank init] at hnot
    cases hnot

/-- A token is the same import by both rules, unless it is a path that the tokens before it hide. -/
theorem importAt?_eq_iff (before : List Token) (t : Token) :
    importAt? Token.isBlank before t = importAt? Token.isSpacing before t
      ↔ ¬ (Hides before ∧ t.path?.isSome = true) := by
  rw [hides_iff]
  unfold importAt?
  cases hblank : isAfterKeyword Token.isBlank before with
  | true => simp [isAfterKeyword_isSpacing hblank]
  | false =>
    cases isAfterKeyword Token.isSpacing before with
    | false => simp
    | true => cases t.path? <;> simp

/-- No token is an import only if comments are not looked past. -/
theorem importAt?_sublist (before : List Token) (t : Token) :
    (importAt? Token.isBlank before t).toList.Sublist
      (importAt? Token.isSpacing before t).toList := by
  cases hblank : isAfterKeyword Token.isBlank before with
  | false => simp [importAt?, hblank]
  | true =>
    have heq : importAt? Token.isBlank before t = importAt? Token.isSpacing before t := by
      simp [importAt?, hblank, isAfterKeyword_isSpacing hblank]
    exact heq ▸ List.Sublist.refl _

/-- Nothing is found among tokens only if comments are not looked past. -/
theorem importsFrom_sublist (before ts : List Token) :
    (importsFrom Token.isBlank before ts).Sublist (importsFrom Token.isSpacing before ts) := by
  induction ts generalizing before with
  | nil => exact List.Sublist.refl []
  | cons t ts ih => exact (importAt?_sublist before t).append (ih (before ++ [t]))

/-- The same is found either way if it is so for each token. -/
theorem importsFrom_eq_iff (before ts : List Token) :
    importsFrom Token.isSpacing before ts = importsFrom Token.isBlank before ts
      ↔ ∀ init t rest, ts = init ++ t :: rest →
          importAt? Token.isBlank (before ++ init) t
            = importAt? Token.isSpacing (before ++ init) t := by
  induction ts generalizing before with
  | nil => simp [importsFrom]
  | cons u us ih =>
    constructor
    · intro h
      -- the parts are no longer by the one rule than by the other, so both are equally long
      have hhead := importAt?_sublist before u
      have htail := importsFrom_sublist (before ++ [u]) us
      have hlength := congrArg List.length h
      simp only [importsFrom, List.length_append] at hlength
      have hhead_le := hhead.length_le
      have htail_le := htail.length_le
      have hhead_eq := hhead.eq_of_length_le (by omega)
      have htail_eq := htail.eq_of_length_le (by omega)
      intro init t rest hts
      cases init with
      | nil =>
        obtain ⟨rfl, -⟩ := List.cons.inj hts
        rw [List.append_nil]
        simpa using congrArg List.head? hhead_eq
      | cons v init =>
        obtain ⟨rfl, hus⟩ := List.cons.inj hts
        have ht := (ih (before ++ [u])).1 htail_eq.symm init t rest hus
        rwa [List.append_assoc, List.singleton_append] at ht
    · intro h
      have hhead := h [] u us rfl
      rw [List.append_nil] at hhead
      have htail : importsFrom Token.isSpacing (before ++ [u]) us
          = importsFrom Token.isBlank (before ++ [u]) us := by
        refine (ih (before ++ [u])).2 fun init t rest hus => ?_
        have ht := h (u :: init) t rest (by rw [hus]; rfl)
        rwa [List.append_assoc, List.singleton_append]
      rw [importsFrom, importsFrom, hhead, htail]

/-- Overwriting the comments of a text leaves every byte in its place. -/
theorem utf8ByteSize_blankComments (source : String) :
    (blankComments source).utf8ByteSize = source.utf8ByteSize := by
  rw [← byteSize_toList, ← byteSize_toList, blankComments, String.toList_ofList, byteSize_blanked,
    (tokenizes_tokens source.toList).flatMap_text]

/-- **What comments do to the imports of a text.** Overwritten, which leaves the text as long as it
was, they are looked past: the new text has the imports of the old one by the rule that skips
comments as it skips blanks. Left as they are, they make no import and move none, so all those that
are found are among these, in the same places. But they hide some: the two agree if and only if no
literal follows a keyword with a comment, and nothing but blanks and comments, between the two. -/
theorem scan_blankComments (source : String) :
    (blankComments source).utf8ByteSize = source.utf8ByteSize
      ∧ scan (blankComments source) = importsFrom Token.isSpacing [] (tokens source.toList)
      ∧ (scan source).Sublist (scan (blankComments source))
      ∧ (scan (blankComments source) = scan source ↔
          ∀ before t after, tokens source.toList = before ++ t :: after →
            ¬ (Hides before ∧ t.path?.isSome = true)) := by
  have hold := scan_eq_of_tokenizes (tokenizes_tokens source.toList)
  have hnew := scan_blankComments_eq source
  refine ⟨utf8ByteSize_blankComments source, hnew, ?_, ?_⟩
  · rw [hold, hnew]
    exact importsFrom_sublist [] _
  · rw [hold, hnew, importsFrom_eq_iff]
    simp only [List.nil_append, importAt?_eq_iff]

/-- A text with a comment between a keyword and its path. -/
def commentedPath : String := "import /* the library */ \"./lib\";"

/-- **A comment hides an import**, which is found once it is overwritten. -/
theorem scan_commentedPath :
    scan commentedPath = []
      ∧ blankComments commentedPath = "import                   \"./lib\";"
      ∧ scan (blankComments commentedPath) = [⟨"./lib", 26, 31⟩] := by
  refine ⟨?_, ?_, ?_⟩
  · cbv
  · cbv
  · cbv

end ProofToolchain.Import
