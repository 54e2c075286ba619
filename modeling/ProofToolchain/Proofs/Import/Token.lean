import ProofToolchain.Import.Piece

/-!
# The tokens of a program text

The lexical grammar of a program text, stated on its own: what a token is made of
(`Token.IsLexeme`), and what may not follow it because it would belong to it
(`Token.StopsBefore`). A text is cut into tokens from left to right, with nothing left out
(`Tokenizes`). There are line comments, block comments, literals, words, and single characters
for everything else, those outside ASCII among them.

The grammar takes no side on how it is read, and it does not have to: every text has exactly one
cut (`existsUnique_tokenizes`), which `tokens` computes.
-/

namespace ProofToolchain.Import

/-- **A token of a program text.** -/
inductive Token where
  /-- A comment to the end of its line, which it leaves out; `body` is what follows the slashes. -/
  | line (body : List Char)
  /-- A block comment; one that is not closed runs to the end of the text. -/
  | block (body : List Char) (closed : Bool)
  /-- A literal; one that is not closed runs to the end of the text. -/
  | literal (body : List Char) (closed : Bool)
  /-- A word. -/
  | word (text : List Char)
  /-- A character that is part of nothing else. -/
  | other (c : Char)
  deriving DecidableEq, Repr

/-! ## The grammar -/

/-- **What a closed literal holds**: characters that are neither quotes nor backslashes, and
backslashes, each with the character it escapes. -/
inductive IsLiteralBody : List Char → Prop
  | nil : IsLiteralBody []
  | plain {c : Char} {cs : List Char} (hquote : c ≠ '"') (hescape : c ≠ '\\')
      (h : IsLiteralBody cs) : IsLiteralBody (c :: cs)
  | escaped {c : Char} {cs : List Char} (h : IsLiteralBody cs) : IsLiteralBody ('\\' :: c :: cs)

/-- **What a literal holds that is never closed**: its last character may be a backslash that there
is nothing left for. -/
def IsOpenBody (cs : List Char) : Prop :=
  IsLiteralBody cs ∨ ∃ body, IsLiteralBody body ∧ cs = body ++ ['\\']

namespace Token

/-- The text of a token. -/
def text : Token → List Char
  | line body => '/' :: '/' :: body
  | block body closed => '/' :: '*' :: (body ++ if closed then ['*', '/'] else [])
  | literal body closed => '"' :: (body ++ if closed then ['"'] else [])
  | word text => text
  | other c => [c]

/-- **What a token is made of.** -/
def IsLexeme : Token → Prop
  | line body => '\n' ∉ body
  | block body _ => ¬ ['*', '/'] <:+: body
  | literal body true => IsLiteralBody body
  | literal body false => IsOpenBody body
  | word text => ∃ c cs, text = c :: cs ∧ isWordStart c = true ∧ ∀ d ∈ cs, isWordChar d = true
  | other c => c ≠ '"' ∧ isWordStart c = false

/-- **What may follow a token**, nothing of it being part of the token. -/
def StopsBefore : Token → List Char → Prop
  | line _, rest => ∀ c ∈ rest.head?, c = '\n'
  | block _ closed, rest => closed = false → rest = []
  | literal _ closed, rest => closed = false → rest = []
  | word _, rest => ∀ c ∈ rest.head?, isWordChar c = false
  | other c, rest => c = '/' → ∀ d ∈ rest.head?, d ≠ '/' ∧ d ≠ '*'

end Token

/-- **A text is cut into tokens.** -/
inductive Tokenizes : List Char → List Token → Prop
  | nil : Tokenizes [] []
  | cons {t : Token} {rest : List Char} {ts : List Token} (hlexeme : t.IsLexeme)
      (hstop : t.StopsBefore rest) (h : Tokenizes rest ts) : Tokenizes (t.text ++ rest) (t :: ts)

/-- Nothing of the text is left out. -/
theorem Tokenizes.flatMap_text {cs : List Char} {ts : List Token} (h : Tokenizes cs ts) :
    ts.flatMap Token.text = cs := by
  induction h with
  | nil => rfl
  | cons _ _ _ ih => rw [List.flatMap_cons, ih]

/-! ## Reading one token -/

/-- The body of a block comment, and what follows the comment if it is closed. -/
def blockBody : List Char → List Char × Option (List Char)
  | [] => ([], none)
  | '*' :: '/' :: cs => ([], some cs)
  | c :: cs => (c :: (blockBody cs).1, (blockBody cs).2)

/-- **The first token of a text** that starts with `c`, and what follows it. -/
def nextToken (c : Char) (cs : List Char) : Token × List Char :=
  if c = '/' ∧ cs.head? = some '/' then
    (.line (cs.tail.takeWhile (· ≠ '\n')), cs.tail.dropWhile (· ≠ '\n'))
  else if c = '/' ∧ cs.head? = some '*' then
    let (body, rest?) := blockBody cs.tail
    (.block body rest?.isSome, rest?.getD [])
  else if c = '"' then
    (.literal (readLiteral cs).body (readLiteral cs).closed, (readLiteral cs).rest)
  else if isWordStart c then (.word (c :: cs.takeWhile isWordChar), cs.dropWhile isWordChar)
  else (.other c, cs)

theorem nextToken_line (cs : List Char) :
    nextToken '/' ('/' :: cs) =
      (.line (cs.takeWhile (· ≠ '\n')), cs.dropWhile (· ≠ '\n')) := rfl

theorem nextToken_block (cs : List Char) :
    nextToken '/' ('*' :: cs) =
      (.block (blockBody cs).1 (blockBody cs).2.isSome, (blockBody cs).2.getD []) := rfl

theorem nextToken_quote (cs : List Char) :
    nextToken '"' cs =
      (.literal (readLiteral cs).body (readLiteral cs).closed, (readLiteral cs).rest) := by
  simp [nextToken]

/-! ### Block comments -/

/-- The end of a comment is in a text if it is in what follows the first character, or if it is
that character and the next one. -/
theorem infix_end_cons {c : Char} {cs : List Char} :
    ['*', '/'] <:+: c :: cs ↔ (c = '*' ∧ cs.head? = some '/') ∨ ['*', '/'] <:+: cs := by
  rw [List.infix_cons_iff, List.cons_prefix_cons]
  cases cs with
  | nil => simp
  | cons d cs => simp [List.cons_prefix_cons, eq_comm]

/-- A body without an end, an end and any other text are read as that body. -/
theorem blockBody_closed {body : List Char} (h : ¬ ['*', '/'] <:+: body) (rest : List Char) :
    blockBody (body ++ '*' :: '/' :: rest) = (body, some rest) := by
  induction body with
  | nil => rfl
  | cons c body ih =>
    obtain ⟨hfirst, hrest⟩ := not_or.1 (mt infix_end_cons.2 h)
    -- a star at the end of the body is not followed by a slash but by the star of the end
    have hopen : ∀ ds, c = '*' → body ++ '*' :: '/' :: rest = '/' :: ds → False := by
      intro ds hc hds
      cases body with
      | nil => cases hds
      | cons d body => exact hfirst ⟨hc, congrArg List.head? hds⟩
    rw [List.cons_append, blockBody.eq_3 _ _ hopen, ih hrest]

/-- A text without an end is read as the body of a comment that is not closed. -/
theorem blockBody_open {body : List Char} (h : ¬ ['*', '/'] <:+: body) :
    blockBody body = (body, none) := by
  induction body with
  | nil => rfl
  | cons c body ih =>
    obtain ⟨hfirst, hrest⟩ := not_or.1 (mt infix_end_cons.2 h)
    have hopen : ∀ ds, c = '*' → body = '/' :: ds → False :=
      fun ds hc hds => hfirst ⟨hc, congrArg List.head? hds⟩
    rw [blockBody.eq_3 _ _ hopen, ih hrest]

/-- A block comment is read as it is, before any text that may follow it. -/
theorem blockBody_of_isLexeme {body rest : List Char} {closed : Bool}
    (hlexeme : (Token.block body closed).IsLexeme)
    (hstop : (Token.block body closed).StopsBefore rest) :
    ∃ cs, (Token.block body closed).text ++ rest = '/' :: '*' :: cs
      ∧ (blockBody cs).1 = body ∧ (blockBody cs).2.isSome = closed
      ∧ (blockBody cs).2.getD [] = rest := by
  cases closed with
  | true =>
    refine ⟨body ++ '*' :: '/' :: rest, by simp [Token.text], ?_⟩
    rw [blockBody_closed hlexeme]
    exact ⟨rfl, rfl, rfl⟩
  | false =>
    obtain rfl : rest = [] := hstop rfl
    refine ⟨body, by simp [Token.text], ?_⟩
    rw [blockBody_open hlexeme]
    exact ⟨rfl, rfl, rfl⟩

/-- **A block comment is read up to its first end.** -/
theorem blockBody_spec (cs : List Char) :
    ¬ ['*', '/'] <:+: (blockBody cs).1
      ∧ cs = (blockBody cs).1 ++ ((blockBody cs).2.map fun rest => '*' :: '/' :: rest).getD [] := by
  fun_induction blockBody cs with
  | case1 => exact ⟨by simp, rfl⟩
  | case2 cs => exact ⟨by simp, rfl⟩
  | case3 c cs hopen ih =>
    refine ⟨fun hend => ?_, by rw [List.cons_append, ← ih.2]⟩
    rcases infix_end_cons.1 hend with ⟨hc, hhead⟩ | hend
    · -- the body starts as the text does, which is not with an end
      obtain ⟨ds, hds⟩ := List.head?_eq_some_iff.1 hhead
      exact hopen _ hc (ih.2.trans (by rw [hds]; rfl))
    · exact ih.1 hend

/-! ### Literals -/

theorem IsOpenBody.plain {c : Char} {cs : List Char} (hquote : c ≠ '"') (hescape : c ≠ '\\')
    (h : IsOpenBody cs) : IsOpenBody (c :: cs) := by
  rcases h with h | ⟨body, h, rfl⟩
  · exact .inl (h.plain hquote hescape)
  · exact .inr ⟨c :: body, h.plain hquote hescape, rfl⟩

theorem IsOpenBody.escaped {c : Char} {cs : List Char} (h : IsOpenBody cs) :
    IsOpenBody ('\\' :: c :: cs) := by
  rcases h with h | ⟨body, h, rfl⟩
  · exact .inl h.escaped
  · exact .inr ⟨'\\' :: c :: body, h.escaped, rfl⟩

/-- What stands in a literal is read before whatever follows it there. -/
theorem readLiteral_append_of_isLiteralBody {body : List Char} (h : IsLiteralBody body)
    (more : List Char) : readLiteral (body ++ more) = (readLiteral more).prepend body := by
  induction h with
  | nil => rfl
  | @plain c cs hquote hescape _ ih =>
    rw [List.cons_append, readLiteral, if_neg hquote, ih]
    · rfl
    · exact fun hc => absurd hc hescape
    · exact fun _ _ hc => absurd hc hescape
  | @escaped c cs _ ih =>
    show (readLiteral (cs ++ more)).prepend ['\\', c] = _
    rw [ih]
    rfl

/-- A body and a quote are read as a closed literal. -/
theorem readLiteral_of_isLiteralBody {body : List Char} (h : IsLiteralBody body)
    (rest : List Char) : readLiteral (body ++ '"' :: rest) = ⟨body, true, rest⟩ := by
  rw [readLiteral_append_of_isLiteralBody h]
  show Literal.mk (body ++ []) true rest = _
  rw [List.append_nil]

/-- A body without a closing quote is read as a literal that is not closed. -/
theorem readLiteral_of_isOpenBody {body : List Char} (h : IsOpenBody body) :
    readLiteral body = ⟨body, false, []⟩ := by
  rcases h with h | ⟨body, h, rfl⟩
  · have hread := readLiteral_append_of_isLiteralBody h []
    rw [List.append_nil] at hread
    rw [hread]
    show Literal.mk (body ++ []) false [] = _
    rw [List.append_nil]
  · exact readLiteral_append_of_isLiteralBody h ['\\']

/-- A literal is read as it is, before any text that may follow it. -/
theorem readLiteral_of_isLexeme {body rest : List Char} {closed : Bool}
    (hlexeme : (Token.literal body closed).IsLexeme)
    (hstop : (Token.literal body closed).StopsBefore rest) :
    ∃ cs, (Token.literal body closed).text ++ rest = '"' :: cs
      ∧ readLiteral cs = ⟨body, closed, rest⟩ := by
  cases closed with
  | true =>
    exact ⟨body ++ '"' :: rest, by simp [Token.text], readLiteral_of_isLiteralBody hlexeme rest⟩
  | false =>
    obtain rfl : rest = [] := hstop rfl
    exact ⟨body, by simp [Token.text], readLiteral_of_isOpenBody hlexeme⟩

/-- **A literal is read up to its closing quote**, or to the end of the text if it has none. -/
theorem readLiteral_spec (cs : List Char) :
    ((readLiteral cs).closed = true → IsLiteralBody (readLiteral cs).body)
      ∧ ((readLiteral cs).closed = false → IsOpenBody (readLiteral cs).body) := by
  fun_induction readLiteral cs with
  | case1 => exact ⟨fun h => absurd h Bool.false_ne_true, fun _ => .inl .nil⟩
  | case2 => exact ⟨fun h => absurd h Bool.false_ne_true, fun _ => .inr ⟨[], .nil, rfl⟩⟩
  | case3 c cs ih => exact ⟨fun h => (ih.1 h).escaped, fun h => (ih.2 h).escaped⟩
  | case4 cs => exact ⟨fun _ => .nil, fun h => absurd h.symm Bool.false_ne_true⟩
  | case5 c cs hlast hescape hc ih =>
    have hc' : c ≠ '\\' := by
      rintro rfl
      cases cs with
      | nil => exact hlast rfl rfl
      | cons d cs => exact hescape d cs rfl rfl
    exact ⟨fun h => (ih.1 h).plain hc hc', fun h => (ih.2 h).plain hc hc'⟩

/-! ### Words and runs of characters -/

/-- What starts a word starts neither a comment nor a literal. -/
theorem ne_of_isWordStart {c : Char} (h : isWordStart c = true) : c ≠ '/' ∧ c ≠ '"' :=
  ⟨by rintro rfl; exact absurd h (by decide), by rintro rfl; exact absurd h (by decide)⟩

/-- A character that satisfies a test is followed by those that do, and then by one that does
not. -/
theorem head?_dropWhile_eq_false (p : Char → Bool) (cs : List Char) :
    ∀ c ∈ (cs.dropWhile p).head?, p c = false := by
  intro c hc
  have h := List.head?_dropWhile_not p cs
  rw [Option.mem_def.1 hc] at h
  simpa using h

/-- A run of characters that satisfy a test is cut off before a character that does not. -/
theorem takeWhile_append_of_stop {p : Char → Bool} {cs rest : List Char}
    (hcs : ∀ c ∈ cs, p c = true) (hrest : ∀ c ∈ rest.head?, p c = false) :
    (cs ++ rest).takeWhile p = cs ∧ (cs ++ rest).dropWhile p = rest := by
  rw [List.takeWhile_append_of_pos hcs, List.dropWhile_append_of_pos hcs]
  cases rest with
  | nil => simp
  | cons c rest =>
    have hc := hrest c rfl
    simp [hc]

/-! ### Any token -/

/-- What is read after two slashes is a line comment. -/
theorem line_spec (cs : List Char) :
    (Token.line (cs.takeWhile (· ≠ '\n'))).IsLexeme
      ∧ (Token.line (cs.takeWhile (· ≠ '\n'))).StopsBefore (cs.dropWhile (· ≠ '\n'))
      ∧ (Token.line (cs.takeWhile (· ≠ '\n'))).text ++ cs.dropWhile (· ≠ '\n')
        = '/' :: '/' :: cs := by
  refine ⟨fun hmem => ?_, fun d hd => ?_, by simp [Token.text]⟩
  · have hend := List.all_eq_true.1 List.all_takeWhile _ hmem
    simp at hend
  · simpa using head?_dropWhile_eq_false _ _ d hd

/-- What is read after a slash and a star is a block comment. -/
theorem block_spec (cs : List Char) :
    (Token.block (blockBody cs).1 (blockBody cs).2.isSome).IsLexeme
      ∧ (Token.block (blockBody cs).1 (blockBody cs).2.isSome).StopsBefore
          ((blockBody cs).2.getD [])
      ∧ (Token.block (blockBody cs).1 (blockBody cs).2.isSome).text ++ (blockBody cs).2.getD []
        = '/' :: '*' :: cs := by
  have hspec := blockBody_spec cs
  cases hrest : (blockBody cs).2 with
  | none =>
    rw [hrest] at hspec
    refine ⟨hspec.1, fun _ => rfl, ?_⟩
    have htext : cs = (blockBody cs).1 ++ [] := hspec.2
    show '/' :: '*' :: ((blockBody cs).1 ++ []) ++ [] = _
    rw [← htext, List.append_nil]
  | some rest =>
    rw [hrest] at hspec
    refine ⟨hspec.1, fun h => absurd h.symm Bool.false_ne_true, ?_⟩
    have htext : cs = (blockBody cs).1 ++ '*' :: '/' :: rest := hspec.2
    show '/' :: '*' :: ((blockBody cs).1 ++ ['*', '/']) ++ rest = _
    rw [List.cons_append, List.cons_append, List.append_assoc]
    exact congrArg (fun ds => '/' :: '*' :: ds) htext.symm

/-- What is read after a quote is a literal. -/
theorem literal_spec (cs : List Char) :
    (Token.literal (readLiteral cs).body (readLiteral cs).closed).IsLexeme
      ∧ (Token.literal (readLiteral cs).body (readLiteral cs).closed).StopsBefore
          (readLiteral cs).rest
      ∧ (Token.literal (readLiteral cs).body (readLiteral cs).closed).text ++ (readLiteral cs).rest
        = '"' :: cs := by
  obtain ⟨hclosed, hopen⟩ := readLiteral_spec cs
  have htext := readLiteral_append cs
  cases hc : (readLiteral cs).closed with
  | true =>
    rw [Literal.text, if_pos hc] at htext
    exact ⟨hclosed hc, fun h => absurd h.symm Bool.false_ne_true,
      congrArg (List.cons '"') htext⟩
  | false =>
    rw [Literal.text, if_neg (by simp [hc]), ← List.append_nil (readLiteral cs).body] at htext
    exact ⟨hopen hc, fun _ => readLiteral_rest_of_open hc, congrArg (List.cons '"') htext⟩

/-- **What is read first is a token**, with nothing left out and nothing taken that follows it. -/
theorem nextToken_spec (c : Char) (cs : List Char) :
    (nextToken c cs).1.IsLexeme ∧ (nextToken c cs).1.StopsBefore (nextToken c cs).2
      ∧ (nextToken c cs).1.text ++ (nextToken c cs).2 = c :: cs := by
  unfold nextToken
  split
  · next h =>
    obtain ⟨rfl, hhead⟩ := h
    obtain ⟨cs, rfl⟩ := List.head?_eq_some_iff.1 hhead
    exact line_spec cs
  split
  · next h =>
    obtain ⟨rfl, hhead⟩ := h
    obtain ⟨cs, rfl⟩ := List.head?_eq_some_iff.1 hhead
    exact block_spec cs
  split
  · next h =>
    subst h
    exact literal_spec cs
  split
  · next h =>
    refine ⟨⟨c, _, rfl, h, fun d hd => List.all_eq_true.1 List.all_takeWhile d hd⟩, ?_, ?_⟩
    · exact head?_dropWhile_eq_false _ _
    · simp [Token.text]
  · next hline hblock hquote hword =>
    refine ⟨⟨hquote, by simpa using hword⟩, fun hc d hd => ⟨?_, ?_⟩, rfl⟩
    · rintro rfl
      exact hline ⟨hc, hd⟩
    · rintro rfl
      exact hblock ⟨hc, hd⟩

/-- **A token is what is read first**, before any text that may follow it. -/
theorem nextToken_text {t : Token} {rest : List Char} (hlexeme : t.IsLexeme)
    (hstop : t.StopsBefore rest) :
    ∃ c cs, t.text ++ rest = c :: cs ∧ nextToken c cs = (t, rest) := by
  cases t with
  | line body =>
    refine ⟨'/', '/' :: (body ++ rest), rfl, ?_⟩
    have hbody : ∀ c ∈ body, decide (c ≠ '\n') = true := by
      intro c hc
      refine decide_eq_true ?_
      rintro rfl
      exact hlexeme hc
    have hrest : ∀ c ∈ rest.head?, decide (c ≠ '\n') = false := by
      intro c hc
      rw [hstop c hc]
      rfl
    obtain ⟨htake, hdrop⟩ := takeWhile_append_of_stop hbody hrest
    rw [nextToken_line, htake, hdrop]
  | block body closed =>
    obtain ⟨cs, htext, hbody, hclosed, hrest⟩ := blockBody_of_isLexeme hlexeme hstop
    exact ⟨'/', '*' :: cs, htext, by rw [nextToken_block, hbody, hclosed, hrest]⟩
  | literal body closed =>
    obtain ⟨cs, htext, hread⟩ := readLiteral_of_isLexeme hlexeme hstop
    exact ⟨'"', cs, htext, by rw [nextToken_quote, hread]⟩
  | word text =>
    obtain ⟨c, cs, rfl, hc, hcs⟩ := hlexeme
    obtain ⟨hslash, hquote⟩ := ne_of_isWordStart hc
    obtain ⟨htake, hdrop⟩ := takeWhile_append_of_stop hcs hstop
    refine ⟨c, cs ++ rest, rfl, ?_⟩
    simp only [nextToken, hslash, hquote, hc, false_and, if_false, if_true, htake, hdrop]
  | other c =>
    have hline : ¬ (c = '/' ∧ rest.head? = some '/') := fun h => (hstop h.1 '/' h.2).1 rfl
    have hblock : ¬ (c = '/' ∧ rest.head? = some '*') := fun h => (hstop h.1 '*' h.2).2 rfl
    refine ⟨c, rest, rfl, ?_⟩
    rw [nextToken, if_neg hline, if_neg hblock, if_neg hlexeme.1, if_neg (by simp [hlexeme.2])]

/-! ## Every text has one cut -/

/-- A token is not empty. -/
theorem Token.IsLexeme.text_ne_nil {t : Token} (h : t.IsLexeme) : t.text ≠ [] := by
  cases t with
  | word text =>
    obtain ⟨c, cs, rfl, -⟩ := h
    exact List.cons_ne_nil c cs
  | _ => exact List.cons_ne_nil _ _

theorem nextToken_length_lt (c : Char) (cs : List Char) :
    (nextToken c cs).2.length < (c :: cs).length := by
  obtain ⟨hlexeme, -, htext⟩ := nextToken_spec c cs
  have hpos : 0 < (nextToken c cs).1.text.length := List.length_pos_iff.2 hlexeme.text_ne_nil
  have hlength := congrArg List.length htext
  rw [List.length_append] at hlength
  omega

/-- **The tokens of a text**, from left to right. -/
def tokens : List Char → List Token
  | [] => []
  | c :: cs => (nextToken c cs).1 :: tokens (nextToken c cs).2
termination_by cs => cs.length
decreasing_by exact nextToken_length_lt c cs

/-- The tokens of a text are a cut of it. -/
theorem tokenizes_tokens (cs : List Char) : Tokenizes cs (tokens cs) := by
  fun_induction tokens cs with
  | case1 => exact .nil
  | case2 c cs ih =>
    obtain ⟨hlexeme, hstop, htext⟩ := nextToken_spec c cs
    have hcons := Tokenizes.cons hlexeme hstop ih
    rwa [htext] at hcons

/-- Every cut of a text is into its tokens. -/
theorem Tokenizes.eq_tokens {cs : List Char} {ts : List Token} (h : Tokenizes cs ts) :
    ts = tokens cs := by
  induction h with
  | nil => rw [tokens]
  | cons hlexeme hstop _ ih =>
    obtain ⟨c, cs, htext, hnext⟩ := nextToken_text hlexeme hstop
    rw [htext, tokens, hnext, ← ih]

/-- **Every text is cut into tokens in exactly one way.** -/
theorem existsUnique_tokenizes (cs : List Char) :
    ∃ ts, Tokenizes cs ts ∧ ∀ us, Tokenizes cs us → us = ts :=
  ⟨tokens cs, tokenizes_tokens cs, fun _ h => h.eq_tokens⟩

end ProofToolchain.Import
