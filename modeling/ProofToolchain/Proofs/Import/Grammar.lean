import ProofToolchain.Proofs.Import.Reread

/-!
# The scanner follows the grammar

`scan` jumps through a text: a comment or a literal is left behind whole, and a keyword looks ahead
over the blanks after it. The rule it follows is a matter of the tokens only (`importsFrom`). A
literal is an import if the last token before it that is not a blank is a keyword, and its path
stands where the tokens before it end.

The two meet one token at a time. A scanner that has read some tokens stands in one of two states,
after a keyword and blanks or not (`isAfterKeyword`), and `scanAfter_token` says what one token
makes of either. The tokens of a whole text follow by induction along the cut
(`scanAfter_eq_importsFrom`).

The rule is stated for any notion of which tokens are looked past (`skips`), since looking past
comments as well is the rule that one expects (`ProofToolchain.Proofs.Import.Comment`).
-/

namespace ProofToolchain.Import

/-! ## The rule -/

namespace Token

/-- The path that a token holds, if it is a literal delimited by a quote on both sides: all that
stands between the quotes. -/
def path? : Token → Option (List Char)
  | literal body closed => Literal.path? ⟨body, closed, []⟩
  | _ => none

/-- A blank. -/
def isBlank : Token → Bool
  | other c => Text.isAsciiBlank c
  | _ => false

/-- A keyword. -/
def isKeyword : Token → Bool
  | word text => Import.isKeyword text
  | _ => false

/-- Nothing but a literal holds a path. -/
theorem path?_other {t : Token} (h : ∀ body closed, t ≠ literal body closed) : t.path? = none := by
  cases t with
  | literal body closed => exact absurd rfl (h body closed)
  | _ => rfl

/-- A blank is no keyword. -/
theorem isKeyword_of_isBlank {t : Token} (h : t.isBlank = true) : t.isKeyword = false := by
  cases t with
  | other c => rfl
  | _ => cases h

/-- A literal is its opening quote and what is read after that. -/
theorem text_literal (body : List Char) (closed : Bool) (rest : List Char) :
    (literal body closed).text = '"' :: (Literal.mk body closed rest).text := by
  cases closed <;> simp [text, Literal.text]

end Token

/-- Whether the last of some tokens is a keyword, those aside that are looked past. -/
def isAfterKeyword (skips : Token → Bool) (before : List Token) : Bool :=
  (before.reverse.find? fun t => !skips t).any Token.isKeyword

/-- The import that a token is after the tokens `before`. -/
def importAt? (skips : Token → Bool) (before : List Token) (t : Token) : Option Import :=
  if isAfterKeyword skips before then
    t.path?.map fun path =>
      let start := byteSize (before.flatMap Token.text) + 1
      ⟨String.ofList path, start, start + byteSize path⟩
  else none

/-- **The imports among some tokens** that come after the tokens `before`: each literal with a path
whose last token before it is a keyword, those aside that are looked past. -/
def importsFrom (skips : Token → Bool) (before : List Token) : List Token → List Import
  | [] => []
  | t :: ts => (importAt? skips before t).toList ++ importsFrom skips (before ++ [t]) ts

/-- A token that is looked past changes nothing, and any other one is what comes last. -/
theorem isAfterKeyword_append_singleton (skips : Token → Bool) (before : List Token) (t : Token) :
    isAfterKeyword skips (before ++ [t]) =
      if skips t then isAfterKeyword skips before else t.isKeyword := by
  unfold isAfterKeyword
  rw [List.reverse_append, List.reverse_singleton, List.singleton_append, List.find?_cons]
  cases skips t <;> rfl

/-! ## The scanner's two states -/

/-- The imports of a text that starts at byte `offset`. -/
def scanFrom (offset : Nat) (cs : List Char) : List Import :=
  ofPieces offset (pieces cs)

/-- The imports of a text that starts at byte `offset` and follows a keyword. -/
def scanAfterKeyword (offset : Nat) (cs : List Char) : List Import :=
  ofPieces offset ((afterKeyword [] cs).1 :: pieces (afterKeyword [] cs).2)

/-- **The imports that a scanner still finds** that has read some tokens and stands at the text
`cs`. -/
def scanAfter (before : List Token) (cs : List Char) : List Import :=
  let offset := byteSize (before.flatMap Token.text)
  if isAfterKeyword Token.isBlank before then scanAfterKeyword offset cs else scanFrom offset cs

/-- A piece without an import is left behind. -/
theorem scanFrom_of_plain {c : Char} {cs text rest : List Char} (offset : Nat)
    (h : next c cs = (.plain text, rest)) :
    scanFrom offset (c :: cs) = scanFrom (offset + byteSize text) rest := by
  unfold scanFrom
  rw [pieces_cons, h]
  rfl

/-- The word adds nothing to what is found after it but its size. -/
theorem ofPieces_afterKeyword (offset : Nat) (word cs : List Char) :
    ofPieces offset ((afterKeyword word cs).1 :: pieces (afterKeyword word cs).2)
      = scanAfterKeyword (offset + byteSize word) cs := by
  unfold scanAfterKeyword afterKeyword
  split
  · next ds _ =>
    dsimp only
    split <;> simp [ofPieces, Piece.text, Nat.add_assoc]
  · simp [ofPieces, Piece.text, byteSize]

/-! ## Where a token ends -/

/-- A line comment is read up to the end of the line. -/
theorem restOfLine_append_of_not_mem {body : List Char} (h : '\n' ∉ body) (rest : List Char) :
    restOfLine (body ++ rest) = (body ++ (restOfLine rest).1, (restOfLine rest).2) := by
  induction body with
  | nil => rfl
  | cons c body ih =>
    obtain ⟨hc, hbody⟩ := not_or.1 (mt List.mem_cons.2 h)
    rw [List.cons_append, restOfLine, if_neg (Ne.symm hc), ih hbody]
    rfl

/-- The rest of a block comment is its body and its end. -/
theorem restOfBlock_eq (cs : List Char) :
    restOfBlock cs =
      ((blockBody cs).1 ++ (if (blockBody cs).2.isSome then ['*', '/'] else []),
        (blockBody cs).2.getD []) := by
  fun_induction blockBody cs with
  | case1 => rfl
  | case2 cs => rfl
  | case3 c cs hopen ih =>
    rw [restOfBlock.eq_3 _ _ hopen, ih]
    rfl

/-- A word is read up to a character that does not belong to it. -/
theorem next_word_append {c : Char} {cs rest : List Char} (hc : isWordStart c = true)
    (hcs : ∀ d ∈ cs, isWordChar d = true) (hrest : ∀ d ∈ rest.head?, isWordChar d = false) :
    next c (cs ++ rest) =
      if isKeyword (c :: cs) then afterKeyword (c :: cs) rest else (.plain (c :: cs), rest) := by
  obtain ⟨hslash, hquote⟩ := ne_of_isWordStart hc
  obtain ⟨htake, hdrop⟩ := takeWhile_append_of_stop hcs hrest
  simp only [next, hslash, hquote, hc, false_and, if_false, if_true, htake, hdrop]

/-! ## One token -/

/-- **A token is a piece without an import**, unless it is a keyword, or a line comment, which takes
the line feed after it along. -/
theorem next_token {t : Token} {rest : List Char} (hlexeme : t.IsLexeme)
    (hstop : t.StopsBefore rest) (hkeyword : t.isKeyword = false)
    (hline : ∀ body, t ≠ .line body) :
    ∃ c cs, t.text ++ rest = c :: cs ∧ next c cs = (.plain t.text, rest) := by
  cases t with
  | line body => exact absurd rfl (hline body)
  | block body closed =>
    obtain ⟨cs, htext, hbody, hclosed, hrest⟩ := blockBody_of_isLexeme hlexeme hstop
    refine ⟨'/', '*' :: cs, htext, ?_⟩
    rw [next_block, restOfBlock_eq, hbody, hclosed, hrest]
    rfl
  | literal body closed =>
    obtain ⟨cs, htext, hread⟩ := readLiteral_of_isLexeme hlexeme hstop
    refine ⟨'"', cs, htext, ?_⟩
    rw [next_quote, hread, Token.text_literal body closed rest]
  | word text =>
    obtain ⟨c, cs, rfl, hc, hcs⟩ := hlexeme
    refine ⟨c, cs ++ rest, rfl, ?_⟩
    rw [next_word_append hc hcs hstop]
    exact if_neg (by simpa [Token.isKeyword] using hkeyword)
  | other c =>
    have hcomment : c = '/' → rest.head? ≠ some '/' ∧ rest.head? ≠ some '*' :=
      fun hc => ⟨fun h => (hstop hc '/' h).1 rfl, fun h => (hstop hc '*' h).2 rfl⟩
    exact ⟨c, rest, rfl, next_single hcomment hlexeme.1 hlexeme.2⟩

/-- A token that is no keyword is left behind. -/
theorem scanFrom_of_not_isKeyword {t : Token} {rest : List Char} (offset : Nat)
    (hlexeme : t.IsLexeme) (hstop : t.StopsBefore rest) (hkeyword : t.isKeyword = false) :
    scanFrom offset (t.text ++ rest) = scanFrom (offset + byteSize t.text) rest := by
  by_cases hline : ∃ body, t = .line body
  · obtain ⟨body, rfl⟩ := hline
    have hnext := next_line (body ++ rest)
    rw [restOfLine_append_of_not_mem hlexeme] at hnext
    refine (scanFrom_of_plain offset hnext).trans ?_
    cases rest with
    | nil => simp [restOfLine, Token.text]
    | cons d rest =>
      -- the line feed is read with the comment, but it belongs to what follows
      obtain rfl := hstop d rfl
      rw [scanFrom_of_plain (offset + byteSize (Token.line body).text)
        (next_blank (by decide) rest)]
      simp [restOfLine, Token.text, byteSize, Nat.add_assoc]
  · obtain ⟨c, cs, htext, hnext⟩ :=
      next_token hlexeme hstop hkeyword fun body h => hline ⟨body, h⟩
    rw [htext]
    exact scanFrom_of_plain offset hnext

/-- **Where no keyword was before, a token is left behind**, and a keyword leads to the other
state. -/
theorem scanFrom_token {t : Token} {rest : List Char} (offset : Nat) (hlexeme : t.IsLexeme)
    (hstop : t.StopsBefore rest) :
    scanFrom offset (t.text ++ rest) =
      if t.isKeyword then scanAfterKeyword (offset + byteSize t.text) rest
      else scanFrom (offset + byteSize t.text) rest := by
  cases hkeyword : t.isKeyword with
  | false => exact scanFrom_of_not_isKeyword offset hlexeme hstop hkeyword
  | true =>
    cases t with
    | word text =>
      obtain ⟨c, cs, rfl, hc, hcs⟩ := hlexeme
      have hword : isKeyword (c :: cs) = true := hkeyword
      show ofPieces offset (pieces (c :: (cs ++ rest))) = _
      rw [pieces_cons, next_word_append hc hcs hstop, if_pos hword, ofPieces_afterKeyword]
      rfl
    | _ => cases hkeyword

/-- A blank is looked past after a keyword. -/
theorem scanAfterKeyword_blank {c : Char} (offset : Nat) (rest : List Char)
    (hblank : Text.isAsciiBlank c = true) :
    scanAfterKeyword offset (c :: rest) = scanAfterKeyword (offset + c.utf8Size) rest := by
  have hplain := scanFrom_of_plain offset (next_blank hblank rest)
  unfold scanAfterKeyword afterKeyword
  rw [List.takeWhile_cons_of_pos hblank, List.dropWhile_cons_of_pos hblank]
  split
  · next ds _ =>
    dsimp only
    split <;> simp [ofPieces, Piece.text, byteSize, Nat.add_assoc]
  · simpa [ofPieces, Piece.text, byteSize, scanFrom] using hplain

/-- **A literal after a keyword is an import** if it holds a path, and it is left behind. -/
theorem scanAfterKeyword_literal {body rest : List Char} {closed : Bool} (offset : Nat)
    (hlexeme : (Token.literal body closed).IsLexeme)
    (hstop : (Token.literal body closed).StopsBefore rest) :
    scanAfterKeyword offset ((Token.literal body closed).text ++ rest)
      = ((Token.literal body closed).path?.map fun path =>
          (⟨String.ofList path, offset + 1, offset + 1 + byteSize path⟩ : Import)).toList
        ++ scanFrom (offset + byteSize (Token.literal body closed).text) rest := by
  obtain ⟨cs, htext, hread⟩ := readLiteral_of_isLexeme hlexeme hstop
  have hafter : afterKeyword [] ([] ++ '"' :: cs) = _ := afterKeyword_quote [] cs (by simp)
  rw [List.nil_append, hread] at hafter
  have hpath : (Token.literal body closed).path? = (Literal.mk body closed rest).path? := rfl
  rw [htext, scanAfterKeyword, hafter, hpath]
  cases h : (Literal.mk body closed rest).path? with
  | none => simp [ofPieces, Piece.text, Token.text_literal body closed rest, scanFrom]
  | some path =>
    have hliteral := Literal.text_of_path? h
    have hquote : '"'.utf8Size = 1 := by decide
    simp [ofPieces, Piece.text, Token.text_literal body closed rest, hliteral, hquote, scanFrom,
      byteSize, Nat.add_assoc]

/-- What is neither a blank nor a literal starts with a character that is neither a blank nor a
quote. -/
theorem exists_cons_of_not_isBlank {t : Token} (hlexeme : t.IsLexeme) (hblank : t.isBlank = false)
    (hliteral : ∀ body closed, t ≠ .literal body closed) :
    ∃ c cs, t.text = c :: cs ∧ Text.isAsciiBlank c = false ∧ c ≠ '"' := by
  cases t with
  | line body => exact ⟨'/', '/' :: body, rfl, by decide, by decide⟩
  | block body closed => exact ⟨'/', _, rfl, by decide, by decide⟩
  | literal body closed => exact absurd rfl (hliteral body closed)
  | word text =>
    obtain ⟨c, cs, rfl, hc, -⟩ := hlexeme
    refine ⟨c, cs, rfl, ?_, (ne_of_isWordStart hc).2⟩
    rw [← Bool.not_eq_true]
    intro h
    simp only [Text.isAsciiBlank, Bool.or_eq_true, beq_iff_eq] at h
    rcases h with (((rfl | rfl) | rfl) | rfl) | rfl <;> exact absurd hc (by decide)
  | other c => exact ⟨c, [], rfl, hblank, hlexeme.1⟩

/-- Nothing else is looked past: the scanner goes on as if no keyword had been there. -/
theorem scanAfterKeyword_other {t : Token} (offset : Nat) (rest : List Char)
    (hlexeme : t.IsLexeme) (hblank : t.isBlank = false)
    (hliteral : ∀ body closed, t ≠ .literal body closed) :
    scanAfterKeyword offset (t.text ++ rest) = scanFrom offset (t.text ++ rest) := by
  obtain ⟨c, cs, htext, hc, hquote⟩ := exists_cons_of_not_isBlank hlexeme hblank hliteral
  have hhead : ((t.text ++ rest).dropWhile Text.isAsciiBlank).head? ≠ some '"' := by
    rw [htext, List.cons_append, List.dropWhile_cons_of_neg (by simp [hc])]
    simpa using hquote
  rw [scanAfterKeyword, afterKeyword_other [] hhead]
  rfl

/-- **One token**: it is an import or not by the rule, and the scanner goes on after it. -/
theorem scanAfter_token {t : Token} {rest : List Char} (before : List Token)
    (hlexeme : t.IsLexeme) (hstop : t.StopsBefore rest) :
    scanAfter before (t.text ++ rest)
      = (importAt? Token.isBlank before t).toList ++ scanAfter (before ++ [t]) rest := by
  have hoffset : byteSize ((before ++ [t]).flatMap Token.text)
      = byteSize (before.flatMap Token.text) + byteSize t.text := by simp
  unfold scanAfter
  dsimp only
  rw [hoffset, isAfterKeyword_append_singleton, importAt?]
  generalize byteSize (before.flatMap Token.text) = offset
  cases isAfterKeyword Token.isBlank before with
  | false =>
    -- no literal is an import here, and a blank is no keyword
    have hstate : (if t.isBlank then false else t.isKeyword) = t.isKeyword := by
      cases hblank : t.isBlank with
      | false => rfl
      | true => exact (Token.isKeyword_of_isBlank hblank).symm
    rw [hstate]
    exact scanFrom_token offset hlexeme hstop
  | true =>
    cases hblank : t.isBlank with
    | true =>
      cases t with
      | other c => exact scanAfterKeyword_blank offset rest hblank
      | _ => cases hblank
    | false =>
      by_cases hliteral : ∃ body closed, t = .literal body closed
      · obtain ⟨body, closed, rfl⟩ := hliteral
        exact scanAfterKeyword_literal offset hlexeme hstop
      · have hother : ∀ body closed, t ≠ .literal body closed :=
          fun body closed h => hliteral ⟨body, closed, h⟩
        rw [scanAfterKeyword_other offset rest hlexeme hblank hother, Token.path?_other hother]
        exact scanFrom_token offset hlexeme hstop

/-- **A whole cut**: what the scanner still finds is what the rule still gives. -/
theorem scanAfter_eq_importsFrom {cs : List Char} {ts : List Token} (h : Tokenizes cs ts)
    (before : List Token) : scanAfter before cs = importsFrom Token.isBlank before ts := by
  induction h generalizing before with
  | nil =>
    unfold scanAfter
    dsimp only
    split
    · simp [scanAfterKeyword, afterKeyword, ofPieces, importsFrom]
    · simp [scanFrom, ofPieces, importsFrom]
  | cons hlexeme hstop _ ih =>
    rw [scanAfter_token before hlexeme hstop, importsFrom, ih]

/-- The imports of a text are those among its tokens. -/
theorem scan_eq_of_tokenizes {source : String} {ts : List Token}
    (h : Tokenizes source.toList ts) : scan source = importsFrom Token.isBlank [] ts :=
  scanAfter_eq_importsFrom h []

/-- **The imports of a text, by its grammar.** A text is cut into tokens in exactly one way, and its
imports are, in the order of the text, the literals whose last token before them is a keyword,
blanks aside, each with the path between its quotes and the bytes it takes. A comment is a token,
and so is each character that is not ASCII: neither is looked past. -/
theorem scan_eq_importsFrom (source : String) :
    ∃ ts, Tokenizes source.toList ts ∧ (∀ us, Tokenizes source.toList us → us = ts)
      ∧ scan source = importsFrom Token.isBlank [] ts := by
  obtain ⟨ts, hts, hunique⟩ := existsUnique_tokenizes source.toList
  exact ⟨ts, hts, hunique, scan_eq_of_tokenizes hts⟩

/-- The two keywords spelled out, and a longer word that is none. -/
example :
    let source := "from \"a\";import\"b\"imports\"c\""
    let ts : List Token :=
      [.word ['f', 'r', 'o', 'm'], .other ' ', .literal ['a'] true, .other ';',
        .word ['i', 'm', 'p', 'o', 'r', 't'], .literal ['b'] true,
        .word ['i', 'm', 'p', 'o', 'r', 't', 's'], .literal ['c'] true]
    tokens source.toList = ts ∧ importsFrom Token.isBlank [] ts = [⟨"a", 6, 7⟩, ⟨"b", 16, 17⟩]
      ∧ scan source = [⟨"a", 6, 7⟩, ⟨"b", 16, 17⟩] := by cbv

end ProofToolchain.Import
