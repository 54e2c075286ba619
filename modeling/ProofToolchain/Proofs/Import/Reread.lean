import ProofToolchain.Import.Scan
import ProofToolchain.Proofs.Import.Token

/-!
# Reading a text again after its paths changed

A source is written to its file with other paths between the quotes, and the compiler cuts that
file into pieces anew. It must come to the pieces that were meant, or an import would be lost, or
found where there was none. `pieces_retargeted` says that it does, whatever the text holds, as long
as the new paths hold neither a quote nor a backslash.

Each reader stops for a reason that it finds in what it has taken, or in the first character after
that. So a piece is read again whatever follows it, provided that the text after it starts the way
it did (`SameStart`): this is `next_withPath`. Replacing paths never changes how a text starts,
since a piece with an import starts with its keyword (`sameStart_retargeted`).
-/

namespace ProofToolchain.Import

/-! ## Texts with other paths -/

/-- A piece with its path replaced where there is another one for it. -/
def Piece.withPath (target? : String → Option String) : Piece → Piece
  | .plain text => .plain text
  | .importing lead path =>
    match target? (String.ofList path) with
    | some target => .importing lead target.toList
    | none => .importing lead path

/-- **A text with the paths of its imports replaced** where there are others for them. -/
def retarget (target? : String → Option String) (source : String) : String :=
  String.ofList (((pieces source.toList).map (Piece.withPath target?)).flatMap Piece.text)

/-! ## What a reader takes is its own -/

section Taken

variable {cs tail : List Char}

/-- The rest of a line is read again before any other text. -/
theorem restOfLine_append_of_end (h : (restOfLine cs).2 = [] → tail = []) :
    restOfLine ((restOfLine cs).1 ++ tail) = ((restOfLine cs).1, tail) := by
  induction cs with
  | nil =>
    rw [h rfl]
    rfl
  | cons c cs ih =>
    by_cases hc : c = '\n'
    · simp [restOfLine, hc]
    · simp only [restOfLine, hc, if_false] at h
      simp [restOfLine, hc, ih h]

/-- A block comment that was read from some text took something of it. -/
theorem restOfBlock_cons_fst (c : Char) (cs : List Char) :
    (restOfBlock (c :: cs)).1.head? = some c := by
  unfold restOfBlock
  split <;> simp_all

/-- The rest of a block comment is read again before any other text. -/
theorem restOfBlock_append_of_end (h : (restOfBlock cs).2 = [] → tail = []) :
    restOfBlock ((restOfBlock cs).1 ++ tail) = ((restOfBlock cs).1, tail) := by
  fun_induction restOfBlock cs with
  | case1 =>
    rw [h rfl]
    rfl
  | case2 cs => rfl
  | case3 c cs hopen ih =>
    -- what was read does not put a slash after a star where there was none
    have hopen' : ∀ ds, c = '*' → (restOfBlock cs).1 ++ tail ≠ '/' :: ds := by
      intro ds hc hds
      cases cs with
      | nil =>
        rw [h rfl] at hds
        cases hds
      | cons d cs =>
        have hhead := congrArg List.head? hds
        rw [List.head?_append, restOfBlock_cons_fst] at hhead
        exact hopen cs hc (by simpa using hhead)
    rw [List.cons_append, restOfBlock.eq_3 _ _ hopen', ih h]

/-- A literal is read again before any other text. -/
theorem readLiteral_append_of_end (h : (readLiteral cs).rest = [] → tail = []) :
    readLiteral ((readLiteral cs).text ++ tail) = { readLiteral cs with rest := tail } := by
  fun_induction readLiteral cs with
  | case1 =>
    rw [h rfl]
    rfl
  | case2 =>
    rw [h rfl]
    rfl
  | case3 c cs ih =>
    rw [Literal.text_prepend, List.append_assoc]
    show (readLiteral ((readLiteral cs).text ++ tail)).prepend _ = _
    rw [ih h]
    rfl
  | case4 => rfl
  | case5 c cs hlast hescape hc ih =>
    have hc' : c ≠ '\\' := by
      intro hc'
      cases cs with
      | nil => exact hlast hc' rfl
      | cons d cs => exact hescape d cs hc' rfl
    rw [Literal.text_prepend, List.append_assoc]
    show readLiteral (c :: ((readLiteral cs).text ++ tail)) = _
    rw [readLiteral, if_neg hc, ih h]
    · rfl
    · exact fun hc'' => absurd hc'' hc'
    · exact fun _ _ hc'' => absurd hc'' hc'

end Taken

/-- A run of characters is found again before a text that goes on as the first one did. -/
theorem takeWhile_append_of_head? {p : Char → Bool} {cs tail : List Char}
    (h : tail.head? = (cs.dropWhile p).head?) :
    (cs.takeWhile p ++ tail).takeWhile p = cs.takeWhile p
      ∧ (cs.takeWhile p ++ tail).dropWhile p = tail := by
  refine takeWhile_append_of_stop (List.all_eq_true.1 List.all_takeWhile) ?_
  rw [h]
  exact head?_dropWhile_eq_false p cs

/-! ## Paths without quotes -/

/-- **A path that can stand in a literal as it is**: nothing in it ends the literal or escapes
what follows. -/
def IsClean (path : List Char) : Prop :=
  ∀ c ∈ path, c ≠ '"' ∧ c ≠ '\\'

/-- Such a path is what a closed literal may hold. -/
theorem IsClean.isLiteralBody {path : List Char} (h : IsClean path) : IsLiteralBody path := by
  induction path with
  | nil => exact .nil
  | cons c path ih =>
    obtain ⟨hquote, hescape⟩ := h c List.mem_cons_self
    exact .plain hquote hescape (ih fun d hd => h d (List.mem_cons_of_mem c hd))

/-- A clean path and a quote are a literal, before any other text. -/
theorem readLiteral_of_isClean {path : List Char} (h : IsClean path) (tail : List Char) :
    readLiteral (path ++ '"' :: tail) = ⟨path, true, tail⟩ :=
  readLiteral_of_isLiteralBody h.isLiteralBody tail

/-- A literal that holds a path is read from that path and a quote too. -/
theorem readLiteral_of_path? {cs path tail : List Char} (hpath : (readLiteral cs).path? = some path)
    (h : (readLiteral cs).rest = [] → tail = []) :
    (readLiteral (path ++ '"' :: tail)).path? = some path
      ∧ (readLiteral (path ++ '"' :: tail)).rest = tail := by
  have htext : path ++ '"' :: tail = (readLiteral cs).text ++ tail := by
    rw [Literal.text_of_path? hpath, List.append_assoc]
    rfl
  rw [htext, readLiteral_append_of_end h]
  exact ⟨hpath, rfl⟩

/-! ## Texts that start alike -/

/-- **Two texts start alike** if a reader that stops before them cannot tell them apart: their
first characters agree, and so do the first ones after the blanks. -/
structure SameStart (cs ds : List Char) : Prop where
  /-- The first characters agree. -/
  head : ds.head? = cs.head?
  /-- The first characters after the blanks agree. -/
  headAfterBlanks :
    (ds.dropWhile Text.isAsciiBlank).head? = (cs.dropWhile Text.isAsciiBlank).head?

/-- Only the empty text starts like the empty text. -/
theorem SameStart.eq_nil {cs ds : List Char} (h : SameStart cs ds) (hcs : cs = []) : ds = [] := by
  rw [← List.head?_eq_none_iff, h.head, hcs]
  rfl

/-- A keyword before blanks and a quote is read with the literal. -/
theorem afterKeyword_quote (word cs : List Char) {blanks : List Char}
    (h : ∀ b ∈ blanks, Text.isAsciiBlank b = true) :
    afterKeyword word (blanks ++ '"' :: cs) =
      match (readLiteral cs).path? with
      | some path => (.importing (word ++ blanks ++ ['"']) path, (readLiteral cs).rest)
      | none =>
        (.plain (word ++ blanks ++ '"' :: (readLiteral cs).text), (readLiteral cs).rest) := by
  have hquote : Text.isAsciiBlank '"' = false := by decide
  unfold afterKeyword
  rw [List.takeWhile_append_of_pos h, List.dropWhile_append_of_pos h,
    List.takeWhile_cons_of_neg (by simp [hquote]), List.dropWhile_cons_of_neg (by simp [hquote]),
    List.append_nil]
  rfl

/-- A keyword before anything else is a word like any other. -/
theorem afterKeyword_other (word : List Char) {rest : List Char}
    (h : (rest.dropWhile Text.isAsciiBlank).head? ≠ some '"') :
    afterKeyword word rest = (.plain word, rest) := by
  unfold afterKeyword
  split
  · next cs hcs =>
    rw [hcs] at h
    exact absurd rfl h
  · rfl

/-! ## One step, by what it starts with -/

theorem next_line (cs : List Char) :
    next '/' ('/' :: cs) = (.plain ('/' :: '/' :: (restOfLine cs).1), (restOfLine cs).2) := rfl

theorem next_block (cs : List Char) :
    next '/' ('*' :: cs) = (.plain ('/' :: '*' :: (restOfBlock cs).1), (restOfBlock cs).2) := rfl

theorem next_quote (cs : List Char) :
    next '"' cs = (.plain ('"' :: (readLiteral cs).text), (readLiteral cs).rest) := by
  simp [next]

/-- A word is read up to its end. -/
theorem next_word {c : Char} {cs tail : List Char} (hc : isWordStart c = true)
    (h : tail.head? = (cs.dropWhile isWordChar).head?) :
    next c (cs.takeWhile isWordChar ++ tail) =
      if isKeyword (c :: cs.takeWhile isWordChar) then
        afterKeyword (c :: cs.takeWhile isWordChar) tail
      else (.plain (c :: cs.takeWhile isWordChar), tail) := by
  obtain ⟨hslash, hquote⟩ := ne_of_isWordStart hc
  obtain ⟨htake, hdrop⟩ := takeWhile_append_of_head? h
  simp only [next, hslash, hquote, hc, false_and, if_false, if_true, htake, hdrop]

/-- A character that starts nothing longer is a piece by itself. -/
theorem next_single {c : Char} {cs : List Char}
    (hcomment : c = '/' → cs.head? ≠ some '/' ∧ cs.head? ≠ some '*') (hquote : c ≠ '"')
    (hword : isWordStart c = false) : next c cs = (.plain [c], cs) := by
  have hline : ¬ (c = '/' ∧ cs.head? = some '/') := fun h => (hcomment h.1).1 h.2
  have hblock : ¬ (c = '/' ∧ cs.head? = some '*') := fun h => (hcomment h.1).2 h.2
  rw [next, if_neg hline, if_neg hblock, if_neg hquote, if_neg (by simp [hword])]

/-- A blank is a piece by itself. -/
theorem next_blank {c : Char} (h : Text.isAsciiBlank c = true) (cs : List Char) :
    next c cs = (.plain [c], cs) := by
  simp only [Text.isAsciiBlank, Bool.or_eq_true, beq_iff_eq] at h
  rcases h with (((rfl | rfl) | rfl) | rfl) | rfl <;> rfl

/-! ## Pieces are read again -/

section Reread

variable {t : String → Option String}
  (ht : ∀ path target, t path = some target → IsClean target.toList)
include ht

/-- **What starts with a keyword is read again with another path**, and goes on after the keyword
as it did. -/
theorem afterKeyword_withPath {word rest tail : List Char}
    (h : SameStart (afterKeyword word rest).2 tail) :
    ∃ rest', ((afterKeyword word rest).1.withPath t).text ++ tail = word ++ rest'
      ∧ rest'.head? = rest.head?
      ∧ afterKeyword word rest' = ((afterKeyword word rest).1.withPath t, tail) := by
  by_cases hquote : (rest.dropWhile Text.isAsciiBlank).head? = some '"'
  · obtain ⟨cs, hcs⟩ := List.head?_eq_some_iff.1 hquote
    have hblanks : ∀ b ∈ rest.takeWhile Text.isAsciiBlank, Text.isAsciiBlank b = true :=
      fun b hb => List.all_eq_true.1 List.all_takeWhile b hb
    have hrest : rest = rest.takeWhile Text.isAsciiBlank ++ '"' :: cs := by
      rw [← hcs, List.takeWhile_append_dropWhile]
    generalize rest.takeWhile Text.isAsciiBlank = blanks at hblanks hrest
    subst hrest
    rw [afterKeyword_quote word cs hblanks] at h ⊢
    -- the blanks and the quote stay, so only what the literal holds is in question
    have hhead : ∀ ds : List Char, (blanks ++ '"' :: ds).head? = (blanks ++ '"' :: cs).head? := by
      intro ds
      cases blanks <;> rfl
    cases hpath : (readLiteral cs).path? with
    | none =>
      rw [hpath] at h
      have hlit := readLiteral_append_of_end h.eq_nil
      refine ⟨blanks ++ '"' :: ((readLiteral cs).text ++ tail),
        by simp [Piece.withPath, Piece.text], hhead _, ?_⟩
      rw [afterKeyword_quote word _ hblanks, hlit]
      show (match (readLiteral cs).path? with | some _ => _ | none => _) = _
      rw [hpath]
      rfl
    | some path =>
      rw [hpath] at h
      cases htarget : t (String.ofList path) with
      | none =>
        obtain ⟨hsame, htail⟩ := readLiteral_of_path? hpath h.eq_nil
        refine ⟨blanks ++ '"' :: (path ++ '"' :: tail),
          by simp [Piece.withPath, htarget, Piece.text], hhead _, ?_⟩
        rw [afterKeyword_quote word _ hblanks, hsame]
        simp [Piece.withPath, htarget, htail]
      | some target =>
        have hlit := readLiteral_of_isClean (ht _ _ htarget) tail
        refine ⟨blanks ++ '"' :: (target.toList ++ '"' :: tail),
          by simp [Piece.withPath, htarget, Piece.text], hhead _, ?_⟩
        rw [afterKeyword_quote word _ hblanks, hlit]
        simp [Piece.withPath, htarget, Literal.path?]
  · rw [afterKeyword_other word hquote] at h ⊢
    refine ⟨tail, rfl, h.head, ?_⟩
    rw [← h.headAfterBlanks] at hquote
    exact afterKeyword_other word hquote

/-- **A piece is read again with another path**, before any text that starts as the one after it
did. -/
theorem next_withPath {c : Char} {cs tail : List Char} (h : SameStart (next c cs).2 tail) :
    ∃ ds, ((next c cs).1.withPath t).text ++ tail = c :: ds
      ∧ next c ds = ((next c cs).1.withPath t, tail) := by
  -- the first character or the first two say what is read, and they stay
  by_cases hline : c = '/' ∧ cs.head? = some '/'
  · obtain ⟨rfl, hhead⟩ := hline
    obtain ⟨cs, rfl⟩ := List.head?_eq_some_iff.1 hhead
    rw [next_line] at h ⊢
    refine ⟨'/' :: ((restOfLine cs).1 ++ tail), rfl, ?_⟩
    rw [next_line, restOfLine_append_of_end h.eq_nil]
    rfl
  by_cases hblock : c = '/' ∧ cs.head? = some '*'
  · obtain ⟨rfl, hhead⟩ := hblock
    obtain ⟨cs, rfl⟩ := List.head?_eq_some_iff.1 hhead
    rw [next_block] at h ⊢
    refine ⟨'*' :: ((restOfBlock cs).1 ++ tail), rfl, ?_⟩
    rw [next_block, restOfBlock_append_of_end h.eq_nil]
    rfl
  by_cases hquote : c = '"'
  · subst hquote
    rw [next_quote] at h ⊢
    refine ⟨(readLiteral cs).text ++ tail, rfl, ?_⟩
    rw [next_quote, readLiteral_append_of_end h.eq_nil]
    rfl
  cases hword : isWordStart c with
  | true =>
    have hself : next c cs = if isKeyword (c :: cs.takeWhile isWordChar) then
          afterKeyword (c :: cs.takeWhile isWordChar) (cs.dropWhile isWordChar)
        else (.plain (c :: cs.takeWhile isWordChar), cs.dropWhile isWordChar) := by
      have h : next c (cs.takeWhile isWordChar ++ cs.dropWhile isWordChar) = _ :=
        next_word hword rfl
      rwa [List.takeWhile_append_dropWhile] at h
    cases hkeyword : isKeyword (c :: cs.takeWhile isWordChar) with
    | true =>
      rw [hself, if_pos hkeyword] at h ⊢
      obtain ⟨rest', htext, hhead, hnext⟩ := afterKeyword_withPath ht h
      refine ⟨cs.takeWhile isWordChar ++ rest', htext, ?_⟩
      rw [next_word hword hhead, if_pos hkeyword, hnext]
    | false =>
      rw [hself, if_neg (by simp [hkeyword])] at h ⊢
      refine ⟨cs.takeWhile isWordChar ++ tail, rfl, ?_⟩
      rw [next_word hword h.head, if_neg (by simp [hkeyword])]
      rfl
  | false =>
    have hcomment : c = '/' → cs.head? ≠ some '/' ∧ cs.head? ≠ some '*' :=
      fun hc => ⟨fun hcs => hline ⟨hc, hcs⟩, fun hcs => hblock ⟨hc, hcs⟩⟩
    rw [next_single hcomment hquote hword] at h ⊢
    refine ⟨tail, rfl, ?_⟩
    rw [← h.head] at hcomment
    exact next_single hcomment hquote hword

/-- Changing paths does not change how a text starts. -/
theorem sameStart_retargeted (cs : List Char) :
    SameStart cs (((pieces cs).map (Piece.withPath t)).flatMap Piece.text) := by
  fun_induction pieces cs with
  | case1 => exact ⟨rfl, rfl⟩
  | case2 c cs ih =>
    rw [List.map_cons, List.flatMap_cons]
    obtain ⟨ds, hds, -⟩ := next_withPath ht ih
    refine ⟨by rw [hds]; rfl, ?_⟩
    cases hblank : Text.isAsciiBlank c with
    | true =>
      -- a blank is a piece by itself, so what comes after the blanks is a matter of the rest
      rw [next_blank hblank] at ih ⊢
      show (List.dropWhile _ (c :: _)).head? = _
      rw [List.dropWhile_cons_of_pos hblank, List.dropWhile_cons_of_pos hblank]
      exact ih.headAfterBlanks
    | false =>
      rw [hds, List.dropWhile_cons_of_neg (by simp [hblank]),
        List.dropWhile_cons_of_neg (by simp [hblank])]
      rfl

/-- **A text with other paths in it is cut into the pieces that were meant.** -/
theorem pieces_retargeted (cs : List Char) :
    pieces (((pieces cs).map (Piece.withPath t)).flatMap Piece.text)
      = (pieces cs).map (Piece.withPath t) := by
  fun_induction pieces cs with
  | case1 => exact pieces_nil
  | case2 c cs ih =>
    obtain ⟨ds, hds, hnext⟩ := next_withPath ht (sameStart_retargeted ht (next c cs).2)
    rw [List.map_cons, List.flatMap_cons, hds, pieces_cons, hnext, ih]

omit ht in
/-- The path of a piece after the change. -/
theorem path?_withPath (p : Piece) :
    (p.withPath t).path?.map String.ofList
      = (p.path?.map String.ofList).map fun path => (t path).getD path := by
  cases p with
  | plain text => rfl
  | importing lead path =>
    unfold Piece.withPath
    dsimp only
    cases htarget : t (String.ofList path) with
    | none => simp [Piece.path?, htarget]
    | some target => simp [Piece.path?, htarget]

/-- **The imports of a text with other paths in it**: each one is still there, in its place, under
its new path. -/
theorem map_path_scan_retarget (source : String) :
    (scan (retarget t source)).map (·.path)
      = (scan source).map fun i => (t i.path).getD i.path := by
  have hscan : ∀ s : String, (scan s).map (·.path)
      = (pieces s.toList).filterMap fun p => p.path?.map String.ofList := by
    intro s
    rw [scan, map_path_ofPieces, List.map_filterMap]
  have hold : (scan source).map (fun i => (t i.path).getD i.path)
      = ((scan source).map (·.path)).map fun path => (t path).getD path := by
    rw [List.map_map]
    rfl
  rw [hold, hscan, hscan, retarget, String.toList_ofList, pieces_retargeted ht,
    List.filterMap_map, List.map_filterMap]
  congr 1
  funext p
  exact path?_withPath p

end Reread

end ProofToolchain.Import
