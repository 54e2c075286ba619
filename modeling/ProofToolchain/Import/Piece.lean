import ProofToolchain.Text.Blank

/-!
# The imports of a program text

A program text names another file as `from "<path>" import ...;` or as `import "<path>" as ...;`.
Only the keyword and the literal after it matter here: what stands between them is blank, and what
follows the literal is for the compiler to judge.

The text is cut into **pieces** from left to right (`pieces`). A piece is a comment, a literal, a
word or a single other character, and it is either *plain* or an *import*, which is a keyword, the
blanks after it and a literal taken together. Nothing is lost in the cut: the pieces put together
are the text again (`flatMap_text_pieces`), so an import may be led elsewhere by replacing the path
of its piece and leaving all others as they are.

## What hides an import

* A comment runs to the end of its line, or to the first `*/` after its opening `/*`; a comment
  that is never closed runs to the end of the text. Nothing in a comment is an import, and a
  comment between the keyword and the literal separates them.
* In a literal a backslash takes the next character with it, whatever it is. A literal that is
  never closed runs to the end of the text, and the quote closing an import's literal is then the
  last character of the text if that is a quote (`Literal.path?`).
* A word is a maximal run of ASCII letters, digits and underscores that starts with no digit, so a
  keyword inside a longer word is none.
-/

namespace ProofToolchain.Import

/-! ## Comments -/

/-- The rest of a line, its line feed included, and what follows it. -/
def restOfLine : List Char → List Char × List Char
  | [] => ([], [])
  | c :: cs =>
    if c = '\n' then ([c], cs)
    else (c :: (restOfLine cs).1, (restOfLine cs).2)

/-- The rest of a block comment, its closing `*/` included, and what follows it. -/
def restOfBlock : List Char → List Char × List Char
  | [] => ([], [])
  | '*' :: '/' :: cs => (['*', '/'], cs)
  | c :: cs => (c :: (restOfBlock cs).1, (restOfBlock cs).2)

@[simp] theorem restOfLine_append (cs : List Char) :
    (restOfLine cs).1 ++ (restOfLine cs).2 = cs := by
  induction cs with
  | nil => rfl
  | cons c cs ih =>
    unfold restOfLine
    split
    · rfl
    · simp [ih]

@[simp] theorem restOfBlock_append (cs : List Char) :
    (restOfBlock cs).1 ++ (restOfBlock cs).2 = cs := by
  fun_induction restOfBlock cs with
  | case1 => rfl
  | case2 cs => rfl
  | case3 c cs _ ih => simp [ih]

/-! ## Literals -/

/-- **A literal**, as it is read after its opening quote. -/
structure Literal where
  /-- The text between the quotes, escapes as they are written. -/
  body : List Char
  /-- Whether a closing quote was found. -/
  closed : Bool
  /-- The text after the literal. -/
  rest : List Char

/-- A literal with more text at the start of its body. -/
def Literal.prepend (cs : List Char) (l : Literal) : Literal :=
  { l with body := cs ++ l.body }

/-- What a literal takes of the text, its closing quote included. -/
def Literal.text (l : Literal) : List Char :=
  if l.closed then l.body ++ ['"'] else l.body

/-- The path that a literal holds, if it is delimited by a quote on both sides. The last quote of
a literal that is never closed delimits it too. -/
def Literal.path? (l : Literal) : Option (List Char) :=
  if l.closed then some l.body
  else if l.body.getLast? = some '"' then some l.body.dropLast
  else none

/-- The literal that a text starts with, its opening quote being read already. -/
def readLiteral : List Char → Literal
  | [] => ⟨[], false, []⟩
  | ['\\'] => ⟨['\\'], false, []⟩
  | '\\' :: c :: cs => (readLiteral cs).prepend ['\\', c]
  | c :: cs => if c = '"' then ⟨[], true, cs⟩ else (readLiteral cs).prepend [c]

@[simp] theorem Literal.text_prepend (cs : List Char) (l : Literal) :
    (l.prepend cs).text = cs ++ l.text := by
  cases h : l.closed <;> simp [Literal.text, Literal.prepend, h]

@[simp] theorem Literal.rest_prepend (cs : List Char) (l : Literal) :
    (l.prepend cs).rest = l.rest := rfl

@[simp] theorem readLiteral_append (cs : List Char) :
    (readLiteral cs).text ++ (readLiteral cs).rest = cs := by
  fun_induction readLiteral cs with
  | case1 => rfl
  | case2 => rfl
  | case3 c cs ih => simp [ih]
  | case4 => rfl
  | case5 c cs _ _ _ ih => simp [ih]

/-- Only a literal that runs to the end of the text is left open. -/
theorem readLiteral_rest_of_open {cs : List Char} (h : (readLiteral cs).closed = false) :
    (readLiteral cs).rest = [] := by
  fun_induction readLiteral cs with
  | case1 => rfl
  | case2 => rfl
  | case3 c cs ih => exact ih h
  | case4 => simp at h
  | case5 c cs _ _ _ ih => exact ih h

/-- A literal that holds a path is the path and a quote. -/
theorem Literal.text_of_path? {l : Literal} {path : List Char} (h : l.path? = some path) :
    l.text = path ++ ['"'] := by
  unfold Literal.path? at h
  split at h
  · next hc => simp [Literal.text, hc, Option.some.inj h]
  · split at h
    · next hc hlast =>
      obtain ⟨ys, hys⟩ := List.getLast?_eq_some_iff.1 hlast
      rw [hys, List.dropLast_concat] at h
      simp [Literal.text, hc, hys, Option.some.inj h]
    · simp at h

/-! ## Words -/

/-- Whether a word may start with a character. -/
def isWordStart (c : Char) : Bool :=
  c.isAlpha || c == '_'

/-- Whether a word may go on with a character. -/
def isWordChar (c : Char) : Bool :=
  c.isAlphanum || c == '_'

/-- The words after which a literal names a file. -/
def isKeyword (word : List Char) : Bool :=
  word == "from".toList || word == "import".toList

/-! ## Pieces -/

/-- **A piece of a program text.** -/
inductive Piece where
  /-- Text without an import. -/
  | plain (text : List Char)
  /-- An import: `lead` is the keyword, the blanks and the opening quote; a closing quote follows
  the path. -/
  | importing (lead path : List Char)

/-- The text of a piece. -/
def Piece.text : Piece → List Char
  | .plain text => text
  | .importing lead path => lead ++ path ++ ['"']

/-- The path that a piece imports. -/
def Piece.path? : Piece → Option (List Char)
  | .plain _ => none
  | .importing _ path => some path

/-- The piece that starts with a keyword, given the text after the keyword, and what follows it. -/
def afterKeyword (word rest : List Char) : Piece × List Char :=
  let blanks := rest.takeWhile Text.isAsciiBlank
  match rest.dropWhile Text.isAsciiBlank with
  | '"' :: cs =>
    let l := readLiteral cs
    match l.path? with
    | some path => (.importing (word ++ blanks ++ ['"']) path, l.rest)
    | none => (.plain (word ++ blanks ++ '"' :: l.text), l.rest)
  | _ => (.plain word, rest)

/-- **The first piece of a text** that starts with `c`, and what follows it. -/
def next (c : Char) (cs : List Char) : Piece × List Char :=
  if c = '/' ∧ cs.head? = some '/' then
    (.plain (c :: (restOfLine cs).1), (restOfLine cs).2)
  else if c = '/' ∧ cs.head? = some '*' then
    (.plain ('/' :: '*' :: (restOfBlock cs.tail).1), (restOfBlock cs.tail).2)
  else if c = '"' then
    (.plain ('"' :: (readLiteral cs).text), (readLiteral cs).rest)
  else if isWordStart c then
    let word := c :: cs.takeWhile isWordChar
    let rest := cs.dropWhile isWordChar
    if isKeyword word then afterKeyword word rest else (.plain word, rest)
  else (.plain [c], cs)

theorem afterKeyword_append (word rest : List Char) :
    (afterKeyword word rest).1.text ++ (afterKeyword word rest).2 = word ++ rest := by
  have hrest : rest.takeWhile Text.isAsciiBlank ++ rest.dropWhile Text.isAsciiBlank = rest :=
    List.takeWhile_append_dropWhile
  unfold afterKeyword
  split
  · next cs hcs =>
    rw [hcs] at hrest
    have hl := readLiteral_append cs
    dsimp only
    split
    · next path hp =>
      rw [Literal.text_of_path? hp] at hl
      simp only [Piece.text, List.append_assoc] at hl ⊢
      rw [hl, List.singleton_append, hrest]
    · simp only [Piece.text, List.append_assoc, List.cons_append]
      rw [hl, hrest]
  · rfl

/-- **A step loses nothing.** -/
@[simp] theorem next_append (c : Char) (cs : List Char) :
    (next c cs).1.text ++ (next c cs).2 = c :: cs := by
  unfold next
  split
  · simp [Piece.text]
  · split
    · next h =>
      obtain ⟨tl, htl⟩ := List.head?_eq_some_iff.1 h.2
      simp [Piece.text, h.1, htl]
    · split
      · next h => simp [Piece.text, h]
      · split
        · have hword : cs.takeWhile isWordChar ++ cs.dropWhile isWordChar = cs :=
            List.takeWhile_append_dropWhile
          dsimp only
          split
          · rw [afterKeyword_append, List.cons_append, hword]
          · simp [Piece.text]
        · rfl

theorem afterKeyword_ne_nil {word : List Char} (h : word ≠ []) (rest : List Char) :
    (afterKeyword word rest).1.text ≠ [] := by
  unfold afterKeyword
  split
  · dsimp only
    split <;> simp [Piece.text]
  · simpa [Piece.text] using h

/-- A step takes at least one character. -/
theorem next_text_ne_nil (c : Char) (cs : List Char) : (next c cs).1.text ≠ [] := by
  unfold next
  split
  · simp [Piece.text]
  · split
    · simp [Piece.text]
    · split
      · simp [Piece.text]
      · split
        · dsimp only
          split
          · exact afterKeyword_ne_nil (by simp) _
          · simp [Piece.text]
        · simp [Piece.text]

theorem next_length_lt (c : Char) (cs : List Char) :
    (next c cs).2.length < (c :: cs).length := by
  have h := congrArg List.length (next_append c cs)
  have hpos : 0 < (next c cs).1.text.length := List.length_pos_iff.2 (next_text_ne_nil c cs)
  rw [List.length_append] at h
  omega

/-- **The pieces of a text**, from left to right. -/
def pieces : List Char → List Piece
  | [] => []
  | c :: cs => (next c cs).1 :: pieces (next c cs).2
termination_by cs => cs.length
decreasing_by exact next_length_lt c cs

@[simp] theorem pieces_nil : pieces [] = [] := by
  rw [pieces]

theorem pieces_cons (c : Char) (cs : List Char) :
    pieces (c :: cs) = (next c cs).1 :: pieces (next c cs).2 := by
  rw [pieces]

/-- **The pieces put together are the text.** -/
theorem flatMap_text_pieces (cs : List Char) : (pieces cs).flatMap Piece.text = cs := by
  fun_induction pieces cs with
  | case1 => rfl
  | case2 c cs ih => rw [List.flatMap_cons, ih, next_append]

end ProofToolchain.Import
