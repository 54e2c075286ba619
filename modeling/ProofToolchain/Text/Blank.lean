/-!
# Blanks, words and lines

Texts are taken apart as lists of characters. Everything here is one recursion, `split`, which
cuts a list at the characters satisfying a test, and two readings of it: the **words** of a text
are its non-empty pieces between blanks, and its **lines** are its pieces between line feeds.

Two notions of blank are in use. `isBlank` is the white space of Unicode, which trims the output
of the proof tool and separates the words of a witness file; `isAsciiBlank` is the five ASCII
blanks a program text may hold between a keyword and a literal.
-/

namespace ProofToolchain.Text

/-- **The white space of Unicode**: the characters with property `White_Space`. -/
def isBlank (c : Char) : Bool :=
  let n := c.toNat
  (0x9 ≤ n && n ≤ 0xD) || n == 0x20 || n == 0x85 || n == 0xA0 || n == 0x1680
    || (0x2000 ≤ n && n ≤ 0x200A) || n == 0x2028 || n == 0x2029 || n == 0x202F
    || n == 0x205F || n == 0x3000

/-- **The blanks of a program text**: space, tab, line feed, form feed and carriage return. The
vertical tab is not one of them. -/
def isAsciiBlank (c : Char) : Bool :=
  c == ' ' || c == '\t' || c == '\n' || c == '\x0c' || c == '\r'

/-- The pieces of a text between the characters that satisfy `p`; there is always one more piece
than there are separators. -/
def split (p : Char → Bool) : List Char → List (List Char)
  | [] => [[]]
  | c :: cs =>
    if p c then [] :: split p cs
    else match split p cs with
      | [] => [[c]]
      | w :: ws => (c :: w) :: ws

@[simp] theorem split_nil (p : Char → Bool) : split p [] = [[]] := rfl

@[simp] theorem split_cons_of_pos {p : Char → Bool} {c : Char} (h : p c = true) (cs : List Char) :
    split p (c :: cs) = [] :: split p cs := by
  simp [split, h]

theorem split_ne_nil (p : Char → Bool) (cs : List Char) : split p cs ≠ [] := by
  cases cs with
  | nil => simp
  | cons c cs =>
    unfold split
    split
    · simp
    · split <;> simp

/-- A character that is not a separator joins the first piece. -/
theorem split_cons_of_neg {p : Char → Bool} {c : Char} (h : p c = false) {cs w : List Char}
    {ws : List (List Char)} (hs : split p cs = w :: ws) :
    split p (c :: cs) = (c :: w) :: ws := by
  simp [split, h, hs]

/-- A text without separators is its own only piece. -/
theorem split_of_forall_neg {p : Char → Bool} {cs : List Char} (h : ∀ c ∈ cs, p c = false) :
    split p cs = [cs] := by
  induction cs with
  | nil => rfl
  | cons c cs ih =>
    exact split_cons_of_neg (h c (by simp)) (ih fun d hd => h d (by simp [hd]))

/-- A separator closes the pieces before it. -/
theorem split_append_sep {p : Char → Bool} {c : Char} (hc : p c = true) (a b : List Char) :
    split p (a ++ c :: b) = split p a ++ split p b := by
  induction a with
  | nil => simp [split_cons_of_pos hc]
  | cons d a ih =>
    cases hd : p d with
    | true => simp [split_cons_of_pos hd, ih]
    | false =>
      obtain ⟨w, ws, hw⟩ := List.exists_cons_of_ne_nil (split_ne_nil p a)
      rw [List.cons_append, split_cons_of_neg hd (by rw [ih, hw]; rfl), split_cons_of_neg hd hw]
      rfl

/-- **The words of a text**: its pieces between blanks, empty ones left out. -/
def words (cs : List Char) : List (List Char) :=
  (split isBlank cs).filter (!·.isEmpty)

/-- A text without its leading and trailing blanks. -/
def trim (cs : List Char) : List Char :=
  ((cs.dropWhile isBlank).reverse.dropWhile isBlank).reverse

/-- A line without the carriage return at its end, if it has one. -/
def dropReturn (line : List Char) : List Char :=
  if line.getLast? = some '\r' then line.dropLast else line

/-- **The lines of a text.** A line ends with a line feed or with a carriage return and a line
feed; what follows the last line feed is a line too unless it is empty, and keeps a carriage
return it may end with. -/
def lines (cs : List Char) : List (List Char) :=
  let pieces := split (· == '\n') cs
  let ended := pieces.dropLast.map dropReturn
  match pieces.getLast? with
  | none | some [] => ended
  | some last => ended ++ [last]

/-- Whether `needle` occurs in a text as a run of consecutive characters. -/
def contains (needle : List Char) : List Char → Bool
  | [] => needle.isEmpty
  | c :: cs => needle.isPrefixOf (c :: cs) || contains needle cs

/-- Pieces put together with a separator between them. -/
def join (sep : List Char) : List (List Char) → List Char
  | [] => []
  | [w] => w
  | w :: ws => w ++ sep ++ join sep ws

/-- Joining the pieces with their separator gives the text back. -/
theorem join_split (c : Char) (cs : List Char) : join [c] (split (· == c) cs) = cs := by
  induction cs with
  | nil => rfl
  | cons d cs ih =>
    obtain ⟨w, ws, hw⟩ := List.exists_cons_of_ne_nil (split_ne_nil (· == c) cs)
    cases hd : d == c with
    | true =>
      rw [split_cons_of_pos (p := (· == c)) hd, hw]
      simp only [join, List.nil_append, List.singleton_append]
      rw [← hw, ih, eq_of_beq hd]
    | false =>
      rw [split_cons_of_neg (p := (· == c)) hd hw]
      rw [hw] at ih
      cases ws with
      | nil => simpa [join] using ih
      | cons v vs => simpa [join] using ih

end ProofToolchain.Text
