import Mathlib
import ProofToolchain.Proofs.Import.Boundary
import ProofToolchain.Proofs.Import.Reread

/-!
# Scanning a program text byte by byte

The imports of a text are found without cutting it into characters, by a loop over its bytes
(`scanBytes?`): it stands at a position, looks at the byte there, and goes on past a comment, a
literal, a word or that byte alone. Two things may go wrong in it that cannot go wrong with
pieces. It takes words and paths out of the text by their positions, which is refused where they do
not lie between characters, and then nothing is found at all. And after a backslash it goes on two
bytes further, whether or not that is where a character ends, or the text.

Neither does any harm (`scanBytes?_encode`). The loop comes to stand inside a character where it
meets one beyond ASCII, and it goes past the rest of that one byte by byte, as it looks for nothing
but ASCII (`Remains.pass`). Wherever it takes something out it has come to an ASCII character, and
an ASCII character stands between characters.
-/

namespace ProofToolchain.Import

open Text.Utf8

/-! ## The loop -/

/-- The first position from `i` on whose character does not satisfy a test. -/
def pastWhile (p : Char → Bool) (bytes : Bytes) (i : Nat) : Nat :=
  match h : at? bytes i with
  | some c => if p c then pastWhile p bytes (i + 1) else i
  | none => i
termination_by bytes.length - i
decreasing_by
  have := lt_length_of_at? h
  omega

/-- Whether some characters stand at a position. -/
def stands (bytes : Bytes) : List Char → Nat → Bool
  | [], _ => true
  | c :: cs, i => at? bytes i == some c && stands bytes cs (i + 1)

/-- The first position from `i` on at which some characters stand. -/
def find? (word : List Char) (bytes : Bytes) (i : Nat) : Option Nat :=
  if i < bytes.length then
    if stands bytes word i then some i else find? word bytes (i + 1)
  else none
termination_by bytes.length - i

/-- **The position after a literal** whose opening quote stands before `i`. A backslash takes the
next byte with it, whatever it is. -/
def pastLiteral (bytes : Bytes) (i : Nat) : Nat :=
  match h : at? bytes i with
  | some c =>
    if c = '\\' then pastLiteral bytes (i + 2)
    else if c = '"' then i + 1
    else pastLiteral bytes (i + 1)
  | none => bytes.length
termination_by bytes.length - i
decreasing_by
  all_goals
    have := lt_length_of_at? h
    omega

/-- What is found after a keyword that ends before `i`, and where to go on. The last byte of the
literal is looked at again: it may be the end of the text. -/
def afterKeyword? (bytes : Bytes) (i : Nat) : Option (List Import × Nat) :=
  let quote := pastWhile Text.isAsciiBlank bytes i
  if at? bytes quote = some '"' then
    let stop := pastLiteral bytes (quote + 1)
    if at? bytes (stop - 1) = some '"' ∧ quote < stop - 1 then
      (slice? bytes (quote + 1) (stop - 1)).map fun path =>
        ([⟨path, quote + 1, stop - 1⟩], stop)
    else some ([], stop)
  else some ([], i)

/-- What is found at a word that starts at `i`, and where to go on. -/
def word? (bytes : Bytes) (i : Nat) : Option (List Import × Nat) :=
  let stop := pastWhile isWordChar bytes i
  match slice? bytes i stop with
  | some word => if isKeyword word.toList then afterKeyword? bytes stop else some ([], stop)
  | none => none

/-- **One step** at a position where `c` stands: what is found, and where to go on; `none` if
something is taken out of the text that does not lie between characters. -/
def step? (bytes : Bytes) (i : Nat) (c : Char) : Option (List Import × Nat) :=
  if c = '/' ∧ at? bytes (i + 1) = some '/' then
    some ([], ((find? ['\n'] bytes i).map (· + 1)).getD bytes.length)
  else if c = '/' ∧ at? bytes (i + 1) = some '*' then
    some ([], ((find? ['*', '/'] bytes (i + 2)).map (· + 2)).getD bytes.length)
  else if c = '"' then some ([], pastLiteral bytes (i + 1))
  else if isWordStart c then word? bytes i
  else some ([], i + 1)

/-! ### Every step goes on -/

section Progress

variable {bytes : Bytes} {i : Nat}

theorem le_pastWhile (p : Char → Bool) (bytes : Bytes) (i : Nat) : i ≤ pastWhile p bytes i := by
  fun_induction pastWhile p bytes i <;> omega

theorem le_pastLiteral (h : i ≤ bytes.length) : i ≤ pastLiteral bytes i := by
  fun_induction pastLiteral bytes i with
  | case1 i hc ih =>
    have hlt := lt_length_of_at? hc
    rcases Nat.lt_or_ge bytes.length (i + 2) with hend | hle
    · -- the byte that the backslash takes is the end of the text
      have hnone : at? bytes (i + 2) = none := by
        rw [at?, List.getElem?_eq_none (Nat.le_of_lt hend)]
        rfl
      rw [pastLiteral]
      split
      · next c hc' => rw [hnone] at hc'; cases hc'
      · exact h
    · have := ih hle
      omega
  | case2 i hc hescape => omega
  | case3 i c hc hescape hquote ih =>
    have := ih (lt_length_of_at? hc)
    omega
  | case4 i hc => exact h

theorem le_of_find? {word : List Char} {j : Nat} (h : find? word bytes i = some j) : i ≤ j := by
  fun_induction find? word bytes i with
  | case1 i hlt hstands => exact (Option.some.inj h).le
  | case2 i hlt hstands ih =>
    have := ih h
    omega
  | case3 i hlt => cases h

theorem le_of_afterKeyword? {found : List Import} {j : Nat}
    (h : afterKeyword? bytes i = some (found, j)) : i ≤ j := by
  have hblank : i ≤ pastWhile Text.isAsciiBlank bytes i := le_pastWhile _ _ _
  unfold afterKeyword? at h
  dsimp only at h
  split_ifs at h with hquote hclosed
  · obtain ⟨path, -, hpath⟩ := Option.map_eq_some_iff.1 h
    obtain ⟨-, rfl⟩ := Prod.mk.inj hpath
    exact hblank.trans ((Nat.le_succ _).trans (le_pastLiteral (lt_length_of_at? hquote)))
  · cases h
    exact hblank.trans ((Nat.le_succ _).trans (le_pastLiteral (lt_length_of_at? hquote)))
  · cases h
    exact le_rfl

/-- What starts a word is part of it. -/
theorem isWordChar_of_isWordStart {c : Char} (h : isWordStart c = true) : isWordChar c = true := by
  simp only [isWordStart, isWordChar, Char.isAlphanum, Bool.or_eq_true] at h ⊢
  exact h.imp_left Or.inl

theorem lt_of_word? {c : Char} (hc : at? bytes i = some c) (hstart : isWordStart c = true)
    {found : List Import} {j : Nat} (h : word? bytes i = some (found, j)) : i < j := by
  have hstop : i < pastWhile isWordChar bytes i := by
    rw [pastWhile]
    split
    · next d hd =>
      obtain rfl := Option.some.inj (hc.symm.trans hd)
      rw [if_pos (isWordChar_of_isWordStart hstart)]
      exact le_pastWhile _ _ _
    · next hnone => cases hc.symm.trans hnone
  unfold word? at h
  dsimp only at h
  split at h
  · split_ifs at h
    · exact hstop.trans_le (le_of_afterKeyword? h)
    · cases h
      exact hstop
  · cases h

/-- **A step goes on** by at least one byte. -/
theorem lt_of_step? {c : Char} (hc : at? bytes i = some c) {found : List Import} {j : Nat}
    (h : step? bytes i c = some (found, j)) : i < j := by
  have hlt := lt_length_of_at? hc
  unfold step? at h
  split_ifs at h with hline hblock hquote hword
  · cases h
    cases hfind : find? ['\n'] bytes i with
    | none => exact hlt
    | some k => exact Nat.lt_succ_of_le (le_of_find? hfind)
  · cases h
    cases hfind : find? ['*', '/'] bytes (i + 2) with
    | none => exact hlt
    | some k =>
      have hle := le_of_find? hfind
      show i < k + 2
      omega
  · cases h
    exact le_pastLiteral hlt
  · exact lt_of_word? hc hword h
  · cases h
    exact Nat.lt_succ_self i

end Progress

/-- **The loop** from a position on: the imports that it finds, or `none` if one of the things it
takes out of the text does not lie between characters. -/
def scanBytes? (bytes : Bytes) (i : Nat) : Option (List Import) :=
  match _hc : at? bytes i with
  | none => some []
  | some c =>
    match _hstep : step? bytes i c with
    | none => none
    | some (found, j) => (scanBytes? bytes j).map (found ++ ·)
termination_by bytes.length - i
decreasing_by
  exact Nat.sub_lt_sub_left (lt_length_of_at? _hc) (lt_of_step? _hc _hstep)

/-! ## What the loop goes past -/

/-- An ASCII character takes one byte. -/
theorem byteSize_of_isAscii {c : Char} (h : IsAscii c) : byteSize [c] = 1 := by
  rw [← length_encodeChars, encodeChars_cons, utf8EncodeChar_of_isAscii h]
  rfl

/-- The characters of words are ASCII. -/
theorem isAscii_of_isWordChar {c : Char} (h : isWordChar c = true) : IsAscii c := by
  simp only [isWordChar, Char.isAlphanum, Char.isAlpha, Char.isUpper, Char.isLower, Char.isDigit,
    Bool.or_eq_true, Bool.and_eq_true, decide_eq_true_eq, beq_iff_eq, UInt32.le_iff_toNat_le,
    ge_iff_le] at h
  unfold IsAscii
  rcases h with ((h | h) | h) | rfl
  · exact Nat.lt_of_le_of_lt h.2 (by decide)
  · exact Nat.lt_of_le_of_lt h.2 (by decide)
  · exact Nat.lt_of_le_of_lt h.2 (by decide)
  · decide

/-- So are the blanks. -/
theorem isAscii_of_isAsciiBlank {c : Char} (h : Text.isAsciiBlank c = true) : IsAscii c := by
  simp only [Text.isAsciiBlank, Bool.or_eq_true, beq_iff_eq] at h
  rcases h with (((rfl | rfl) | rfl) | rfl) | rfl <;> decide

section Past

variable {bytes : Bytes} {i : Nat} {c : Char} {cs : List Char}

/-- One step of a reader over a run of characters. -/
theorem pastWhile_of_at? {p : Char → Bool} (h : at? bytes i = some c) :
    pastWhile p bytes i = if p c then pastWhile p bytes (i + 1) else i := by
  rw [pastWhile]
  split
  · next d hd => rw [Option.some.inj (h.symm.trans hd)]
  · next hnone => cases h.symm.trans hnone

/-- **The end of a run of ASCII characters.** -/
theorem pastWhile_eq {p : Char → Bool} (hp : ∀ d, p d = true → IsAscii d)
    (h : Remains bytes i cs) : pastWhile p bytes i = i + byteSize (cs.takeWhile p) := by
  induction cs generalizing i with
  | nil =>
    rw [pastWhile]
    split
    · next d hd => cases h.at?_nil.symm.trans hd
    · rfl
  | cons c cs ih =>
    obtain ⟨d, hd, hcd⟩ := h.at?_eq_or
    rw [pastWhile_of_at? hd]
    cases hpc : p c with
    | true =>
      obtain ⟨hc, rfl⟩ : IsAscii c ∧ d = c := hcd.resolve_right fun hnot => hnot.1 (hp c hpc)
      have hrest : Remains bytes (i + byteSize [d]) cs := h.advance
      rw [byteSize_of_isAscii hc] at hrest
      rw [if_pos hpc, ih hrest, List.takeWhile_cons_of_pos hpc, ← List.singleton_append,
        byteSize_append, byteSize_of_isAscii hc, Nat.add_assoc]
    | false =>
      have hpd : p d = false := by
        rcases hcd with ⟨-, rfl⟩ | ⟨-, hd⟩
        · exact hpc
        · exact Bool.eq_false_iff.2 fun hpd => hd (hp d hpd)
      rw [List.takeWhile_cons_of_neg (by simp [hpc]), if_neg (by simp [hpd])]
      rfl

/-- **ASCII characters stand where they come next.** -/
theorem stands_iff {word : List Char} (hword : ∀ a ∈ word, IsAscii a) (h : Remains bytes i cs) :
    stands bytes word i = true ↔ word <+: cs := by
  induction word generalizing i cs with
  | nil => simp [stands]
  | cons a word ih =>
    have ha := hword a List.mem_cons_self
    rw [stands, Bool.and_eq_true, beq_iff_eq, h.at?_eq_some_iff ha]
    cases cs with
    | nil => simp
    | cons c cs =>
      rw [List.head?_cons, Option.some.injEq, List.cons_prefix_cons, eq_comm (a := c)]
      refine and_congr_right fun hac => ?_
      subst hac
      have hrest : Remains bytes (i + byteSize [a]) cs := h.advance
      rw [byteSize_of_isAscii ha] at hrest
      exact ih (fun b hb => hword b (List.mem_cons_of_mem a hb)) hrest

/-- Where nothing ASCII stands, no ASCII character does. -/
theorem not_stands {a d : Char} (word : List Char) (ha : IsAscii a) (hd : ¬ IsAscii d)
    (h : at? bytes i = some d) : stands bytes (a :: word) i = false := by
  have hne : d ≠ a := fun hda => hd (hda ▸ ha)
  simp [stands, h, hne]

/-- **ASCII characters are looked for** from one character to the next. -/
theorem find?_cons {a : Char} {word : List Char} (hword : ∀ b ∈ a :: word, IsAscii b)
    (h : Remains bytes i (c :: cs)) :
    find? (a :: word) bytes i =
      if a :: word <+: c :: cs then some i else find? (a :: word) bytes (i + c.utf8Size) := by
  obtain ⟨d, hd, -⟩ := h.at?_eq_or
  have hpass : find? (a :: word) bytes (i + 1) = find? (a :: word) bytes (i + c.utf8Size) := by
    refine h.pass (find? (a :: word) bytes) fun j e he hnot => ?_
    have hfalse := not_stands word (hword a List.mem_cons_self) hnot he
    rw [find?, if_pos (lt_length_of_at? he), if_neg (by simp [hfalse])]
  rw [find?, if_pos (lt_length_of_at? hd), ← hpass]
  exact if_congr (stands_iff hword h) rfl rfl

/-- Nothing is found at the end. -/
theorem find?_nil (word : List Char) (h : Remains bytes i []) : find? word bytes i = none := by
  rw [find?, if_neg]
  have := length_le_of_at? h.at?_nil
  omega

theorem isAscii_lineFeed : ∀ b ∈ ['\n'], IsAscii b :=
  List.forall_mem_singleton.2 (by decide)

theorem isAscii_blockEnd : ∀ b ∈ ['*', '/'], IsAscii b :=
  List.forall_mem_cons.2 ⟨by decide, List.forall_mem_singleton.2 (by decide)⟩

/-- **The rest of a line** is gone past with its line feed. -/
theorem find?_line (h : Remains bytes i cs) :
    ((find? ['\n'] bytes i).map (· + 1)).getD bytes.length = i + byteSize (restOfLine cs).1 := by
  induction cs generalizing i with
  | nil =>
    rw [find?_nil _ h]
    exact h.add_byteSize.symm
  | cons c cs ih =>
    rw [find?_cons isAscii_lineFeed h]
    by_cases hc : c = '\n'
    · subst hc
      rw [if_pos (by simp)]
      rfl
    · have hnot : ¬ ['\n'] <+: c :: cs := fun hprefix => hc (List.cons_prefix_cons.1 hprefix).1.symm
      have hrest : Remains bytes (i + byteSize [c]) cs := h.advance
      rw [if_neg hnot, show c.utf8Size = byteSize [c] from rfl, ih hrest]
      simp [restOfLine, hc, byteSize, Nat.add_assoc]

/-- **The rest of a block comment** is gone past with its end. -/
theorem find?_block (h : Remains bytes i cs) :
    ((find? ['*', '/'] bytes i).map (· + 2)).getD bytes.length
      = i + byteSize (restOfBlock cs).1 := by
  fun_induction restOfBlock cs generalizing i with
  | case1 =>
    rw [find?_nil _ h]
    exact h.add_byteSize.symm
  | case2 cs =>
    rw [find?_cons isAscii_blockEnd h, if_pos ⟨cs, rfl⟩]
    rfl
  | case3 c cs hopen ih =>
    have hnot : ¬ ['*', '/'] <+: c :: cs := by
      rintro ⟨rest, hrest⟩
      obtain ⟨rfl, rfl⟩ := List.cons.inj hrest
      exact hopen rest rfl rfl
    have hrest : Remains bytes (i + byteSize [c]) cs := h.advance
    rw [find?_cons isAscii_blockEnd h, if_neg hnot, show c.utf8Size = byteSize [c] from rfl,
      ih hrest]
    simp [byteSize, Nat.add_assoc]

/-! ### Literals -/

/-- One step of the reader of literals. -/
theorem pastLiteral_of_at? (h : at? bytes i = some c) :
    pastLiteral bytes i =
      if c = '\\' then pastLiteral bytes (i + 2)
      else if c = '"' then i + 1
      else pastLiteral bytes (i + 1) := by
  rw [pastLiteral]
  split
  · next d hd => rw [Option.some.inj (h.symm.trans hd)]
  · next hnone => cases h.symm.trans hnone

/-- A literal ends with the text at the latest. -/
theorem pastLiteral_of_length_le (h : bytes.length ≤ i) : pastLiteral bytes i = bytes.length := by
  have hnone : at? bytes i = none := by
    rw [at?, List.getElem?_eq_none h]
    rfl
  rw [pastLiteral]
  split
  · next d hd => cases hnone.symm.trans hd
  · rfl

/-- The reader of literals goes past what is not ASCII. -/
theorem pastLiteral_pass (h : Remains bytes i (c :: cs)) :
    pastLiteral bytes (i + 1) = pastLiteral bytes (i + c.utf8Size) := by
  refine h.pass (pastLiteral bytes) fun j d hd hnot => ?_
  have hescape : d ≠ '\\' := fun hde => hnot (hde ▸ by decide)
  have hquote : d ≠ '"' := fun hdq => hnot (hdq ▸ by decide)
  rw [pastLiteral_of_at? hd, if_neg hescape, if_neg hquote]

/-- **The end of a literal.** The byte that a backslash takes with it is the first one of a
character, and the others of that character are gone past. -/
theorem pastLiteral_eq (h : Remains bytes i cs) :
    pastLiteral bytes i = i + byteSize (readLiteral cs).text := by
  fun_induction readLiteral cs generalizing i with
  | case1 =>
    rw [pastLiteral_of_length_le (length_le_of_at? h.at?_nil)]
    exact h.add_byteSize.symm
  | case2 =>
    have hend : i + 1 = bytes.length := h.add_byteSize
    rw [pastLiteral_of_at? (h.at?_of_isAscii (by decide)), if_pos rfl,
      pastLiteral_of_length_le (by omega)]
    exact hend.symm
  | case3 c cs ih =>
    have hchar : Remains bytes (i + byteSize ['\\']) (c :: cs) := h.advance
    have hrest : Remains bytes (i + byteSize ['\\', c]) cs := h.advance
    have hpass := pastLiteral_pass hchar
    rw [Literal.text_prepend, byteSize_append, ← Nat.add_assoc, ← ih hrest,
      pastLiteral_of_at? (h.at?_of_isAscii (by decide)), if_pos rfl]
    exact hpass.trans (congrArg _ (Nat.add_assoc _ _ _))
  | case4 cs =>
    rw [pastLiteral_of_at? (h.at?_of_isAscii (by decide)), if_neg (by decide), if_pos rfl]
    rfl
  | case5 c cs hlast hescape hc ih =>
    have hne : c ≠ '\\' := by
      rintro rfl
      cases cs with
      | nil => exact hlast rfl rfl
      | cons d cs => exact hescape d cs rfl rfl
    obtain ⟨d, hd, -⟩ := h.at?_eq_or
    have hdescape : d ≠ '\\' := by
      rintro rfl
      exact hne (Option.some.inj ((h.at?_eq_some_iff (by decide)).1 hd))
    have hdquote : d ≠ '"' := by
      rintro rfl
      exact hc (Option.some.inj ((h.at?_eq_some_iff (by decide)).1 hd))
    have hrest : Remains bytes (i + byteSize [c]) cs := h.advance
    rw [Literal.text_prepend, byteSize_append, ← Nat.add_assoc, ← ih hrest,
      pastLiteral_of_at? hd, if_neg hdescape, if_neg hdquote]
    exact pastLiteral_pass h

end Past

/-! ## The loop finds what the pieces hold -/

/-- A literal holds a path if it ends with a quote. -/
theorem Literal.path?_eq (l : Literal) :
    l.path? = if l.text.getLast? = some '"' then some l.text.dropLast else none := by
  cases hclosed : l.closed <;> simp [Literal.path?, Literal.text, hclosed]

section Steps

variable {bytes : Bytes} {i : Nat} {c : Char} {cs word rest : List Char}

/-- **The last byte of a character** is an ASCII character only if it is all there is. -/
theorem at?_last (h : Remains bytes i (c :: cs)) {a : Char} (ha : IsAscii a) :
    at? bytes (i + c.utf8Size - 1) = some a ↔ c = a := by
  have hpos := c.utf8Size_pos
  by_cases hone : c.utf8Size = 1
  · rw [hone, Nat.add_sub_cancel, h.at?_eq_some_iff ha, List.head?_cons, Option.some.injEq]
  · obtain ⟨d, hd, hnot⟩ := h.at?_inside (k := c.utf8Size - 1) (by omega) (by omega)
    rw [Nat.add_sub_assoc hpos, hd]
    have hda : d ≠ a := fun hda => hnot (hda ▸ ha)
    have hca : c ≠ a := by
      rintro rfl
      exact hone (byteSize_of_isAscii ha)
    simp [hda, hca]

/-- **A literal is an import's** if it ends with a quote that is not its first. -/
theorem closing_iff {text : List Char} (h : Remains bytes (i + 1) (text ++ rest)) :
    (at? bytes (i + 1 + byteSize text - 1) = some '"' ∧ i < i + 1 + byteSize text - 1)
      ↔ text.getLast? = some '"' := by
  rcases List.eq_nil_or_concat' text with rfl | ⟨init, last, rfl⟩
  · simp [byteSize]
  · rw [List.append_assoc] at h
    have hpos := last.utf8Size_pos
    have hlast := at?_last h.advance (a := '"') (by decide)
    have hsize : byteSize (init ++ [last]) = byteSize init + last.utf8Size := by
      simp [byteSize]
    rw [hsize, ← Nat.add_assoc, hlast, List.getLast?_concat, Option.some.injEq]
    exact and_iff_left (by omega)

/-- The literal after a keyword and some blanks: its path is what is found. -/
theorem afterKeyword?_quote {blanks : List Char}
    (hblanks : ∀ b ∈ blanks, Text.isAsciiBlank b = true)
    (h : Remains bytes i (blanks ++ '"' :: cs)) :
    afterKeyword? bytes i =
      some (((readLiteral cs).path?.map fun path =>
          let start := i + byteSize blanks + 1
          ⟨String.ofList path, start, start + byteSize path⟩).toList,
        i + byteSize blanks + 1 + byteSize (readLiteral cs).text) := by
  have hquote : pastWhile Text.isAsciiBlank bytes i = i + byteSize blanks := by
    rw [pastWhile_eq (fun _ => isAscii_of_isAsciiBlank) h,
      (takeWhile_append_of_stop hblanks (by rintro d ⟨⟩; decide)).1]
  have hopening : Remains bytes (i + byteSize blanks) (['"'] ++ cs) := h.advance
  have hliteral : Remains bytes (i + byteSize blanks + 1) cs := hopening.advance
  have htext : Remains bytes (i + byteSize blanks + 1)
      ((readLiteral cs).text ++ (readLiteral cs).rest) := by
    rwa [readLiteral_append]
  unfold afterKeyword?
  rw [hquote, if_pos (h.advance.at?_of_isAscii (by decide)), pastLiteral_eq hliteral,
    Literal.path?_eq]
  dsimp only
  rw [if_congr (closing_iff htext) rfl rfl]
  split_ifs with hlast
  · obtain ⟨path, hpath⟩ := List.getLast?_eq_some_iff.1 hlast
    rw [hpath, List.append_assoc] at htext
    rw [hpath, List.dropLast_concat, byteSize_append, byteSize_of_isAscii (by decide),
      ← Nat.add_assoc, Nat.add_sub_cancel, htext.slice?_eq]
    rfl
  · rfl

/-- **What is found after a keyword** is what its piece holds. -/
theorem afterKeyword?_eq (h : Remains bytes i (word ++ rest)) :
    afterKeyword? bytes (i + byteSize word)
      = some (ofPieces i [(afterKeyword word rest).1],
          i + byteSize (afterKeyword word rest).1.text) := by
  have hrest := h.advance
  have hsplit := List.takeWhile_append_dropWhile (p := Text.isAsciiBlank) (l := rest)
  by_cases hhead : (rest.dropWhile Text.isAsciiBlank).head? = some '"'
  · obtain ⟨blanks, cs, hblanks, rfl⟩ : ∃ blanks cs,
        (∀ b ∈ blanks, Text.isAsciiBlank b = true) ∧ rest = blanks ++ '"' :: cs := by
      obtain ⟨cs, hcs⟩ := List.head?_eq_some_iff.1 hhead
      exact ⟨_, cs, List.all_eq_true.1 List.all_takeWhile, by rw [← hcs, hsplit]⟩
    have hsize : ∀ ds, byteSize ('"' :: ds) = 1 + byteSize ds := fun ds => rfl
    rw [afterKeyword?_quote hblanks hrest, afterKeyword_quote word cs hblanks]
    cases hpath : (readLiteral cs).path? with
    | none =>
      simp only [ofPieces, Piece.text, byteSize_append, hsize, Option.map_none,
        Option.toList_none, Nat.add_assoc]
    | some path =>
      have hquote : byteSize ['"'] = 1 := rfl
      simp only [ofPieces, Piece.text, Literal.text_of_path? hpath, byteSize_append, hquote,
        Option.map_some, Option.toList_some, Nat.add_assoc]
  · have hquote := pastWhile_eq (fun _ => isAscii_of_isAsciiBlank) hrest
    have hstop := hrest
    rw [← hsplit] at hstop
    have hnot := mt (hstop.advance.at?_eq_some_iff (a := '"') (by decide)).1 hhead
    unfold afterKeyword?
    rw [hquote, if_neg hnot, afterKeyword_other word hhead]
    rfl

/-- What is found at a word. -/
theorem word?_eq (hstart : isWordStart c = true) (h : Remains bytes i (c :: cs)) :
    word? bytes i =
      if isKeyword (c :: cs.takeWhile isWordChar) then
        afterKeyword? bytes (i + byteSize (c :: cs.takeWhile isWordChar))
      else some ([], i + byteSize (c :: cs.takeWhile isWordChar)) := by
  have htake : (c :: cs).takeWhile isWordChar = c :: cs.takeWhile isWordChar :=
    List.takeWhile_cons_of_pos (isWordChar_of_isWordStart hstart)
  have hword : Remains bytes i ((c :: cs.takeWhile isWordChar) ++ cs.dropWhile isWordChar) := by
    rwa [List.cons_append, List.takeWhile_append_dropWhile]
  unfold word?
  dsimp only
  rw [pastWhile_eq (fun _ => isAscii_of_isWordChar) h, htake, hword.slice?_eq]
  dsimp only
  rw [String.toList_ofList]

/-- **One step of the loop finds what the next piece holds** and goes on after it. -/
theorem step?_eq (hc : IsAscii c) (h : Remains bytes i (c :: cs)) :
    step? bytes i c
      = some (ofPieces i [(next c cs).1], i + byteSize (next c cs).1.text) := by
  have hrest : Remains bytes (i + 1) cs := by
    rw [← byteSize_of_isAscii hc]
    exact h.advance
  have hslash := hrest.at?_eq_some_iff (a := '/') (by decide)
  have hstar := hrest.at?_eq_some_iff (a := '*') (by decide)
  have hsize : byteSize [c] = 1 := byteSize_of_isAscii hc
  unfold step? next
  simp only [hslash, hstar]
  split_ifs with hline hblock hquote hword hkeyword
  · obtain ⟨rfl, -⟩ := hline
    rw [find?_line h]
    rfl
  · obtain ⟨rfl, hhead⟩ := hblock
    obtain ⟨tl, rfl⟩ := List.head?_eq_some_iff.1 hhead
    have hopening : Remains bytes i (['/', '*'] ++ tl) := h
    have hbody : Remains bytes (i + 2) tl := hopening.advance
    have hstart : byteSize ('/' :: '*' :: (restOfBlock tl).1) = 2 + byteSize (restOfBlock tl).1 :=
      byteSize_append ['/', '*'] _
    rw [find?_block hbody, Nat.add_assoc, ← hstart]
    rfl
  · subst hquote
    rw [pastLiteral_eq hrest, Nat.add_assoc]
    rfl
  · rw [word?_eq hword h, if_pos hkeyword]
    exact afterKeyword?_eq (by rwa [List.cons_append, List.takeWhile_append_dropWhile])
  · rw [word?_eq hword h, if_neg hkeyword]
    rfl
  · rw [← hsize]
    rfl

end Steps

/-- The pieces after the first one stand where it ends. -/
theorem ofPieces_cons (i : Nat) (p : Piece) (ps : List Piece) :
    ofPieces i (p :: ps) = ofPieces i [p] ++ ofPieces (i + byteSize p.text) ps := by
  cases p <;> rfl

/-- One round of the loop. -/
theorem scanBytes?_of_step? {bytes : Bytes} {i j : Nat} {c : Char} {found : List Import}
    (hc : at? bytes i = some c) (hstep : step? bytes i c = some (found, j)) :
    scanBytes? bytes i = (scanBytes? bytes j).map (found ++ ·) := by
  rw [scanBytes?]
  split
  · next hnone => cases hc.symm.trans hnone
  · next d hd =>
    obtain rfl := Option.some.inj (hc.symm.trans hd)
    split
    · next hnone => cases hstep.symm.trans hnone
    · next found' j' hstep' => cases hstep.symm.trans hstep'; rfl

/-- The loop goes past what is not ASCII. -/
theorem step?_of_not_isAscii {bytes : Bytes} {i : Nat} {d : Char} (hd : ¬ IsAscii d) :
    step? bytes i d = some ([], i + 1) := by
  have hslash : d ≠ '/' := fun h => hd (h ▸ by decide)
  have hquote : d ≠ '"' := fun h => hd (h ▸ by decide)
  have hword : ¬ isWordStart d = true := fun h =>
    hd (isAscii_of_isWordChar (isWordChar_of_isWordStart h))
  simp [step?, hslash, hquote, hword]

theorem scanBytes?_succ {bytes : Bytes} {i : Nat} {d : Char} (h : at? bytes i = some d)
    (hd : ¬ IsAscii d) : scanBytes? bytes i = scanBytes? bytes (i + 1) := by
  rw [scanBytes?_of_step? h (step?_of_not_isAscii hd)]
  exact Option.map_id_apply

/-- **The loop finds what the pieces hold** that are left. -/
theorem scanBytes?_eq {bytes : Bytes} {i : Nat} {cs : List Char} (h : Remains bytes i cs) :
    scanBytes? bytes i = some (ofPieces i (pieces cs)) := by
  fun_induction pieces cs generalizing i with
  | case1 =>
    rw [scanBytes?]
    split
    · rfl
    · next d hd => cases h.at?_nil.symm.trans hd
  | case2 c cs ih =>
    by_cases hc : IsAscii c
    · have hrest : Remains bytes (i + byteSize (next c cs).1.text) (next c cs).2 := by
        refine Remains.advance ?_
        rwa [next_append]
      rw [scanBytes?_of_step? (h.at?_of_isAscii hc) (step?_eq hc h), ih hrest,
        ofPieces_cons i _ (pieces _)]
      rfl
    · -- a character beyond ASCII is a piece by itself, which takes as many rounds as it has bytes
      obtain ⟨d, hd, ⟨hascii, -⟩ | ⟨-, hnot⟩⟩ := h.at?_eq_or
      · exact absurd hascii hc
      have hsingle : next c cs = (.plain [c], cs) :=
        next_single (fun hslash => absurd (hslash ▸ by decide) hc)
          (fun hquote => hc (hquote ▸ by decide))
          (Bool.eq_false_iff.2 fun hword =>
            hc (isAscii_of_isWordChar (isWordChar_of_isWordStart hword)))
      rw [hsingle] at ih ⊢
      have hrest : Remains bytes (i + byteSize [c]) cs := h.advance
      rw [scanBytes?_succ hd hnot, h.pass (scanBytes? bytes) fun _ _ => scanBytes?_succ]
      exact ih hrest

/-- **The loop over the bytes of a text** finds the imports of the text, and never takes anything
out of it that does not lie between characters. -/
theorem scanBytes?_encode (source : String) :
    scanBytes? (encode source) 0 = some (scan source) :=
  scanBytes?_eq (remains_zero source)

end ProofToolchain.Import
