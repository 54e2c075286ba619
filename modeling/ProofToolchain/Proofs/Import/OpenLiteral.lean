import Mathlib
import ProofToolchain.Proofs.Import.Grammar

/-!
# Literals that are never closed

A literal without a closing quote runs to the end of the text. It names no file, so the imports of
such a text should be those of the text before its opening quote (`IgnoresOpen`).

Whether a literal is closed is told by its last character, though, which is a quote if it is. The
last character of a literal that is not closed can be a quote too, one that is escaped. That is the
only way to go wrong: a literal with such an end is an import where it follows a keyword, under a
path that ends with the backslash, and any other open literal is ignored (`ignoresOpen_iff`).

The text before the opening quote is read on its own here, and it is cut into the tokens that it had
as part of the whole (`Tokenizes.take`), since a token that ends where it does ends there as well if
less text follows.
-/

namespace ProofToolchain.Import

/-! ## Parts of a cut -/

/-- A token that ends before a text ends before the first part of it. -/
theorem Token.StopsBefore.of_append {t : Token} {rest more : List Char}
    (h : t.StopsBefore (rest ++ more)) : t.StopsBefore rest := by
  have hhead : ∀ c ∈ rest.head?, c ∈ (rest ++ more).head? := by
    intro c hc
    obtain ⟨cs, rfl⟩ := List.head?_eq_some_iff.1 hc
    rfl
  cases t with
  | line body => exact fun c hc => h c (hhead c hc)
  | block body closed => exact fun hclosed => (List.append_eq_nil_iff.1 (h hclosed)).1
  | literal body closed => exact fun hclosed => (List.append_eq_nil_iff.1 (h hclosed)).1
  | word text => exact fun c hc => h c (hhead c hc)
  | other c => exact fun hc d hd => h hc d (hhead d hd)

/-- **The first tokens of a text are a cut of their own text.** -/
theorem Tokenizes.take {cs : List Char} {before after : List Token}
    (h : Tokenizes cs (before ++ after)) : Tokenizes (before.flatMap Token.text) before := by
  induction before generalizing cs with
  | nil => exact .nil
  | cons t before ih =>
    rw [List.cons_append] at h
    cases h with
    | cons hlexeme hstop hrest =>
      rw [← hrest.flatMap_text, List.flatMap_append] at hstop
      exact .cons hlexeme hstop.of_append (ih hrest)

/-- The other tokens are a cut of the rest. -/
theorem Tokenizes.drop {cs : List Char} {before after : List Token}
    (h : Tokenizes cs (before ++ after)) : ∃ rest, Tokenizes rest after := by
  induction before generalizing cs with
  | nil => exact ⟨cs, h⟩
  | cons t before ih =>
    cases h with
    | cons _ _ hrest => exact ih hrest

/-- No token comes after a literal that is not closed. -/
theorem Tokenizes.eq_nil_of_open {cs body : List Char} {before after : List Token}
    (h : Tokenizes cs (before ++ .literal body false :: after)) : after = [] := by
  obtain ⟨rest, hrest⟩ := h.drop
  cases hrest with
  | cons _ hstop hafter =>
    have hempty := hstop rfl
    subst hempty
    rw [hafter.eq_tokens, tokens]

/-- The imports among some tokens are those among the first ones and those among the others. -/
theorem importsFrom_append (skips : Token → Bool) (before ts us : List Token) :
    importsFrom skips before (ts ++ us)
      = importsFrom skips before ts ++ importsFrom skips (before ++ ts) us := by
  induction ts generalizing before with
  | nil => simp [importsFrom]
  | cons t ts ih =>
    rw [List.cons_append, importsFrom, ih, importsFrom, List.append_assoc, List.append_assoc]
    rfl

/-! ## A text that ends in an open literal -/

/-- **A text ends in a literal that is not closed**: it is cut as `head` is, and then comes the
literal, with `body` after its opening quote. -/
def LeavesOpen (source head : String) (body : List Char) : Prop :=
  tokens source.toList = tokens head.toList ++ [.literal body false]

/-- **The last literal of a text looks closed**: it follows a keyword, and the text ends with a
quote. -/
def LooksClosed (head : String) (body : List Char) : Prop :=
  isAfterKeyword Token.isBlank (tokens head.toList) = true ∧ body.getLast? = some '"'

/-- The text is what comes before the literal, a quote, and what the literal holds. -/
theorem LeavesOpen.toList_eq {source head : String} {body : List Char}
    (h : LeavesOpen source head body) : source.toList = head.toList ++ '"' :: body := by
  rw [← (tokenizes_tokens source.toList).flatMap_text, h, List.flatMap_append,
    (tokenizes_tokens head.toList).flatMap_text]
  simp [Token.text]

/-- **A text with an open literal ends in it.** -/
theorem exists_leavesOpen {source : String} {before after : List Token} {body : List Char}
    (h : tokens source.toList = before ++ .literal body false :: after) :
    ∃ head : String, tokens head.toList = before ∧ LeavesOpen source head body := by
  have hcut := tokenizes_tokens source.toList
  rw [h] at hcut
  have hbefore := hcut.take.eq_tokens
  refine ⟨String.ofList (before.flatMap Token.text), ?_, ?_⟩
  · rw [String.toList_ofList, ← hbefore]
  · rw [LeavesOpen, h, hcut.eq_nil_of_open, String.toList_ofList, ← hbefore]

/-- A literal that is not closed holds a path if it ends with a quote. -/
theorem path?_open (body : List Char) :
    (Token.literal body false).path?
      = if body.getLast? = some '"' then some body.dropLast else none := rfl

/-- **The imports of a text that ends in an open literal** are those of the text before it, and the
literal if that passes for one. -/
theorem LeavesOpen.scan_eq {source head : String} {body : List Char}
    (h : LeavesOpen source head body) :
    scan source = scan head
      ++ (importAt? Token.isBlank (tokens head.toList) (.literal body false)).toList := by
  have hsource := tokenizes_tokens source.toList
  rw [h] at hsource
  rw [scan_eq_of_tokenizes hsource, scan_eq_of_tokenizes (tokenizes_tokens head.toList),
    importsFrom_append, List.nil_append, importsFrom, importsFrom, List.append_nil]

/-- A quote in a literal is escaped, the last one too. -/
theorem IsLiteralBody.exists_of_getLast? {body : List Char} (h : IsLiteralBody body)
    (hlast : body.getLast? = some '"') : ∃ path, body = path ++ ['\\', '"'] := by
  induction h with
  | nil => cases hlast
  | @plain c cs hquote _ _ ih =>
    cases cs with
    | nil => exact absurd (Option.some.inj hlast) hquote
    | cons d cs =>
      obtain ⟨path, hpath⟩ := ih hlast
      exact ⟨c :: path, by rw [hpath]; rfl⟩
  | @escaped c cs _ ih =>
    cases cs with
    | nil =>
      obtain rfl : c = '"' := Option.some.inj hlast
      exact ⟨[], rfl⟩
    | cons d cs =>
      obtain ⟨path, hpath⟩ := ih hlast
      exact ⟨'\\' :: c :: path, by rw [hpath]; rfl⟩

/-- **A quote at the end of a literal that is not closed is escaped.** -/
theorem IsOpenBody.exists_of_getLast? {body : List Char} (h : IsOpenBody body)
    (hlast : body.getLast? = some '"') : ∃ path, body = path ++ ['\\', '"'] := by
  rcases h with h | ⟨cs, -, rfl⟩
  · exact h.exists_of_getLast? hlast
  · rw [List.getLast?_concat] at hlast
    exact absurd (Option.some.inj hlast) (by decide)

/-- What stands in the last literal is what such a literal may hold. -/
theorem LeavesOpen.isOpenBody {source head : String} {body : List Char}
    (h : LeavesOpen source head body) : IsOpenBody body := by
  have hcut := tokenizes_tokens source.toList
  rw [h] at hcut
  obtain ⟨rest, hrest⟩ := hcut.drop
  cases hrest with
  | cons hlexeme _ _ => exact hlexeme

/-! ## When it is ignored -/

/-- **An import is read from an open literal** of the text. -/
def ReadFromOpen (source : String) (i : Import) : Prop :=
  ∃ before body after, tokens source.toList = before ++ .literal body false :: after
    ∧ importAt? Token.isBlank before (.literal body false) = some i

/-- **Open literals are ignored**: a text that ends in one has the imports of the text before it,
and no import is read from one. -/
def IgnoresOpen (source : String) : Prop :=
  (∀ head body, LeavesOpen source head body → scan source = scan head)
    ∧ ∀ i ∈ scan source, ¬ ReadFromOpen source i

/-- **A literal that looks closed is an import.** -/
theorem importAt?_of_looksClosed {head : String} {path : List Char}
    (h : LooksClosed head (path ++ ['\\', '"'])) :
    importAt? Token.isBlank (tokens head.toList) (.literal (path ++ ['\\', '"']) false)
      = some ⟨String.ofList (path ++ ['\\']), byteSize head.toList + 1,
          byteSize head.toList + 1 + byteSize (path ++ ['\\'])⟩ := by
  have hsplit : path ++ ['\\', '"'] = path ++ ['\\'] ++ ['"'] := by simp
  rw [importAt?, if_pos h.1, path?_open, if_pos h.2, hsplit, List.dropLast_concat,
    (tokenizes_tokens head.toList).flatMap_text]
  rfl

/-- What is read from an open literal looks closed. -/
theorem looksClosed_of_importAt? {head : String} {body : List Char} {i : Import}
    (h : importAt? Token.isBlank (tokens head.toList) (.literal body false) = some i) :
    LooksClosed head body := by
  unfold importAt? at h
  split at h
  · next hafter =>
    obtain ⟨path, hpath, -⟩ := Option.map_eq_some_iff.1 h
    rw [path?_open] at hpath
    split at hpath
    · next hlast => exact ⟨hafter, hlast⟩
    · cases hpath
  · cases h

/-- **When open literals are ignored**: exactly when the text does not end in one that follows a
keyword and ends with a quote. Any text with an open literal ends in it, and what comes before its
opening quote is a text of its own. Where the literal looks closed, its last quote is escaped, and
the text has one import more than the text before it: the literal, with the backslash and without
the quote. -/
theorem ignoresOpen_iff (source : String) :
    (IgnoresOpen source ↔ ∀ head body, LeavesOpen source head body → ¬ LooksClosed head body)
      ∧ (∀ body, .literal body false ∈ tokens source.toList →
          ∃ head, LeavesOpen source head body ∧ source.toList = head.toList ++ '"' :: body)
      ∧ ∀ head body, LeavesOpen source head body → LooksClosed head body →
          ∃ path, body = path ++ ['\\', '"']
            ∧ scan source = scan head ++ [⟨String.ofList (path ++ ['\\']), byteSize head.toList + 1,
                byteSize head.toList + 1 + byteSize (path ++ ['\\'])⟩] := by
  have hextra : ∀ head body, LeavesOpen source head body → LooksClosed head body →
      ∃ path, body = path ++ ['\\', '"']
        ∧ scan source = scan head ++ [⟨String.ofList (path ++ ['\\']), byteSize head.toList + 1,
            byteSize head.toList + 1 + byteSize (path ++ ['\\'])⟩] := by
    intro head body hopen hlooks
    obtain ⟨path, rfl⟩ := hopen.isOpenBody.exists_of_getLast? hlooks.2
    exact ⟨path, rfl, by rw [hopen.scan_eq, importAt?_of_looksClosed hlooks]; rfl⟩
  refine ⟨⟨fun hignores head body hopen hlooks => ?_, fun hnone => ⟨?_, ?_⟩⟩, ?_, hextra⟩
  · obtain ⟨path, -, hscan⟩ := hextra head body hopen hlooks
    rw [hignores.1 head body hopen] at hscan
    exact absurd (List.self_eq_append_right.1 hscan) (List.cons_ne_nil _ _)
  · intro head body hopen
    cases himport : importAt? Token.isBlank (tokens head.toList) (.literal body false) with
    | none => rw [hopen.scan_eq, himport, Option.toList_none, List.append_nil]
    | some i => exact absurd (looksClosed_of_importAt? himport) (hnone head body hopen)
  · rintro i - ⟨before, body, after, htokens, himport⟩
    obtain ⟨head, hhead, hopen⟩ := exists_leavesOpen htokens
    rw [← hhead] at himport
    exact hnone head body hopen (looksClosed_of_importAt? himport)
  · intro body hmem
    obtain ⟨before, after, htokens⟩ := List.append_of_mem hmem
    obtain ⟨head, -, hopen⟩ := exists_leavesOpen htokens
    exact ⟨head, hopen, hopen.toList_eq⟩

/-- A text whose only literal ends with an escaped quote. -/
def escapedQuote : String := "from \"./oops\\\""

/-- **A literal that is never closed is an import**, though no import stands before it. -/
theorem not_ignoresOpen_escapedQuote :
    LeavesOpen escapedQuote "from " "./oops\\\"".toList
      ∧ scan "from " = []
      ∧ scan escapedQuote = [⟨"./oops\\", 6, 13⟩]
      ∧ ¬ IgnoresOpen escapedQuote := by
  have hopen : LeavesOpen escapedQuote "from " "./oops\\\"".toList := by
    unfold LeavesOpen
    cbv
  have hhead : scan "from " = [] := by cbv
  have hscan : scan escapedQuote = [⟨"./oops\\", 6, 13⟩] := by cbv
  refine ⟨hopen, hhead, hscan, fun hignores => ?_⟩
  have hsame := hignores.1 "from " _ hopen
  rw [hscan, hhead] at hsame
  cases hsame

end ProofToolchain.Import
