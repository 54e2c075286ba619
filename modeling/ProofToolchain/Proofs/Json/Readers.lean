import ProofToolchain.Proofs.Json.Spelling

/-!
# Readers of a changed text

Every reader of tokens looks at the start of a text and hands on what it leaves. What it finds is
found in another text too, where the characters it looks for stand in the same places, and what it
leaves is then left of that other text. This module says so once for all texts that are changed in
such a way.

A change **keeps** a character if a changed text starts with it exactly if the text does, and goes
on with the changed rest (`Keeps`). The readers of digits, numbers and words follow every change
that keeps the characters which these are made of (`KeepsInner`, `Follows`), and the reader of
tokens follows it as far as the reader of strings does (`nextToken_change`). Strings have to be
looked at by themselves, since any character may stand in them.
-/

namespace ProofToolchain.Json

variable {change : List Char → List Char}

/-! ## Changes -/

/-- **A change of texts keeps a character** if that stands at the start of a changed text exactly if
it stands at the start of the text. -/
def Keeps (change : List Char → List Char) (c : Char) : Prop :=
  ∀ cs ds, change cs = c :: ds ↔ ∃ rest, cs = c :: rest ∧ change rest = ds

namespace Keeps

variable {c : Char} {cs : List Char}

theorem cons (h : Keeps change c) (cs : List Char) : change (c :: cs) = c :: change cs :=
  (h _ _).2 ⟨cs, rfl, rfl⟩

/-- Where a text starts otherwise, it does so after the change. -/
theorem ne_cons (h : Keeps change c) (hcs : ∀ rest, cs ≠ c :: rest) (ds : List Char) :
    change cs ≠ c :: ds := by
  intro heq
  obtain ⟨rest, hrest, -⟩ := (h _ _).1 heq
  exact hcs rest hrest

/-- A word is kept with its characters. -/
theorem eq_append_iff {word : List Char} (h : ∀ c ∈ word, Keeps change c) {ds : List Char} :
    change cs = word ++ ds ↔ ∃ rest, cs = word ++ rest ∧ change rest = ds := by
  induction word generalizing cs with
  | nil => simp
  | cons c word ih =>
    rw [List.cons_append, h c List.mem_cons_self]
    have hword : ∀ d ∈ word, Keeps change d := fun d hd => h d (List.mem_cons_of_mem c hd)
    constructor
    · rintro ⟨rest, rfl, hrest⟩
      obtain ⟨rest, rfl, hds⟩ := (ih hword).1 hrest
      exact ⟨rest, rfl, hds⟩
    · rintro ⟨rest, rfl, hds⟩
      exact ⟨word ++ rest, rfl, (ih hword).2 ⟨rest, rfl, hds⟩⟩

section Runs

variable {p : Char → Bool} (hp : ∀ c, p c = true → Keeps change c)

include hp

/-- Where no run of kept characters starts, none starts after the change. -/
theorem takeWhile_eq_nil (h : ∀ c rest, cs = c :: rest → p c = false) :
    (change cs).takeWhile p = [] := by
  cases hchange : change cs with
  | nil => rfl
  | cons d ds =>
    refine List.takeWhile_cons_of_neg fun hd => ?_
    obtain ⟨rest, hcs, -⟩ := (hp d hd _ _).1 hchange
    exact Bool.eq_false_iff.1 (h d rest hcs) hd

/-- **Kept characters run as far as before.** -/
theorem takeWhile_eq (cs : List Char) : (change cs).takeWhile p = cs.takeWhile p := by
  induction cs with
  | nil => exact takeWhile_eq_nil hp nofun
  | cons c cs ih =>
    by_cases hc : p c = true
    · rw [(hp c hc).cons, List.takeWhile_cons_of_pos hc, ih, List.takeWhile_cons_of_pos hc]
    · rw [List.takeWhile_cons_of_neg hc]
      refine takeWhile_eq_nil hp fun d rest heq => ?_
      rwa [← (List.cons.inj heq).1, ← Bool.not_eq_true]

/-- What comes after them is what came after them, changed. -/
theorem dropWhile_eq (cs : List Char) :
    (change cs).dropWhile p = change (cs.dropWhile p) := by
  have happend : change cs = cs.takeWhile p ++ change (cs.dropWhile p) :=
    (eq_append_iff fun c hc => hp c (List.mem_takeWhile_imp hc)).2
      ⟨_, (List.takeWhile_append_dropWhile).symm, rfl⟩
  have hwhole := List.takeWhile_append_dropWhile (p := p) (l := change cs)
  rw [takeWhile_eq hp, happend] at hwhole
  rw [happend]
  exact List.append_cancel_left hwhole

end Runs

end Keeps

/-- **A character that numbers and words are made of.** -/
def isInner (c : Char) : Bool :=
  c.isAlphanum || c == '.' || c == '+' || c == '-'

/-- **A change keeps what is inside** of numbers and words. -/
def KeepsInner (change : List Char → List Char) : Prop :=
  ∀ c, isInner c = true → Keeps change c

/-- **A reader follows a change** if it finds in a changed text what it finds in the text, up to how
that looks after the change. -/
def Follows {α : Type} (change : List Char → List Char) (look : α → α)
    (read : List Char → Option (α × List Char)) : Prop :=
  ∀ cs, read (change cs) = (read cs).map (Prod.map look change)

namespace Follows

variable {α β : Type} {read : List Char → Option (α × List Char)}

theorem pure (a : α) : Follows change id fun cs => some (a, cs) :=
  fun _ => rfl

/-- One reader goes on where another one stops. -/
theorem bind {look : β → β} {next : α × List Char → Option (β × List Char)}
    (hread : Follows change id read) (hnext : ∀ a, Follows change look fun rest => next (a, rest)) :
    Follows change look fun cs => (read cs).bind next := by
  intro cs
  show (read (change cs)).bind _ = ((read cs).bind _).map _
  rw [hread cs]
  cases read cs with
  | none => rfl
  | some found => exact hnext found.1 found.2

end Follows

/-- Something is made of what is found. -/
theorem map_change {α β : Type} {look : α → α} {found changed : Option (α × List Char)}
    (h : changed = found.map (Prod.map look change)) (f : α → β) (look' : β → β)
    (hf : ∀ a, f (look a) = look' (f a)) :
    changed.map (fun read => (f read.1, read.2))
      = (found.map fun read => (f read.1, read.2)).map (Prod.map look' change) := by
  subst h
  cases found with
  | none => rfl
  | some read => exact congrArg some (Prod.ext (hf read.1) rfl)

/-! ## Numbers -/

theorem readFraction_of_ne {cs : List Char} (h : ∀ rest, cs ≠ '.' :: rest) :
    readFraction cs = some (none, cs) := by
  unfold readFraction
  split
  · next rest => exact absurd rfl (h rest)
  · rfl

/-- The sign of an exponent, and the text after it. -/
def exponentSign (cs : List Char) : Bool × List Char :=
  match cs with
  | '-' :: rest => (true, rest)
  | '+' :: rest => (false, rest)
  | _ => (false, cs)

theorem exponentSign_of_ne {cs : List Char} (hminus : ∀ rest, cs ≠ '-' :: rest)
    (hplus : ∀ rest, cs ≠ '+' :: rest) : exponentSign cs = (false, cs) := by
  unfold exponentSign
  split
  · next rest => exact absurd rfl (hminus rest)
  · next rest => exact absurd rfl (hplus rest)
  · rfl

theorem readExponent_cons {c : Char} (h : c = 'e' ∨ c = 'E') (cs : List Char) :
    readExponent (c :: cs) = (readDigits (exponentSign cs).2).map fun found =>
      (some ((exponentSign cs).1, found.1), found.2) := by
  unfold readExponent exponentSign
  dsimp only
  rw [if_pos h, Option.map_eq_bind]
  rfl

theorem readExponent_of_ne {cs : List Char} (h : ∀ rest, cs ≠ 'e' :: rest)
    (hupper : ∀ rest, cs ≠ 'E' :: rest) : readExponent cs = some (none, cs) := by
  unfold readExponent
  split
  · next c rest =>
    refine if_neg ?_
    rintro (rfl | rfl)
    · exact h rest rfl
    · exact hupper rest rfl
  · rfl

section Inner

variable (h : KeepsInner change)

include h

theorem follows_readDigits : Follows change id readDigits := by
  have hdigit : ∀ c : Char, c.isDigit = true → Keeps change c :=
    fun c hc => h c (by simp [isInner, Char.isAlphanum, hc])
  intro cs
  unfold readDigits
  rw [Keeps.takeWhile_eq hdigit, Keeps.dropWhile_eq hdigit]
  dsimp only
  split <;> rfl

theorem follows_readFraction : Follows change id readFraction := by
  have hkeeps : Keeps change '.' := h _ (by decide)
  intro cs
  by_cases hpoint : ∃ rest, cs = '.' :: rest
  · obtain ⟨rest, rfl⟩ := hpoint
    rw [hkeeps.cons]
    exact (follows_readDigits h).bind (fun digits => .pure (some digits)) rest
  · have hne : ∀ rest, cs ≠ '.' :: rest := fun rest heq => hpoint ⟨rest, heq⟩
    rw [readFraction_of_ne hne, readFraction_of_ne (hkeeps.ne_cons hne)]
    rfl

theorem exponentSign_change (cs : List Char) :
    exponentSign (change cs) = Prod.map id change (exponentSign cs) := by
  have hm : Keeps change '-' := h _ (by decide)
  have hp : Keeps change '+' := h _ (by decide)
  by_cases hminus : ∃ rest, cs = '-' :: rest
  · obtain ⟨rest, rfl⟩ := hminus
    rw [hm.cons]
    rfl
  by_cases hplus : ∃ rest, cs = '+' :: rest
  · obtain ⟨rest, rfl⟩ := hplus
    rw [hp.cons]
    rfl
  have hminus' : ∀ rest, cs ≠ '-' :: rest := fun rest heq => hminus ⟨rest, heq⟩
  have hplus' : ∀ rest, cs ≠ '+' :: rest := fun rest heq => hplus ⟨rest, heq⟩
  rw [exponentSign_of_ne hminus' hplus',
    exponentSign_of_ne (hm.ne_cons hminus') (hp.ne_cons hplus')]
  rfl

theorem follows_readExponent : Follows change id readExponent := by
  have he : Keeps change 'e' := h _ (by decide)
  have hE : Keeps change 'E' := h _ (by decide)
  intro cs
  by_cases hletter : ∃ c rest, (c = 'e' ∨ c = 'E') ∧ cs = c :: rest
  · obtain ⟨c, rest, hc, rfl⟩ := hletter
    have hkeeps : Keeps change c := by rcases hc with rfl | rfl <;> assumption
    rw [hkeeps.cons, readExponent_cons hc, readExponent_cons hc, exponentSign_change h]
    exact map_change (follows_readDigits h (exponentSign rest).2)
      (fun digits => some ((exponentSign rest).1, digits)) id fun _ => rfl
  · have hlower : ∀ rest, cs ≠ 'e' :: rest := fun rest heq => hletter ⟨_, rest, .inl rfl, heq⟩
    have hupper : ∀ rest, cs ≠ 'E' :: rest := fun rest heq => hletter ⟨_, rest, .inr rfl, heq⟩
    rw [readExponent_of_ne hlower hupper,
      readExponent_of_ne (he.ne_cons hlower) (hE.ne_cons hupper)]
    rfl

/-- **The reader of numbers** follows a change that keeps what is inside of them. -/
theorem follows_readNumber (negative : Bool) : Follows change id (readNumber negative) := by
  refine (follows_readDigits h).bind fun whole rest => ?_
  dsimp only
  split
  · rfl
  · refine (follows_readFraction h).bind (fun fraction => ?_) rest
    dsimp only
    refine (follows_readExponent h).bind fun exponent => ?_
    exact .pure (⟨negative, whole, fraction, exponent⟩ : NumberText)

end Inner

/-! ## Words -/

/-- **The reader of a word** follows a change that keeps its letters. -/
theorem follows_readWord {word : List Char} (h : ∀ c ∈ word, Keeps change c) (token : Token) :
    Follows change id (readWord word token) := by
  intro cs
  unfold readWord
  simp only [List.isPrefixOf_iff_prefix]
  by_cases hword : word <+: cs
  · obtain ⟨rest, rfl⟩ := hword
    have happend : change (word ++ rest) = word ++ change rest :=
      (Keeps.eq_append_iff h).2 ⟨rest, rfl, rfl⟩
    rw [happend, if_pos (List.prefix_append _ _), if_pos (List.prefix_append _ _)]
    simp
  · have hchange : ¬ word <+: change cs := by
      rintro ⟨ds, hds⟩
      obtain ⟨rest, hrest, -⟩ := (Keeps.eq_append_iff h).1 hds.symm
      exact hword ⟨rest, hrest.symm⟩
    rw [if_neg hchange, if_neg hword]
    rfl

/-! ## Strings -/

/-- An escape with no digits is none. -/
theorem readUnits_code_eq_none {cs : List Char}
    (h : ∀ a b c d rest, cs = a :: b :: c :: d :: rest → codeUnit? a b c d = none) :
    readUnits ('\\' :: 'u' :: cs) = none := by
  by_cases hcs : ∃ a b c d rest, cs = a :: b :: c :: d :: rest
  · obtain ⟨a, b, c, d, rest, rfl⟩ := hcs
    rw [readUnits.eq_2, h a b c d rest rfl]
    rfl
  · rw [readUnits.eq_3 _ _ fun a b c d rest _ heq => hcs ⟨a, b, c, d, rest, heq⟩]
    rfl

/-- An escape that stands for nothing is none. -/
theorem readUnits_short_eq_none {e : Char} (h : unescape? e = none) (hu : e ≠ 'u')
    (cs : List Char) : readUnits ('\\' :: e :: cs) = none := by
  rw [readUnits.eq_3 e cs fun _ _ _ _ _ he _ => hu he, h]
  rfl

/-- A control character does not stand in a string. -/
theorem readUnits_control {c : Char} (h : c.toNat < 0x20) (cs : List Char) :
    readUnits (c :: cs) = none := by
  have hslash : c ≠ '\\' := by rintro rfl; exact absurd h (by decide)
  have hquote : c ≠ '"' := by rintro rfl; exact absurd h (by decide)
  rw [readUnits.eq_4 c cs (fun _ _ _ _ _ hc _ => hslash hc) fun _ _ hc _ => hslash hc,
    if_neg hquote, if_pos h]

/-! ## Tokens -/

/-- A token with its string, if it is one, as it looks. -/
def Token.withLook (look : List StringUnit → List StringUnit) : Token → Token
  | .string units => .string (look units)
  | token => token

@[simp] theorem Token.withLook_id (token : Token) : token.withLook id = token := by
  cases token <;> rfl

/-- **The reader of tokens** follows a change that keeps what is inside of numbers and words, as far
as the reader of strings does. -/
theorem nextToken_change (h : KeepsInner change) {look : List StringUnit → List StringUnit}
    {c : Char} {cs : List Char}
    (hunits : c = '"' → readUnits (change cs) = (readUnits cs).map (Prod.map look change)) :
    nextToken c (change cs) = (nextToken c cs).map (Prod.map (Token.withLook look) change) := by
  have hword : ∀ word : List Char, word.all isInner = true → ∀ token : Token,
      token.withLook look = token → readWord word token (change cs)
        = (readWord word token cs).map (Prod.map (Token.withLook look) change) := by
    intro word hinner token htoken
    rw [follows_readWord (fun c hc => h c (List.all_eq_true.1 hinner c hc)) token cs]
    unfold readWord
    split
    · simp [htoken]
    · rfl
  unfold nextToken
  split
  · rfl
  · rfl
  · rfl
  · rfl
  · rfl
  · rfl
  · exact hword _ rfl _ rfl
  · exact hword _ rfl _ rfl
  · exact hword _ rfl _ rfl
  · exact map_change (hunits rfl) Token.string (Token.withLook look) fun _ => rfl
  · exact map_change (follows_readNumber h true cs) Token.number (Token.withLook look)
      fun _ => rfl
  · by_cases hdigit : c.isDigit = true
    · have hkeeps : Keeps change c := h c (by simp [isInner, Char.isAlphanum, hdigit])
      simp only [if_pos hdigit]
      rw [← hkeeps.cons]
      exact map_change (follows_readNumber h false (c :: cs)) Token.number (Token.withLook look)
        fun _ => rfl
    · simp only [if_neg hdigit]
      rfl

end ProofToolchain.Json
