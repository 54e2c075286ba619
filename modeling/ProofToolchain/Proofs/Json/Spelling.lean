import Mathlib
import ProofToolchain.Json.Number
import ProofToolchain.Json.Printer

/-!
# Strings and numbers are read as they were written

A string is written character by character, and each is read back on its own, whatever comes after
it (`readUnits_flatMap_escape`). A control character may come back as a code unit, which is no half
of a character, so the units spell the string again (`decodeUnits?_unitsOf`).

A number is different, since nothing closes it: its digits go on as long as there are digits. So
it is read back before a text that cannot go on with it (`StopsNumber`), which is true of all that
is ever written after a number. Its digits have no leading zero and make an integer again if a
machine word holds it (`value?_spelling`).
-/

namespace ProofToolchain.Json

/-! ## Strings -/

/-- **The unit that a character is read back as.** Control characters without a short escape are
written as code units. -/
def unitOf (c : Char) : StringUnit :=
  if c.toNat < 0x20 ∧ c ≠ '\x08' ∧ c ≠ '\x0c' ∧ c ≠ '\n' ∧ c ≠ '\r' ∧ c ≠ '\t' then .code c.toNat
  else .char c

/-- The units that a string is read back as. -/
def unitsOf (s : String) : List StringUnit :=
  s.toList.map unitOf

/-- Two hexadecimal digits after two zeros spell a small code unit. -/
theorem codeUnit?_small : ∀ n < 0x20,
    codeUnit? '0' '0' (Nat.digitChar (n / 16)) (Nat.digitChar (n % 16)) = some n := by
  decide

/-- The units that are read when one more stands in front. -/
def withUnit (u : StringUnit) (read : List StringUnit × List Char) :
    List StringUnit × List Char :=
  (u :: read.1, read.2)

theorem readUnits_short {e c : Char} (h : unescape? e = some c) (hu : e ≠ 'u')
    (rest : List Char) :
    readUnits ('\\' :: e :: rest) = (readUnits rest).map (withUnit (.char c)) := by
  rw [readUnits.eq_3 e rest fun _ _ _ _ _ he _ => hu he, h]
  cases readUnits rest <;> rfl

theorem readUnits_code {a b c d : Char} {n : Nat} (h : codeUnit? a b c d = some n)
    (rest : List Char) :
    readUnits ('\\' :: 'u' :: a :: b :: c :: d :: rest)
      = (readUnits rest).map (withUnit (.code n)) := by
  rw [readUnits.eq_2, h]
  cases readUnits rest <;> rfl

theorem readUnits_plain {c : Char} (hquote : c ≠ '"') (hslash : c ≠ '\\') (h : ¬ c.toNat < 0x20)
    (rest : List Char) :
    readUnits (c :: rest) = (readUnits rest).map (withUnit (.char c)) := by
  rw [readUnits.eq_4 c rest (fun _ _ _ _ _ hc _ => hslash hc) fun _ _ hc _ => hslash hc,
    if_neg hquote, if_neg h]
  cases readUnits rest <;> rfl

/-- The closing quote ends a string. -/
theorem readUnits_quote (rest : List Char) : readUnits ('"' :: rest) = some ([], rest) := by
  rw [readUnits.eq_4 _ _ (by simp) (by simp), if_pos rfl]

/-- **A character is read back as its unit**, whatever comes after it. -/
theorem readUnits_escape (c : Char) (rest : List Char) :
    readUnits (escape c ++ rest) = (readUnits rest).map (withUnit (unitOf c)) := by
  unfold escape
  split_ifs with h1 h2 h3 h4 h5 h6 h7 h8
  · subst h1; exact readUnits_short rfl (by decide) rest
  · subst h2; exact readUnits_short rfl (by decide) rest
  · subst h3; exact readUnits_short rfl (by decide) rest
  · subst h4; exact readUnits_short rfl (by decide) rest
  · subst h5; exact readUnits_short rfl (by decide) rest
  · subst h6; exact readUnits_short rfl (by decide) rest
  · subst h7; exact readUnits_short rfl (by decide) rest
  · have hunit : unitOf c = .code c.toNat := if_pos ⟨h8, h3, h4, h5, h6, h7⟩
    rw [hunit]
    exact readUnits_code (codeUnit?_small c.toNat h8) rest
  · have hunit : unitOf c = .char c := if_neg fun h => h8 h.1
    rw [hunit]
    exact readUnits_plain h1 h2 h8 rest

/-- **A string is read back as its units** up to the closing quote. -/
theorem readUnits_flatMap_escape (cs rest : List Char) :
    readUnits (cs.flatMap escape ++ '"' :: rest) = some (cs.map unitOf, rest) := by
  induction cs with
  | nil => exact readUnits_quote rest
  | cons c cs ih =>
    rw [List.flatMap_cons, List.append_assoc, readUnits_escape, ih]
    rfl

/-- A small code unit is a character of its own, whatever comes after it. -/
theorem decodeUnits?_code_cons {n : Nat} (h : n < 0x20) (units : List StringUnit) :
    decodeUnits? (.code n :: units) = (decodeUnits? units).map (Char.ofNat n :: ·) := by
  have hlow : ¬ (0xD800 ≤ n ∧ n ≤ 0xDBFF) := by omega
  have hhigh : ¬ (0xDC00 ≤ n ∧ n ≤ 0xDFFF) := by omega
  have hhalf : ¬ (0xD800 ≤ n ∧ n ≤ 0xDFFF) := by omega
  cases units with
  | nil => simp [decodeUnits?, hhalf]
  | cons u units =>
    cases u with
    | code low => simp [decodeUnits?, hlow, hhigh]
    | char c => simp [decodeUnits?, hhalf]
    | gap => simp [decodeUnits?, hhalf]

/-- **The units of a string spell it.** -/
theorem decodeUnits?_unitsOf (s : String) : decodeUnits? (unitsOf s) = some s.toList := by
  unfold unitsOf
  induction s.toList with
  | nil => rfl
  | cons c cs ih =>
    rw [List.map_cons]
    unfold unitOf
    split_ifs with h
    · rw [decodeUnits?_code_cons h.1]
      unfold unitOf at ih
      rw [ih, Option.map_some, Char.ofNat_toNat]
    · unfold unitOf at ih
      rw [decodeUnits?, ih]
      rfl

/-! ## Numbers -/

/-- **A text that cannot go on with a number** that stands before it. -/
def StopsNumber (rest : List Char) : Prop :=
  ∀ c ∈ rest.head?, c.isDigit = false ∧ c ≠ '.' ∧ c ≠ 'e' ∧ c ≠ 'E'

/-- The digits that an integer is written with. -/
def spelling (value : Int) : NumberText :=
  ⟨decide (value < 0), Text.decimal value.natAbs, none, none⟩

theorem decimal_ne_nil (n : Nat) : Text.decimal n ≠ [] :=
  Nat.toDigits_ne_nil

/-- **Digits have no leading zero**, except the zero that stands alone. -/
theorem head?_decimal {n : Nat} (h : 0 < n) : (Text.decimal n).head? ≠ some '0' := by
  induction n using Nat.strongRecOn with
  | ind n ih =>
    rcases Nat.lt_or_ge n 10 with hsmall | hlarge
    · rw [Text.decimal, Nat.toDigits_of_lt_base hsmall]
      interval_cases n <;> decide
    · have hdiv : 0 < n / 10 := Nat.div_pos hlarge (by decide)
      have hfirst := ih (n / 10) (Nat.div_lt_self h (by decide)) hdiv
      rw [Text.decimal, Nat.toDigits_of_base_le (by decide) hlarge]
      rw [Text.decimal] at hfirst
      rwa [List.head?_append_of_ne_nil _ Nat.toDigits_ne_nil]

/-- Digits are read up to where they stop. -/
theorem readDigits_decimal (n : Nat) {rest : List Char} (h : StopsNumber rest) :
    readDigits (Text.decimal n ++ rest) = some (Text.decimal n, rest) := by
  have hdigits : ∀ c ∈ Text.decimal n, c.isDigit = true := fun c =>
    Text.isDigit_of_mem_decimal
  have hstop : ∀ c ∈ rest.head?, ¬ c.isDigit = true := fun c hc => by simp [(h c hc).1]
  have htake : rest.takeWhile Char.isDigit = [] := by
    cases rest with
    | nil => rfl
    | cons c cs => exact List.takeWhile_cons_of_neg (hstop c rfl)
  have hdrop : rest.dropWhile Char.isDigit = rest := by
    cases rest with
    | nil => rfl
    | cons c cs => exact List.dropWhile_cons_of_neg (hstop c rfl)
  unfold readDigits
  rw [List.takeWhile_append_of_pos hdigits, List.dropWhile_append_of_pos hdigits, htake, hdrop,
    List.append_nil]
  simp [decimal_ne_nil]

/-- **A number is read back** before a text that cannot go on with it. -/
theorem readNumber_decimal (negative : Bool) (n : Nat) {rest : List Char} (h : StopsNumber rest) :
    readNumber negative (Text.decimal n ++ rest)
      = some (⟨negative, Text.decimal n, none, none⟩, rest) := by
  have hzero : ¬ ((Text.decimal n).head? = some '0' ∧ (Text.decimal n).length ≠ 1) := by
    rintro ⟨hhead, hlength⟩
    rcases Nat.eq_zero_or_pos n with rfl | hpos
    · exact hlength rfl
    · exact head?_decimal hpos hhead
  have hfraction : readFraction rest = some (none, rest) := by
    unfold readFraction
    split
    · exact absurd rfl (h '.' rfl).2.1
    · rfl
  have hexponent : readExponent rest = some (none, rest) := by
    unfold readExponent
    split
    · next c cs =>
      have hc := h c rfl
      rw [if_neg (not_or.2 ⟨hc.2.2.1, hc.2.2.2⟩)]
    · rfl
  unfold readNumber
  rw [readDigits_decimal n h]
  show (if _ then none else _) = _
  rw [if_neg hzero, hfraction]
  show (readExponent rest).bind _ = _
  rw [hexponent]
  rfl

/-- **Digits are absorbed** as long as the word holds what they spell. -/
theorem absorb_eq {digits : List Char} {significand : Nat}
    (h : Nat.ofDigitChars 10 digits significand < Text.wordLimit 64) :
    absorb significand digits = (Nat.ofDigitChars 10 digits significand, digits.length) := by
  induction digits generalizing significand with
  | nil => rfl
  | cons c cs ih =>
    rw [Nat.ofDigitChars_cons, Nat.mul_comm] at h
    have hle : ∀ (cs : List Char) (n : Nat), n ≤ Nat.ofDigitChars 10 cs n := by
      intro cs
      induction cs with
      | nil => exact fun n => Nat.le_refl n
      | cons d ds ih =>
        intro n
        rw [Nat.ofDigitChars_cons]
        exact Nat.le_trans (by omega) (ih _)
    unfold absorb
    dsimp only
    rw [if_pos (Nat.lt_of_le_of_lt (hle cs _) h), ih h, Nat.ofDigitChars_cons, Nat.mul_comm 10]
    rfl

/-- **An integer that a machine word holds**, unsigned or negative. -/
def IsWord (value : Int) : Prop :=
  -(Text.wordLimit 63 : Int) ≤ value ∧ value < (Text.wordLimit 64 : Int)

/-- **The digits of an integer make it again**, if a word holds it. -/
theorem value?_spelling {value : Int} (h : IsWord value) :
    (spelling value).value? = some (.integer value) := by
  have hlimit : Text.wordLimit 63 < Text.wordLimit 64 := by decide
  have hword : value.natAbs < Text.wordLimit 64 := by
    obtain ⟨hlow, hhigh⟩ := h
    omega
  have hdigits : Nat.ofDigitChars 10 (Text.decimal value.natAbs) 0 = value.natAbs :=
    Nat.ofDigitChars_toDigits (by decide) (by decide)
  have habsorb : absorb 0 (Text.decimal value.natAbs)
      = (value.natAbs, (Text.decimal value.natAbs).length) := by
    rw [absorb_eq (by rw [hdigits]; exact hword), hdigits]
  unfold NumberText.value? spelling
  simp only [habsorb, Nat.sub_self, true_and, decide_eq_false_iff_not]
  by_cases hneg : value < 0
  · have hpos : 0 < value.natAbs ∧ value.natAbs ≤ Text.wordLimit 63 := by
      have hlow := h.1
      omega
    rw [if_neg (not_not.2 hneg), if_pos hpos]
    congr 2
    omega
  · rw [if_pos hneg]
    congr 2
    omega

end ProofToolchain.Json
