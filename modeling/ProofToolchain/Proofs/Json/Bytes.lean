import ProofToolchain.Json.Record
import ProofToolchain.Proofs.Json.Reading

/-!
# Bytes in JSON texts

A byte is written with digits alone, and what they spell is at most 255 (`Literal.WritesByte`).
Nothing else is taken for a byte: no number that has a sign, a point or an exponent, none that is
larger, and nothing that is no number (`Literal.IsNoByte`). So nothing is ever cut off a
number to make a byte of it, and an array with such an item is no blob.

Numbers of any length may be written, and only their leading digits are kept in a machine word. What
is read as an integer has kept them all (`absorb_of_length_le`).
-/

namespace ProofToolchain.Json

/-! ## Numbers without a sign -/

/-- Digits that are all absorbed are read as what they spell. -/
theorem absorb_of_length_le {digits : List Char} {significand : Nat}
    (h : digits.length ≤ (absorb significand digits).2) :
    (absorb significand digits).1 = Nat.ofDigitChars 10 digits significand := by
  induction digits generalizing significand with
  | nil => rfl
  | cons c cs ih =>
    unfold absorb at h ⊢
    dsimp only at h ⊢
    split at h
    · next hnext =>
      rw [if_pos hnext]
      rw [Nat.ofDigitChars_cons, Nat.mul_comm 10]
      exact ih (Nat.le_of_succ_le_succ h)
    · exact absurd h (Nat.not_succ_le_zero _)

/-- Digits alone are the integer that they spell, if a word holds it. -/
theorem value?_of_digits {digits : List Char}
    (h : Nat.ofDigitChars 10 digits 0 < Text.wordLimit 64) :
    (NumberText.mk false digits none none).value?
      = some (.integer (Nat.ofDigitChars 10 digits 0)) := by
  simp [NumberText.value?, absorb_eq h]

/-- **An integer that is not negative** was written with digits alone, which spell it. -/
theorem digits_of_value? {text : NumberText} {value : Int} (h : text.value? = some (.integer value))
    (hvalue : 0 ≤ value) :
    text = ⟨false, text.whole, none, none⟩ ∧ value = Nat.ofDigitChars 10 text.whole 0 := by
  obtain ⟨negative, whole, fraction, exponent⟩ := text
  unfold NumberText.value? at h
  dsimp only at h
  split at h
  · split_ifs at h with hplus hminus
    · obtain ⟨hall, rfl⟩ := hplus
      cases h
      exact ⟨rfl, congrArg Nat.cast (absorb_of_length_le (Nat.sub_eq_zero_iff_le.1 hall))⟩
    · cases h
      omega
    · obtain ⟨_, -, heq⟩ := Option.map_eq_some_iff.1 h
      cases heq
  · obtain ⟨_, -, heq⟩ := Option.map_eq_some_iff.1 h
    cases heq

namespace Literal

/-! ## Bytes -/

/-- **A literal writes a byte**, with digits that spell it and nothing else. -/
def WritesByte (l : Literal) (b : UInt8) : Prop :=
  ∃ digits, l = .number ⟨false, digits, none, none⟩ ∧ Nat.ofDigitChars 10 digits 0 = b.toNat

/-- **What is no byte.** -/
inductive IsNoByte : Literal → Prop
  /-- A number with a minus sign. -/
  | negative {text : NumberText} : text.negative = true → IsNoByte (.number text)
  /-- A number with a point or an exponent. -/
  | floating {text : NumberText} : (text.fraction ≠ none ∨ text.exponent ≠ none) →
      IsNoByte (.number text)
  /-- A number that is too large. -/
  | large {text : NumberText} : 255 < Nat.ofDigitChars 10 text.whole 0 → IsNoByte (.number text)
  /-- Anything else than a number. -/
  | other {l : Literal} : (∀ text, l ≠ .number text) → IsNoByte l

/-- **A byte is read where one is written**, and it is that byte. -/
theorem byte?_eq_some_iff {l : Literal} {b : UInt8} : l.byte? = some b ↔ l.WritesByte b := by
  constructor
  · intro h
    unfold byte? at h
    split at h
    · next text =>
      split at h
      · next value hvalue =>
        split_ifs at h with hrange
        cases h
        obtain ⟨htext, hdigits⟩ := digits_of_value? hvalue hrange.1
        have hbyte : value.toNat < 256 := by omega
        refine ⟨text.whole, congrArg number htext, ?_⟩
        rw [UInt8.toNat_ofNat_of_lt' hbyte]
        omega
      · cases h
    · cases h
  · rintro ⟨digits, rfl, hdigits⟩
    have hbyte : b.toNat < 256 := b.toNat_lt
    have hword : Nat.ofDigitChars 10 digits 0 < Text.wordLimit 64 := by
      rw [hdigits]
      exact hbyte.trans (by decide)
    unfold byte?
    simp only [value?_of_digits hword, hdigits, Int.toNat_natCast, UInt8.ofNat_toNat]
    rw [if_pos ⟨Int.natCast_nonneg _, by omega⟩]

/-- What is no byte writes none. -/
theorem IsNoByte.not_writesByte {l : Literal} (h : l.IsNoByte) (b : UInt8) : ¬ l.WritesByte b := by
  rintro ⟨digits, rfl, hdigits⟩
  cases h with
  | negative h => cases h
  | floating h => exact h.elim (absurd rfl) (absurd rfl)
  | large h =>
    have hbyte : b.toNat < 256 := b.toNat_lt
    dsimp only at h
    omega
  | other h => exact h _ rfl

/-! ## Blobs -/

/-- **A literal writes a blob**: it is an array, and its items write the bytes. -/
def WritesBytes (l : Literal) (bytes : Bytes) : Prop :=
  ∃ items, l = .array items ∧ List.Forall₂ WritesByte items bytes

/-- **A blob is read where one is written.** -/
theorem bytes?_eq_some_iff {l : Literal} {bytes : Bytes} :
    l.bytes? = some bytes ↔ l.WritesBytes bytes := by
  cases l with
  | array items =>
    have hitems : (array items).bytes? = items.mapM byte? := rfl
    rw [hitems, mapM_eq_some_iff_forall₂]
    simp only [byte?_eq_some_iff]
    exact ⟨fun h => ⟨items, rfl, h⟩, fun ⟨_, heq, h⟩ => by cases heq; exact h⟩
  | _ => exact ⟨nofun, fun ⟨_, heq, _⟩ => by cases heq⟩

/-- Every item of a blob writes a byte. -/
theorem WritesBytes.not_isNoByte {items : List Literal} {bytes : Bytes}
    (h : (array items).WritesBytes bytes) {item : Literal} (hitem : item ∈ items) :
    ¬ item.IsNoByte := by
  obtain ⟨_, heq, hbytes⟩ := h
  cases heq
  intro hno
  induction hbytes with
  | nil => cases hitem
  | cons hfirst _ ih =>
    rcases List.mem_cons.1 hitem with rfl | hitem
    · exact hno.not_writesByte _ hfirst
    · exact ih hitem

/-- **A blob is written as it is read.** -/
theorem writesBytes_literal (bytes : Bytes) : (ofBytes bytes).literal.WritesBytes bytes := by
  refine ⟨_, rfl, ?_⟩
  induction bytes with
  | nil => exact .nil
  | cons b bytes ih =>
    refine .cons ⟨Text.decimal b.toNat, rfl, ?_⟩ ih
    exact Nat.ofDigitChars_toDigits (by decide) (by decide)

end Literal

/-- The numbers of a blob fit machine words. -/
theorem holdsWords_ofBytes (bytes : Bytes) : (ofBytes bytes).HoldsWords := by
  refine itemsHoldWords_iff.2 fun item hitem => ?_
  obtain ⟨b, -, rfl⟩ := List.mem_map.1 hitem
  have hbyte : b.toNat < 256 := b.toNat_lt
  have hlimit : 256 ≤ Text.wordLimit 64 := by decide
  show IsWord b.toNat
  exact ⟨by omega, by omega⟩

end ProofToolchain.Json
