import Mathlib
import ProofToolchain.Abi.Output
import ProofToolchain.Text.Utf8

/-!
# Unsigned outputs keep their values

A value of an unsigned type comes as a decimal numeral and leaves as hexadecimal digits behind
`0x`, padded to the width of its type. Two limits meet here: the type says how many digits there
are at least, and a word of 64 bits, whatever the type, says which numbers are turned into digits at
all. So numbers are of three sorts. Those of the type have exactly its digits, those that the type
is too narrow for have more, and those that no word holds stay decimal.

No sort loses anything. Digits are read back as the number they were written for, with any padding
(`Text.readHex?_hexPadded`), and a decimal numeral is told from them by the `x` that it lacks.
-/

namespace ProofToolchain

/-! ## Hexadecimal numerals -/

namespace Text

/-- The number that hexadecimal digits spell, the first digit counting most. -/
def readHex? (cs : List Char) : Option Nat :=
  cs.foldlM (fun n c => (hexValue? c).map (16 * n + ·)) 0

/-- A hexadecimal digit, and in lower case if it is a letter. -/
def IsLowerHex (c : Char) : Prop :=
  ('0' ≤ c ∧ c ≤ '9') ∨ ('a' ≤ c ∧ c ≤ 'f')

instance : DecidablePred IsLowerHex := fun _ => inferInstanceAs (Decidable (_ ∨ _))

/-- **Digits spell a number at a width**: they are as many as that, in lower case, and of that
value. -/
structure IsHexSpelling (digits : List Char) (width n : Nat) : Prop where
  /-- There are as many digits as that. -/
  length : digits.length = width
  /-- Each is a hexadecimal digit in lower case. -/
  lowerCase : ∀ c ∈ digits, IsLowerHex c
  /-- Together they are read as the number. -/
  value : readHex? digits = some n

/-- A digit is written in lower case and has the value it was written for. -/
theorem digitChar_spells {d : Nat} (h : d < 16) :
    IsLowerHex (Nat.digitChar d) ∧ hexValue? (Nat.digitChar d) = some d := by
  have hall : ∀ d < 16,
      IsLowerHex (Nat.digitChar d) ∧ hexValue? (Nat.digitChar d) = some d := by decide
  exact hall d h

theorem readHex?_concat (cs : List Char) (c : Char) :
    readHex? (cs ++ [c]) = (readHex? cs).bind fun n => (hexValue? c).map (16 * n + ·) := by
  simp [readHex?, List.foldlM_append]

/-- **Digits are read back** as the number they were written for. -/
theorem toDigits_spells (n : Nat) :
    (∀ c ∈ Nat.toDigits 16 n, IsLowerHex c) ∧ readHex? (Nat.toDigits 16 n) = some n := by
  -- the last digit is the remainder, and those before it spell the quotient
  induction n using Nat.strongRecOn with
  | _ n ih =>
    obtain ⟨hlower, hvalue⟩ := digitChar_spells (Nat.mod_lt n (show 0 < 16 by omega))
    rw [Nat.toDigits_eq_if (by omega)]
    split
    · rename_i hlt
      rw [Nat.mod_eq_of_lt hlt] at hlower hvalue
      refine ⟨by simpa using hlower, ?_⟩
      simp [readHex?, hvalue]
    · rename_i hle
      obtain ⟨ihlower, ihvalue⟩ := ih (n / 16) (by omega)
      refine ⟨fun c hc => ?_, ?_⟩
      · rcases List.mem_append.1 hc with hc | hc
        · exact ihlower c hc
        · exact List.mem_singleton.1 hc ▸ hlower
      · rw [readHex?_concat, ihvalue, hvalue]
        exact congrArg some (Nat.div_add_mod n 16)

/-- Leading zeros change no value. -/
theorem readHex?_replicate_append (k : Nat) (cs : List Char) :
    readHex? (List.replicate k '0' ++ cs) = readHex? cs := by
  induction k with
  | zero => rfl
  | succ k ih => exact ih

theorem readHex?_hexPadded (width n : Nat) : readHex? (hexPadded width n) = some n := by
  rw [hexPadded, readHex?_replicate_append]
  exact (toDigits_spells n).2

theorem hexPadded_injective (width : Nat) : Function.Injective (hexPadded width) := fun m n h =>
  Option.some.inj ((readHex?_hexPadded width m).symm.trans (h ▸ readHex?_hexPadded width n))

theorem isLowerHex_of_mem_hexPadded {width n : Nat} {c : Char} (h : c ∈ hexPadded width n) :
    IsLowerHex c := by
  rcases List.mem_append.1 h with hzero | hdigit
  · rw [List.eq_of_mem_replicate hzero]
    decide
  · exact (toDigits_spells n).1 c hdigit

/-- **A padded numeral spells its number**, whatever the width it ends up with. -/
theorem hexPadded_spells (width n : Nat) :
    IsHexSpelling (hexPadded width n) (hexPadded width n).length n where
  length := rfl
  lowerCase _ := isLowerHex_of_mem_hexPadded
  value := readHex?_hexPadded width n

/-- Digits are filled up to the width and never cut to it. -/
theorem length_hexPadded (width n : Nat) :
    (hexPadded width n).length = max width (Nat.toDigits 16 n).length := by
  simp only [hexPadded, List.length_append, List.length_replicate]
  omega

/-- **A numeral keeps to its width** if and only if its number has no more digits. -/
theorem length_hexPadded_eq_iff {width n : Nat} (h : 0 < width) :
    (hexPadded width n).length = width ↔ n < 16 ^ width := by
  rw [length_hexPadded, ← Nat.length_toDigits_le_iff (by omega) h]
  omega

/-- A decimal numeral has no letter in it. -/
theorem decimal_ne_zero_x (n : Nat) (digits : List Char) : decimal n ≠ '0' :: 'x' :: digits := by
  intro heq
  have hx : 'x' ∈ decimal n := by simp [heq]
  exact absurd (isDigit_of_mem_decimal hx) (by decide)

end Text

/-! ## Unsigned values -/

namespace OutputType

/-- **The unsigned types**, each with its width in bits. -/
def unsignedTypes : List (String × Nat) :=
  [("u8", 8), ("u16", 16), ("u32", 32), ("u64", 64)]

/-- A number as it comes out of a program. -/
def numeral (n : Nat) : String := String.ofList (Text.decimal n)

/-- Digits as they are shown. -/
def hexText (digits : List Char) : String := String.ofList ('0' :: 'x' :: digits)

theorem numeral_injective : Function.Injective numeral := fun _ _ h =>
  Text.decimal_inj (String.ofList_injective h)

theorem hexText_injective : Function.Injective hexText := fun _ _ h =>
  (List.cons.inj (List.cons.inj (String.ofList_injective h)).2).2

theorem numeral_ne_hexText (n : Nat) (digits : List Char) : numeral n ≠ hexText digits := fun h =>
  Text.decimal_ne_zero_x n digits (String.ofList_injective h)

/-- **An unsigned type** has its width read off its name. It has a digit for each four of its bits,
and no more bits than a word. -/
theorem of_mem_unsignedTypes {type : String × Nat} (h : type ∈ unsignedTypes) :
    type.1 ≠ "bool" ∧ unsignedWidth? type.1 = some type.2
      ∧ 0 < type.2 / 4 ∧ 16 ^ (type.2 / 4) = 2 ^ type.2 ∧ 2 ^ type.2 ≤ 2 ^ 64 := by
  have hall : ∀ type ∈ unsignedTypes,
      type.1 ≠ "bool" ∧ unsignedWidth? type.1 = some type.2
        ∧ 0 < type.2 / 4 ∧ 16 ^ (type.2 / 4) = 2 ^ type.2 ∧ 2 ^ type.2 ≤ 2 ^ 64 := by decide
  exact hall type h

section

variable {name : String} {bits : Nat}

/-- **An unsigned value that fits a word** is shown in hexadecimal. -/
theorem decodeScalar_of_lt (h : (name, bits) ∈ unsignedTypes) {n : Nat} (hn : n < 2 ^ 64) :
    decodeScalar name (numeral n) = .string (hexText (Text.hexPadded (bits / 4) n)) := by
  obtain ⟨hbool, hwidth, -⟩ := of_mem_unsignedTypes h
  have hread : Text.readUnsigned? 64 (numeral n).toList = some n := by
    rw [numeral, String.toList_ofList]
    exact Text.readUnsigned?_decimal hn
  simp only [decodeScalar, hbool, if_false, hwidth, hread]
  rfl

/-- **An unsigned value that no word holds** stays as it is. -/
theorem decodeScalar_of_le (h : (name, bits) ∈ unsignedTypes) {n : Nat} (hn : 2 ^ 64 ≤ n) :
    decodeScalar name (numeral n) = .string (numeral n) := by
  obtain ⟨hbool, hwidth, -⟩ := of_mem_unsignedTypes h
  have hread : Text.readUnsigned? 64 (numeral n).toList = none := by
    rw [numeral, String.toList_ofList]
    exact Text.readUnsigned?_decimal_eq_none hn
  simp only [decodeScalar, hbool, if_false, hwidth, hread]

/-- **Two numbers are never shown alike**, at any size and on either side of what a word holds. -/
theorem decodeScalar_numeral_injective (h : (name, bits) ∈ unsignedTypes) :
    Function.Injective fun n => decodeScalar name (numeral n) := by
  intro m n heq
  dsimp only at heq
  rcases Nat.lt_or_ge m (2 ^ 64) with hm | hm <;> rcases Nat.lt_or_ge n (2 ^ 64) with hn | hn
  · -- both are digits, which are read back
    rw [decodeScalar_of_lt h hm, decodeScalar_of_lt h hn] at heq
    exact Text.hexPadded_injective _ (hexText_injective (Json.string.inj heq))
  · rw [decodeScalar_of_lt h hm, decodeScalar_of_le h hn] at heq
    exact absurd (Json.string.inj heq).symm (numeral_ne_hexText n _)
  · rw [decodeScalar_of_le h hm, decodeScalar_of_lt h hn] at heq
    exact absurd (Json.string.inj heq) (numeral_ne_hexText m _)
  · rw [decodeScalar_of_le h hm, decodeScalar_of_le h hn] at heq
    exact numeral_injective (Json.string.inj heq)

/-- **Unsigned values are shown without loss.** A number of the type is shown as `0x` and as many
lower-case digits as the type has, which spell it. A number that the type is too narrow for, but
not a word, is shown in the same way with more digits, and a number that no word holds as the
decimal numeral that it was. No two numbers are shown alike. -/
theorem decodeScalar_unsigned_lossless (h : (name, bits) ∈ unsignedTypes) :
    (∀ n < 2 ^ bits, ∃ digits, decodeScalar name (numeral n) = .string (hexText digits)
        ∧ Text.IsHexSpelling digits (bits / 4) n)
    ∧ (∀ n, 2 ^ bits ≤ n → n < 2 ^ 64 →
        ∃ digits width, decodeScalar name (numeral n) = .string (hexText digits)
          ∧ Text.IsHexSpelling digits width n ∧ bits / 4 < width)
    ∧ (∀ n, 2 ^ 64 ≤ n → decodeScalar name (numeral n) = .string (numeral n))
    ∧ Function.Injective fun n => decodeScalar name (numeral n) := by
  obtain ⟨-, -, hpos, hpow, hword⟩ := of_mem_unsignedTypes h
  -- a number has the digits of its type if and only if it is one of its type
  have hwidth : ∀ n, (Text.hexPadded (bits / 4) n).length = bits / 4 ↔ n < 2 ^ bits := fun n =>
    hpow ▸ Text.length_hexPadded_eq_iff hpos
  refine ⟨fun n hn => ?_, fun n hle hn => ?_, fun _ => decodeScalar_of_le h,
    decodeScalar_numeral_injective h⟩
  · refine ⟨_, decodeScalar_of_lt h (Nat.lt_of_lt_of_le hn hword), ?_⟩
    have hspells := Text.hexPadded_spells (bits / 4) n
    rwa [(hwidth n).2 hn] at hspells
  · refine ⟨_, _, decodeScalar_of_lt h hn, Text.hexPadded_spells (bits / 4) n, ?_⟩
    have hmax := Text.length_hexPadded (bits / 4) n
    have hne := mt (hwidth n).1 (Nat.not_lt.2 hle)
    omega

end

/-- A byte has two digits, a number just too large for a byte three, and one just too large for a
word is left alone. -/
theorem decodeScalar_unsigned_lossless_byte :
    ("u8", 8) ∈ unsignedTypes
    ∧ (∃ digits, decodeScalar "u8" (numeral 10) = .string (hexText digits)
        ∧ Text.IsHexSpelling digits 2 10)
    ∧ decodeScalar "u8" (numeral 10) = .string "0x0a"
    ∧ decodeScalar "u8" (numeral 256) = .string "0x100"
    ∧ decodeScalar "u8" (numeral (2 ^ 64)) = .string "18446744073709551616" :=
  have hu8 : ("u8", 8) ∈ unsignedTypes := by decide
  ⟨hu8, (decodeScalar_unsigned_lossless hu8).1 10 (by decide), rfl, rfl, rfl⟩

end OutputType

end ProofToolchain
