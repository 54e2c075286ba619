/-!
# Numerals

Whole numbers as text: decimal digits, hexadecimal digits padded with zeros to a width, and the
reading of decimal numerals into a machine word. A reader accepts one sign, at least one digit and
nothing else, and refuses a number that its word cannot hold.
-/

namespace ProofToolchain.Text

/-- The decimal digits of a number, without leading zeros. -/
def decimal (n : Nat) : List Char :=
  Nat.toDigits 10 n

/-- An integer in decimal, with a minus sign if it is negative. -/
def decimalInt (i : Int) : List Char :=
  if i < 0 then '-' :: decimal i.natAbs else decimal i.natAbs

/-- Lower-case hexadecimal digits, filled up with leading zeros to `width` digits. -/
def hexPadded (width n : Nat) : List Char :=
  let digits := Nat.toDigits 16 n
  List.replicate (width - digits.length) '0' ++ digits

/-- The number that a run of decimal digits spells. -/
def ofDigits? (cs : List Char) : Option Nat :=
  if !cs.isEmpty && cs.all Char.isDigit then some (Nat.ofDigitChars 10 cs 0) else none

theorem isDigit_of_mem_decimal {n : Nat} {c : Char} (h : c ∈ decimal n) : c.isDigit = true :=
  Nat.isDigit_of_mem_toDigits (by decide) (by decide) h

/-- Digits spell the number they were written for. -/
@[simp] theorem ofDigits?_decimal (n : Nat) : ofDigits? (decimal n) = some n := by
  have hne : (Nat.toDigits 10 n).isEmpty = false := by
    simp [Nat.toDigits_ne_nil]
  have hall : (Nat.toDigits 10 n).all Char.isDigit = true :=
    List.all_eq_true.2 fun c => isDigit_of_mem_decimal
  simp [ofDigits?, decimal, hne, hall]

/-- Different numbers have different digits. -/
theorem decimal_inj {m n : Nat} (h : decimal m = decimal n) : m = n := by
  have hread := congrArg ofDigits? h
  rwa [ofDigits?_decimal, ofDigits?_decimal, Option.some_inj] at hread

/-- The number of values of a word of some bits. -/
def wordLimit (bits : Nat) : Nat := Nat.pow 2 bits

/-- **An unsigned word in decimal**: digits with at most one plus sign before them, spelling a
number below two to the `bits`. -/
def readUnsigned? (bits : Nat) (cs : List Char) : Option Nat :=
  let digits := match cs with
    | '+' :: rest => rest
    | _ => cs
  (ofDigits? digits).filter (· < wordLimit bits)

/-- Digits have no sign before them, so they are read as the number they were written for, if the
word can hold it. -/
theorem readUnsigned?_decimal_eq_filter (bits n : Nat) :
    readUnsigned? bits (decimal n) = (some n).filter (· < wordLimit bits) := by
  have hsign : ∀ rest, decimal n ≠ '+' :: rest := by
    intro rest heq
    have hplus : '+' ∈ decimal n := heq ▸ List.mem_cons_self
    exact absurd (isDigit_of_mem_decimal hplus) (by decide)
  unfold readUnsigned?
  split
  · rename_i rest heq
    exact absurd heq (hsign rest)
  · simp only [ofDigits?_decimal]

/-- **A word is read back** from its digits. -/
theorem readUnsigned?_decimal {bits n : Nat} (h : n < wordLimit bits) :
    readUnsigned? bits (decimal n) = some n := by
  simp [readUnsigned?_decimal_eq_filter, h]

/-- **A number that the word cannot hold** is refused. -/
theorem readUnsigned?_decimal_eq_none {bits n : Nat} (h : wordLimit bits ≤ n) :
    readUnsigned? bits (decimal n) = none := by
  simp [readUnsigned?_decimal_eq_filter, h]

/-- **A signed word in decimal**: digits with at most one sign before them, spelling a number from
minus two to the `bits - 1` up to, and not including, its opposite. -/
def readSigned? (bits : Nat) (cs : List Char) : Option Int :=
  match cs with
  | '-' :: rest => ((ofDigits? rest).filter (· ≤ wordLimit (bits - 1))).map fun n => -(n : Int)
  | '+' :: rest => ((ofDigits? rest).filter (· < wordLimit (bits - 1))).map Int.ofNat
  | _ => ((ofDigits? cs).filter (· < wordLimit (bits - 1))).map Int.ofNat

end ProofToolchain.Text
