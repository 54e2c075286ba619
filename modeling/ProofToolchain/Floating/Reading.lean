import ProofToolchain.Floating.Rounding
import ProofToolchain.Text.Numeral

/-!
# Decimal texts of floating-point numbers

A floating-point argument is given as text: a sign, then digits with a point and an exponent, or
the name of an infinity or of no number. The text is read as an exact decimal and rounded once, so
the value is the nearest of its format.
-/

namespace ProofToolchain.Floating

/-- **A floating-point value**, which may be no number. -/
inductive Value where
  /-- A finite number. -/
  | finite (x : Finite)
  /-- An infinity. -/
  | infinite (negative : Bool)
  /-- No number. -/
  | undefined

/-- An exponent part after its letter: digits with at most one sign before them. -/
def readExponent? : List Char → Option Int
  | '-' :: cs => (Text.ofDigits? cs).map fun n => -(n : Int)
  | '+' :: cs => (Text.ofDigits? cs).map Int.ofNat
  | cs => (Text.ofDigits? cs).map Int.ofNat

/-- A decimal number without its sign, as digits times a power of ten. There is a digit before the
point or after it. -/
def readDecimal? (cs : List Char) : Option (Nat × Int) := do
  let whole := cs.takeWhile Char.isDigit
  let rest := cs.dropWhile Char.isDigit
  let (fraction, rest) := match rest with
    | '.' :: rest => (rest.takeWhile Char.isDigit, rest.dropWhile Char.isDigit)
    | _ => ([], rest)
  let digits ← Text.ofDigits? (whole ++ fraction)
  let exponent ← match rest with
    | [] => some 0
    | 'e' :: rest => readExponent? rest
    | 'E' :: rest => readExponent? rest
    | _ => none
  return (digits, exponent - fraction.length)

/-- **The value of a format that a text spells.** A number too large for the format is an
infinity. -/
def Format.read? (f : Format) (cs : List Char) : Option Value :=
  let (negative, body) := match cs with
    | '-' :: rest => (true, rest)
    | '+' :: rest => (false, rest)
    | _ => (false, cs)
  let name := String.ofList (body.map Char.toLower)
  if name = "inf" ∨ name = "infinity" then some (.infinite negative)
  else if name = "nan" then some .undefined
  else (readDecimal? body).map fun (digits, exponent) =>
    match f.ofDecimal? negative digits exponent with
    | some x => .finite x
    | none => .infinite negative

end ProofToolchain.Floating
