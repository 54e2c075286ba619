import ProofToolchain.Floating.Shortest
import ProofToolchain.Text.Numeral

/-!
# How a floating-point number is written

The digits of a number are settled by `Format.shortest`; a **layout** settles the rest: when the
point is placed among the digits and when the number is written with an exponent, whether a whole
number keeps a fraction, and which digits are taken at a tie. JSON texts use `Layout.json`, keys in
single precision use `Layout.jsonSingle`, and field elements use `Layout.plain`.
-/

namespace ProofToolchain.Floating

/-- **The decisions that a text of a number leaves open.** -/
structure Layout where
  /-- Whether a number whose first digit counts this power of ten is written without an
  exponent. -/
  positional : Int → Bool
  /-- Whether a whole number is written with `.0`. -/
  keepsFraction : Bool
  /-- Which digits are taken where two choices are equally near. -/
  tie : Tie

/-- JSON: no exponent for a first digit between `10^-5` and `10^15`, always a fraction, and even
digits at a tie. -/
def Layout.json : Layout := ⟨fun e => -5 ≤ e && e ≤ 15, true, .toEven⟩

/-- JSON in single precision: no exponent for a first digit between `10^-6` and `10^12`. -/
def Layout.jsonSingle : Layout := ⟨fun e => -6 ≤ e && e ≤ 12, true, .toEven⟩

/-- Field elements: never an exponent, a fraction only where there is one, and upper digits at a
tie. -/
def Layout.plain : Layout := ⟨fun _ => true, false, .up⟩

/-- Digits with the point placed by position. -/
def Layout.spread (l : Layout) (d : Digits) : List Char :=
  let fraction (ds : List Char) : List Char :=
    if !ds.isEmpty then '.' :: ds else if l.keepsFraction then ['.', '0'] else []
  if d.exponent < 0 then
    '0' :: fraction (List.replicate (-d.exponent - 1).toNat '0' ++ d.digits)
  else
    let places := d.exponent.toNat + 1
    d.digits.take places ++ List.replicate (places - d.digits.length) '0'
      ++ fraction (d.digits.drop places)

/-- Digits with a point after the first one, and the exponent with its sign. -/
def Layout.scientific (d : Digits) : List Char :=
  let fraction := match d.digits.drop 1 with
    | [] => []
    | ds => '.' :: ds
  let sign := if d.exponent < 0 then '-' else '+'
  d.digits.take 1 ++ fraction ++ 'e' :: sign :: Text.decimal d.exponent.natAbs

/-- **The text of a finite number of a format.** -/
def Layout.write (l : Layout) (f : Format) (x : Finite) : List Char :=
  let sign := if x.negative then ['-'] else []
  if x.significand = 0 then sign ++ '0' :: if l.keepsFraction then ['.', '0'] else []
  else
    let d := f.shortest l.tie x
    sign ++ if l.positional d.exponent then l.spread d else Layout.scientific d

end ProofToolchain.Floating
