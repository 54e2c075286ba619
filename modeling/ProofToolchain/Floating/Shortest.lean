import ProofToolchain.Floating.Rounding

/-!
# The shortest digits that read back

A floating-point number stands for every real that rounds to it, which is an interval around it;
the two ends belong to the interval when its significand is even. The digits to print are the
fewest that spell a number of that interval, and of those the nearest to the number itself. Where
two are equally near, a caller says which of them is meant (`Tie`).

For one digit, two digits and so on, the number's two neighbours on the decimal grid with that
many digits are tried. If any point of a grid lies in the interval, so does one of the two
neighbours, and the first grid with a hit gives the shortest digits.
-/

namespace ProofToolchain.Floating

/-- **A positive decimal number**: its digits, of which neither the first nor the last is zero,
and the power of ten that its first digit counts. -/
structure Digits where
  /-- The digits. -/
  digits : List Char
  /-- The exponent of ten of the first digit. -/
  exponent : Int

/-- The power of ten that the first digit of a positive fraction counts. -/
def decimalExponent (x : Fraction) : Int :=
  let guess := (((x.num.log2 : Int) - x.den.log2) * 30103).fdiv 100000
  let power := (Fraction.ofNat 1).scale 10
  if (power (guess + 1)).le x then guess + 1
  else if (power guess).le x then guess
  else guess - 1

/-- The reals that round to a number, by their ends, and whether the ends do so too. -/
structure Interval where
  /-- The lower end. -/
  low : Fraction
  /-- The upper end. -/
  high : Fraction
  /-- Whether the ends belong to the interval. -/
  closed : Bool

/-- Whether a fraction lies in an interval. -/
def Interval.holds (i : Interval) (x : Fraction) : Bool :=
  if i.closed then i.low.le x && x.le i.high else i.low.lt x && x.lt i.high

/-- **The reals that round to a positive number.** Below a power of two the grid is twice as fine,
so the lower end is half as far away there. -/
def Format.interval (f : Format) (x : Finite) : Interval :=
  let m := x.significand
  let quarter (n : Nat) : Fraction := (Fraction.ofNat n).scale 2 (x.exponent - 2)
  let atPower := m = Nat.pow 2 (f.precision - 1) ∧ f.least < x.exponent
  { low := quarter (if atPower then 4 * m - 1 else 4 * m - 2)
    high := quarter (4 * m + 2)
    closed := m % 2 == 0 }

/-- **Which of two neighbours is taken** when the number lies halfway between them. -/
inductive Tie where
  /-- The even one. -/
  | toEven
  /-- The upper one. -/
  | up
  deriving DecidableEq, Repr

/-- The whole number nearest to a quotient. -/
def Tie.roundDiv (tie : Tie) (num den : Nat) : Nat :=
  match tie with
  | .toEven => Floating.roundDiv num den
  | .up => (2 * num + den) / (2 * den)

/-- Whatever becomes of ties, the rounded quotient is within half a unit of the quotient. -/
theorem Tie.roundDiv_within (tie : Tie) (num : Nat) {den : Nat} (h : 0 < den) :
    2 * num ≤ (2 * tie.roundDiv num den + 1) * den
      ∧ (2 * tie.roundDiv num den) * den ≤ 2 * num + den := by
  cases tie with
  | toEven => exact Floating.roundDiv_within num h
  | up =>
    have hq := Nat.div_add_mod (2 * num + den) (2 * den)
    have hr := Nat.mod_lt (2 * num + den) (by omega : 0 < 2 * den)
    have hm : 2 * ((2 * num + den) / (2 * den)) * den
        = 2 * den * ((2 * num + den) / (2 * den)) := by
      rw [Nat.mul_right_comm]
    simp only [Tie.roundDiv, Nat.add_mul, Nat.one_mul]
    omega

/-- The neighbour of `x` on a decimal grid that lies in the interval, in grid steps: of two, the
nearer one. -/
def gridPoint? (tie : Tie) (i : Interval) (x : Fraction) (step : Int) : Option Nat :=
  let point (n : Nat) : Fraction := (Fraction.ofNat n).scale 10 step
  let scaled := x.scale 10 (-step)
  let below := scaled.num / scaled.den
  match i.holds (point below) && 0 < below, i.holds (point (below + 1)) with
  | false, false => none
  | true, false => some below
  | false, true => some (below + 1)
  | true, true => some (tie.roundDiv scaled.num scaled.den)

/-- The first of the given digit counts whose grid meets the interval, with the point that does:
the point in grid steps and the step. -/
def firstGrid? (tie : Tie) (i : Interval) (x : Fraction) (exponent : Int) :
    List Nat → Option (Nat × Int)
  | [] => none
  | count :: counts =>
    let step := exponent - (count : Int) + 1
    match gridPoint? tie i x step with
    | some n => some (n, step)
    | none => firstGrid? tie i x exponent counts

/-- **The shortest digits of a positive number** that read back as it. Seventeen digits are always
enough in double precision. -/
def Format.shortest (f : Format) (tie : Tie) (x : Finite) : Digits :=
  let value := x.magnitude
  let found := firstGrid? tie (f.interval x) value (decimalExponent value)
    [1, 2, 3, 4, 5, 6, 7, 8, 9, 10, 11, 12, 13, 14, 15, 16, 17]
  let (n, step) := found.getD (0, 0)
  let digits := Nat.toDigits 10 n
  { digits := (digits.reverse.dropWhile (· == '0')).reverse
    exponent := step + digits.length - 1 }

end ProofToolchain.Floating
