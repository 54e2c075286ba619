/-!
# Floating-point numbers by exact arithmetic

A finite floating-point number is a significand times a power of two, with a sign. Here it is
computed with as whole numbers: a value to be stored is an exact fraction, and it is **rounded
once**, to the nearest number of the format and at a tie to the one with an even significand
(`Format.nearest?`). No machine arithmetic is involved, so a conversion can be reasoned about like
any other function on naturals.

The two formats in use are `Format.double` and `Format.single`, which differ in three numbers.
-/

namespace ProofToolchain.Floating

/-- A non-negative fraction; `den` is positive in every fraction built here. -/
structure Fraction where
  /-- The numerator. -/
  num : Nat
  /-- The denominator. -/
  den : Nat

namespace Fraction

/-- A fraction times a power of `base`, whose exponent may be negative. -/
def scale (x : Fraction) (base : Nat) (e : Int) : Fraction :=
  ⟨x.num * base.pow e.toNat, x.den * base.pow (-e).toNat⟩

/-- A whole number as a fraction. -/
def ofNat (n : Nat) : Fraction := ⟨n, 1⟩

/-- Comparison by cross products. -/
def le (x y : Fraction) : Bool := x.num * y.den ≤ y.num * x.den

/-- Strict comparison by cross products. -/
def lt (x y : Fraction) : Bool := x.num * y.den < y.num * x.den

/-- The product of two fractions. -/
def mul (x y : Fraction) : Fraction := ⟨x.num * y.num, x.den * y.den⟩

/-- The quotient of two fractions; the divisor is not zero. -/
def div (x y : Fraction) : Fraction := ⟨x.num * y.den, x.den * y.num⟩

end Fraction

/-- **The whole number nearest to a quotient**; of two equally near, the even one. -/
def roundDiv (num den : Nat) : Nat :=
  let q := num / den
  let r := num % den
  if den < 2 * r || (2 * r == den && q % 2 == 1) then q + 1 else q

/-- The rounded quotient is within half a unit of the quotient. -/
theorem roundDiv_within (num : Nat) {den : Nat} (h : 0 < den) :
    2 * num ≤ (2 * roundDiv num den + 1) * den ∧ (2 * roundDiv num den) * den ≤ 2 * num + den := by
  have hq := Nat.div_add_mod num den
  have hr := Nat.mod_lt num h
  have hm : 2 * (num / den) * den = 2 * (den * (num / den)) := by
    rw [Nat.mul_assoc, Nat.mul_comm (num / den)]
  simp only [roundDiv, Bool.or_eq_true, decide_eq_true_eq, Bool.and_eq_true, beq_iff_eq]
  split <;> simp only [Nat.mul_add, Nat.add_mul, Nat.one_mul, Nat.mul_one] at * <;> omega

/-- **A binary floating-point format.** -/
structure Format where
  /-- The bits of a significand. -/
  precision : Nat
  /-- The exponent of the smallest positive number, which is the unit of the numbers too small for
  a full significand. -/
  least : Int
  /-- The exponent of the largest numbers. -/
  greatest : Int

/-- Double precision: 53 bits. -/
def Format.double : Format := ⟨53, -1074, 971⟩

/-- Single precision: 24 bits. -/
def Format.single : Format := ⟨24, -149, 104⟩

/-- **A finite floating-point number**: the significand times two to the exponent, with a sign.
Zero keeps its sign. -/
structure Finite where
  /-- Whether a minus sign stands before the number. -/
  negative : Bool
  /-- The significand. -/
  significand : Nat
  /-- The exponent of two. -/
  exponent : Int
  deriving DecidableEq, Repr

/-- The magnitude of a number as a fraction. -/
def Finite.magnitude (x : Finite) : Fraction :=
  (Fraction.ofNat x.significand).scale 2 x.exponent

namespace Format

/-- The exponent at which a fraction fills the significand, or the least one of the format if the
fraction is too small for that. -/
def exponentOf (f : Format) (x : Fraction) : Int :=
  let high : Int := x.num.log2 - x.den.log2 + 1 - f.precision
  let low := high - 1
  let full := (Fraction.ofNat (Nat.pow 2 (f.precision - 1))).scale 2 high
  max f.least (if x.lt full then low else high)

/-- **The number of a format nearest to a fraction**, as significand and exponent; `none` if it is
larger than all of them. -/
def nearest? (f : Format) (x : Fraction) : Option (Nat × Int) :=
  let e := f.exponentOf x
  let scaled := x.scale 2 (-e)
  let m := roundDiv scaled.num scaled.den
  let (m, e) := if m = Nat.pow 2 f.precision then (Nat.pow 2 (f.precision - 1), e + 1) else (m, e)
  if f.greatest < e then none else some (m, e)

/-- The finite number of a format nearest to a fraction with a sign. -/
def round? (f : Format) (negative : Bool) (x : Fraction) : Option Finite :=
  (f.nearest? x).map fun (m, e) => ⟨negative, m, e⟩

/-- The number of a format nearest to a decimal one, `digits` times ten to the `exponent`. An
exponent that takes the number far beyond every format, or far below, is not expanded. -/
def ofDecimal? (f : Format) (negative : Bool) (digits : Nat) (exponent : Int) : Option Finite :=
  let places : Int := (Nat.toDigits 10 digits).length
  if digits = 0 ∨ places + exponent < -400 then f.round? negative (.ofNat 0)
  else if 400 < places + exponent then none
  else f.round? negative ((Fraction.ofNat digits).scale 10 exponent)

end Format

end ProofToolchain.Floating
