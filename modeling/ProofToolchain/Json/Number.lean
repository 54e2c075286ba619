import ProofToolchain.Floating.Layout
import ProofToolchain.Json.Basic
import ProofToolchain.Json.Token

/-!
# The value of a number in a JSON text

A number without point and exponent is an integer if a 64-bit word holds it, unsigned or negative.
Every other number is a double, a negative zero among them.

A double is read in **two roundings**, not in one. The leading digits that an unsigned word holds
are rounded to a double, and that double is then multiplied or divided by a power of ten, itself
rounded; digits the word has no room for only move the point. The result may therefore differ from
the nearest double in its last place. Powers of ten go up to `10^308`, beyond which a number is
divided in several steps; a number too large for a double is refused.
-/

namespace ProofToolchain.Json

open Floating (Finite Fraction Format)

/-- **Digits appended to a significand** while the word holds the result: the significand, and how
many digits it took. -/
def absorb (significand : Nat) : List Char → Nat × Nat
  | [] => (significand, 0)
  | c :: cs =>
    let next := significand * 10 + (c.toNat - '0'.toNat)
    if next < Text.wordLimit 64 then
      let (result, count) := absorb next cs
      (result, count + 1)
    else (significand, 0)

/-- A power of ten as a double. -/
def tenToThe (n : Nat) : Option Finite :=
  Format.double.round? false (.ofNat (Nat.pow 10 n))

/-- A double divided by `10^n`, in steps of at most `10^308`, each of them rounded. -/
def shrink (x : Finite) (n : Nat) : Option Finite :=
  if x.significand = 0 then some x
  else if n ≤ 308 then do
    let power ← tenToThe n
    Format.double.round? x.negative (x.magnitude.div power.magnitude)
  else do
    let power ← tenToThe 308
    let y ← Format.double.round? x.negative (x.magnitude.div power.magnitude)
    shrink y (n - 308)
termination_by n

/-- A double multiplied by `10^n`, unless that is too large. -/
def grow (x : Finite) (n : Nat) : Option Finite :=
  if x.significand = 0 then some x
  else if n ≤ 308 then do
    let power ← tenToThe n
    Format.double.round? x.negative (x.magnitude.mul power.magnitude)
  else none

/-- The double that a significand times a power of ten is read as. -/
def scaled? (negative : Bool) (significand : Nat) (exponent : Int) : Option Finite := do
  let x ← Format.double.round? negative (.ofNat significand)
  if exponent < 0 then shrink x exponent.natAbs else grow x exponent.natAbs

/-- The value of an exponent part. -/
def exponentValue : Option (Bool × List Char) → Int
  | none => 0
  | some (negative, digits) =>
    let n : Int := Nat.ofDigitChars 10 digits 0
    if negative then -n else n

/-- **The number that digits are read as**; `none` if it is too large for a double. -/
def NumberText.value? (t : NumberText) : Option Number :=
  let (leading, count) := absorb 0 t.whole
  let dropped := t.whole.length - count
  match t.fraction, t.exponent with
  | none, none =>
    if dropped = 0 ∧ t.negative = false then some (.integer leading)
    else if dropped = 0 ∧ 0 < leading ∧ leading ≤ Text.wordLimit 63 then some (.integer (-leading))
    else (scaled? t.negative leading dropped).map .double
  | fraction, exponent =>
    let (significand, taken) := absorb leading (fraction.getD [])
    (scaled? t.negative significand (dropped - taken + exponentValue exponent)).map .double

end ProofToolchain.Json
