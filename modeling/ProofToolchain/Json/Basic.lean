import ProofToolchain.Entries
import ProofToolchain.Floating.Rounding

/-!
# JSON values

Arguments, interfaces, flags and decoded outputs are JSON values. A number is an integer of a
machine word or a double, and the two never mix: `1` and `1.0` are different values with different
texts. An object is a list of entries; a value read from a text or encoded from an argument has
them in key order (`Json.ofMembers`), while a record writes its fields in the order it declares.
-/

namespace ProofToolchain

namespace Json

/-- **A JSON number.** -/
inductive Number where
  /-- An integer, unsigned or negative, that a 64-bit word holds. -/
  | integer (value : Int)
  /-- A double. -/
  | double (value : Floating.Finite)
  deriving DecidableEq, Repr

end Json

/-- **A JSON value.** -/
inductive Json where
  /-- No value. -/
  | null
  /-- A truth value. -/
  | bool (value : Bool)
  /-- A number. -/
  | number (value : Json.Number)
  /-- A string. -/
  | string (value : String)
  /-- An array. -/
  | array (items : List Json)
  /-- An object. -/
  | object (members : List (String × Json))
  deriving Repr

namespace Json

/-- A natural number as a value. -/
def ofNat (n : Nat) : Json := .number (.integer n)

/-- The object with the given members, of which the last one counts for each key. -/
def ofMembers (members : List (String × Json)) : Json :=
  .object (Entries.setAll [] members)

/-- A member of an object; `none` for any other value. -/
def get? (key : String) : Json → Option Json
  | .object members => Entries.get? key members
  | _ => none

/-- The items of an array. -/
def items? : Json → Option (List Json)
  | .array items => some items
  | _ => none

/-- The text of a string. -/
def string? : Json → Option String
  | .string value => some value
  | _ => none

/-- The value of an integer that is not negative. -/
def nat? : Json → Option Nat
  | .number (.integer value) => if 0 ≤ value then some value.toNat else none
  | _ => none

end Json

end ProofToolchain
