import ProofToolchain.Json.Literal
import ProofToolchain.Json.Number

/-!
# Reading JSON values

A value is read from its text in two steps: the text gives a literal, and the literal gives a
value if its numbers fit, the escapes of its strings make characters, and it nests at most 127
arrays and objects. Of a repeated key the last member counts.
-/

namespace ProofToolchain.Json

/-- The deepest nesting of arrays and objects that is read. -/
def maxDepth : Nat := 127

namespace Literal

/-- The text of a string literal. -/
def string? : Literal → Option String
  | .string units => (decodeUnits? units).map String.ofList
  | _ => none

/-- A member with its key as text and its value read by `read`. -/
def member? (read : Literal → Option Json) (m : List StringUnit × Literal) :
    Option (String × Json) := do
  let key ← decodeUnits? m.1
  let value ← read m.2
  return (String.ofList key, value)

/-- **The value of a literal** that nests at most `depth` arrays and objects. -/
def toJson? (depth : Nat) : Literal → Option Json
  | .null => some .null
  | .bool value => some (.bool value)
  | .number text => text.value?.map .number
  | .string units => (decodeUnits? units).map fun cs => .string (String.ofList cs)
  | .array items =>
    match depth with
    | 0 => none
    | d + 1 => (items.mapM (toJson? d)).map .array
  | .object members =>
    match depth with
    | 0 => none
    | d + 1 => (members.mapM (member? (toJson? d))).map ofMembers

end Literal

/-- **The value that a text spells.** -/
def parse? (text : String) : Option Json :=
  (Literal.parse? text.toList).bind (Literal.toJson? maxDepth)

end ProofToolchain.Json
