import ProofToolchain.Error
import ProofToolchain.Json.Printer
import ProofToolchain.Json.Reading

/-!
# Arguments by position

A program without an interface takes field elements, one after another. The arguments it is given
are a JSON value whose leaves are those elements, from left to right; how they are bracketed does
not matter. A truth value is one or zero, and there is no element for `null` or an object.
-/

namespace ProofToolchain.Argument

/-- The complaint about a value that is no field element. -/
def notAField (j : Json) : Error :=
  .stage .witness ("programs without an ABI take field elements only, got " ++ j.text)

mutual

/-- **The field elements of a value**, from left to right. -/
def flatten : Json → Except Error (List String)
  | .array items => flattenAll items
  | .string value => .ok [value]
  | .number value => .ok [String.ofList value.chars]
  | .bool value => .ok [if value then "1" else "0"]
  | .null => .error (notAField .null)
  | .object members => .error (notAField (.object members))

/-- The field elements of several values; the first value without any decides the error. -/
def flattenAll : List Json → Except Error (List String)
  | [] => .ok []
  | item :: rest => do
    let elements ← flatten item
    let more ← flattenAll rest
    return elements ++ more

end

/-- **The field elements that an argument text spells.** -/
def flattenText (args : String) : Except Error (List String) :=
  match Json.parse? args with
  | some j => flatten j
  | none => .error .encoding

end ProofToolchain.Argument
