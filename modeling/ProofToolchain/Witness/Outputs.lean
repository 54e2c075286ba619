import ProofToolchain.Error
import ProofToolchain.Text.Numeral

/-!
# The outputs in a witness file

A witness file has a line for each variable, its name and its value with blanks between them.
The public outputs are the variables `~out_0`, `~out_1` and so on; they are listed by index, and
lines of one index keep their order. A line needs a name and a value, whatever variable it is for,
and what follows the value is not looked at.
-/

namespace ProofToolchain.Witness

/-- What the name of an output variable starts with. -/
def outputName : List Char := "~out_".toList

/-- The complaint about a line without a value. -/
def malformedLine (line : List Char) : Error :=
  .stage .witness ("malformed witness line: " ++ String.ofList line)

/-- The complaint about an output variable without an index. -/
def malformedVariable (name : List Char) : Error :=
  .stage .witness ("malformed output variable: " ++ String.ofList name)

/-- The index of an output variable, an unsigned word; `none` for any other variable. -/
def outputIndex? (name : List Char) : Except Error (Option Nat) :=
  if outputName.isPrefixOf name then
    match Text.readUnsigned? 64 (name.drop outputName.length) with
    | some index => .ok (some index)
    | none => .error (malformedVariable name)
  else .ok none

/-- **One line** that is not blank: the output it gives, with its index. -/
def readLine (line : List Char) : Except Error (Option (Nat × String)) :=
  match Text.words line with
  | name :: value :: _ => do
    let index? ← outputIndex? name
    return index?.map fun index => (index, String.ofList value)
  | _ => .error (malformedLine line)

/-- The lines of a witness file, without blanks around them and without blank ones. -/
def fileLines (file : List Char) : List (List Char) :=
  ((Text.lines file).map Text.trim).filter (!·.isEmpty)

/-- The outputs of a witness file in the order of its lines. -/
def unsortedOutputs (file : List Char) : Except Error (List (Nat × String)) := do
  let found ← (fileLines file).mapM readLine
  return found.filterMap id

/-- **The outputs of a witness file** by index. -/
def outputs (file : String) : Except Error (List String) := do
  let found ← unsortedOutputs file.toList
  return (found.mergeSort fun a b => a.1 ≤ b.1).map (·.2)

end ProofToolchain.Witness
