import ProofToolchain.Json.Reading
import ProofToolchain.Text.Blank

/-!
# What the proof tool prints

Three commands answer in words. `verify` says whether the proof passed, `print-proof` prints JSON
of one form or another, and `compute-witness` prints the lines its program logs among lines about
itself.
-/

namespace ProofToolchain.CommandLine

/-- The word for an accepted proof. -/
def passedWord : List Char := "PASSED".toList

/-- The word for a rejected proof. -/
def failedWord : List Char := "FAILED".toList

/-- **The outcome of a verification**, from the tool's two output texts: accepted if one of them
says so, else rejected if one of them says that, else undecided. -/
def verificationOutcome (stdout stderr : String) : Option Bool :=
  let text := stdout.toList ++ '\n' :: stderr.toList
  if Text.contains passedWord text then some true
  else if Text.contains failedWord text then some false
  else none

/-- **A formatted proof.** One JSON value is that value, several with commas between them are the
array of them, and anything else is kept as text. Blanks around the output do not count. -/
def formattedProof (stdout : String) : Json :=
  let trimmed := Text.trim stdout.toList
  match Json.parse? (String.ofList trimmed) with
  | some value => value
  | none =>
    match Json.parse? (String.ofList ('[' :: trimmed ++ [']'])) with
    | some value => value
    | none => .string (String.ofList trimmed)

/-- What the lines start with that `compute-witness` prints about itself. -/
def statusPrefixes : List (List Char) :=
  ["Computing witness".toList, "Witness file written".toList]

/-- Whether a line is about the tool itself. -/
def isStatusLine (line : List Char) : Bool :=
  statusPrefixes.any (·.isPrefixOf line)

/-- **The lines a program logged**, among everything the tool printed. -/
def loggedLines (stdout : String) : List String :=
  ((Text.lines stdout.toList).filter (!isStatusLine ·)).map String.ofList

end ProofToolchain.CommandLine
