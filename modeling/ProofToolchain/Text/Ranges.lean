/-!
# Ranges of code points

A property of characters is given by the ranges of code points that have it. The ranges stand in
increasing order, so that a search stops at the first one that starts beyond the character
(`Ranges.holds`).
-/

namespace ProofToolchain.Text

/-- **Ranges of code points**, each by its first and its last one. -/
abbrev Ranges := List (Nat × Nat)

namespace Ranges

/-- **Whether a code point lies in one of the ranges**, which increase. -/
def holds : Ranges → Nat → Bool
  | [], _ => false
  | (first, last) :: rest, n => if n < first then false else n ≤ last || holds rest n

end Ranges

end ProofToolchain.Text
