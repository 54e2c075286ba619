import ProofToolchain.Json.Printer
import ProofToolchain.Json.Record

/-!
# Compiler flags

The flags of a compilation are keyed JSON values in key order, each key once. Flags nobody knows
are kept and passed on as they are. The flag `snarkjs` is special only in that a request decides
it: `Flags.withSnarkjs` overrides whatever a caller wrote under that key.
-/

namespace ProofToolchain

/-- **The flags handed to a compiler.** -/
structure Flags where
  /-- The flags with their values. -/
  entries : Entries Json
  /-- Keys strictly increase, so each occurs once. -/
  ordered : entries.Ordered

namespace Flags

/-- The flag that asks for output in the form `snarkjs` reads. -/
def snarkjsFlag : String := "snarkjs"

/-- The flag that isolates the branches of conditionals. -/
def isolateBranchesFlag : String := "isolate_branches"

/-- The flag that asks for debug output. -/
def debugFlag : String := "debug"

/-- No flags. -/
def empty : Flags := ⟨[], Entries.ordered_nil⟩

instance : Inhabited Flags := ⟨empty⟩

/-- **The flags with one set**, replacing its earlier value. -/
def set (f : Flags) (name : String) (value : Json) : Flags :=
  ⟨f.entries.set name value, f.ordered.set name value⟩

/-- The value of a flag. -/
def get? (f : Flags) (name : String) : Option Json :=
  f.entries.get? name

/-- **Whether a flag is on**: set, and to the truth value `true`. -/
def isEnabled (f : Flags) (name : String) : Bool :=
  match f.get? name with
  | some (.bool true) => true
  | _ => false

/-- The flags with branch isolation on or off. -/
def withIsolateBranches (f : Flags) (enabled : Bool) : Flags :=
  f.set isolateBranchesFlag (.bool enabled)

/-- The flags with debug output on or off. -/
def withDebug (f : Flags) (enabled : Bool) : Flags :=
  f.set debugFlag (.bool enabled)

/-- **The flags as a request hands them on**, with `snarkjs` as the request says. -/
def withSnarkjs (f : Flags) (enabled : Bool) : Flags :=
  f.set snarkjsFlag (.bool enabled)

/-- The flags as an object. -/
def toJson (f : Flags) : Json :=
  .object f.entries

/-- The flags that pairs set, one after another. -/
def ofPairs (pairs : Entries Json) : Flags :=
  ⟨Entries.setAll [] pairs, Entries.ordered_nil.setAll pairs⟩

/-- The flags read from an object; of a repeated key the last member counts. -/
def ofLiteral? : Json.Literal → Option Flags
  | .object members =>
    (members.mapM (Json.Literal.member? (Json.Literal.toJson? (Json.maxDepth - 1)))).map ofPairs
  | _ => none

/-- The flags that a JSON text spells. -/
def parse? (text : String) : Option Flags :=
  (Json.Literal.parse? text.toList).bind ofLiteral?

@[simp] theorem get?_set_self (f : Flags) (name : String) (value : Json) :
    (f.set name value).get? name = some value :=
  Entries.get?_set_self ..

theorem get?_set_of_ne {name other : String} (h : other ≠ name) (f : Flags) (value : Json) :
    (f.set name value).get? other = f.get? other :=
  Entries.get?_set_of_ne h ..

@[simp] theorem isEnabled_withSnarkjs (f : Flags) (enabled : Bool) :
    (f.withSnarkjs enabled).isEnabled snarkjsFlag = enabled := by
  cases enabled <;> simp [isEnabled, withSnarkjs]

end Flags

end ProofToolchain
