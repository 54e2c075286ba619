import ProofToolchain.Abi.Output
import ProofToolchain.Argument.Basic
import ProofToolchain.CommandLine.Arguments
import ProofToolchain.Witness.Outputs

/-!
# What a text that cannot be read is blamed on

Two readers take apart what the caller or the tool wrote down: one the arguments of a program
without an interface, the other the outputs in a witness file. Both may complain, at any place and
for any of several reasons, and in each case the complaint is about the witness computation. The
exception is an argument text that is no JSON text, which is not encoded at all.

What a computation fails with is shown of its parts (`FailsOnly`), and the proofs go along the data:
a JSON value on the one side, the type of an output on the other. For outputs they show more than
the kind of the error: whatever holds of the errors of that stage holds of these.
-/

namespace ProofToolchain

/-- **A computation fails only with errors that satisfy `P`**, if it fails at all. -/
def FailsOnly {α : Type} (P : Error → Prop) (x : Except Error α) : Prop :=
  ∀ e, x = .error e → P e

namespace FailsOnly

variable {α β : Type} {P Q : Error → Prop}

theorem ok (a : α) : FailsOnly P (.ok a : Except Error α) :=
  nofun

theorem error {e : Error} (h : P e) : FailsOnly P (.error e : Except Error α) := by
  intro e' he
  cases he
  exact h

theorem mono {x : Except Error α} (h : FailsOnly P x) (hPQ : ∀ e, P e → Q e) : FailsOnly Q x :=
  fun e he => hPQ e (h e he)

theorem bind {x : Except Error α} {f : α → Except Error β} (hx : FailsOnly P x)
    (hf : ∀ a, FailsOnly P (f a)) : FailsOnly P (x >>= f) := by
  cases x with
  | ok a => exact hf a
  | error e => exact error (hx e rfl)

theorem mapM {f : α → Except Error β} (hf : ∀ a, FailsOnly P (f a)) (items : List α) :
    FailsOnly P (items.mapM f) := by
  induction items with
  | nil => exact ok []
  | cons item items ih =>
    rw [List.mapM_cons]
    exact (hf item).bind fun _ => ih.bind fun _ => ok _

end FailsOnly

/-- An error of the witness computation. -/
def Error.IsOfWitness (e : Error) : Prop :=
  e.kind = .stage .witness

/-! ## Arguments -/

namespace Argument

/-- An argument that cannot be encoded is not blamed on anything else. -/
theorem failsOnly_encode (a : Argument) : FailsOnly (·.kind = .encoding) a.encode := by
  unfold encode
  split
  · exact .ok _
  · exact .error rfl

mutual

/-- **A value without a field element** is a failure of the witness computation. -/
theorem failsOnly_flatten : ∀ j, FailsOnly Error.IsOfWitness (flatten j)
  | .array items => failsOnly_flattenAll items
  | .string _ => .ok _
  | .number _ => .ok _
  | .bool _ => .ok _
  | .null => .error rfl
  | .object _ => .error rfl

theorem failsOnly_flattenAll : ∀ items, FailsOnly Error.IsOfWitness (flattenAll items)
  | [] => .ok _
  | item :: rest =>
    (failsOnly_flatten item).bind fun _ => (failsOnly_flattenAll rest).bind fun _ => .ok _

end

theorem failsOnly_flattenText (args : String) :
    FailsOnly (fun e => e.IsOfWitness ∨ e.kind = .encoding) (flattenText args) := by
  unfold flattenText
  split
  · exact (failsOnly_flatten _).mono fun _ => .inl
  · exact .error (.inr rfl)

end Argument

/-- **A command line for a witness computation** fails to be made as its arguments are read. -/
theorem CommandLine.failsOnly_witnessArgs (abi : Option Abi) (args : String) (snarkjs : Bool) :
    FailsOnly (fun e => e.IsOfWitness ∨ e.kind = .encoding)
      (CommandLine.witnessArgs abi args snarkjs) := by
  cases abi with
  | some abi => exact .ok _
  | none => exact (Argument.failsOnly_flattenText args).bind fun _ => .ok _

/-! ## Outputs -/

section Outputs

variable {P : Error → Prop} (hP : ∀ text, P (.stage .witness text))

include hP

namespace Witness

theorem failsOnly_readLine (line : List Char) : FailsOnly P (readLine line) := by
  unfold readLine
  split
  · next name value rest _ =>
    have hindex : FailsOnly P (outputIndex? name) := by
      unfold outputIndex?
      split
      · split
        · exact .ok _
        · exact .error (hP _)
      · exact .ok _
    exact hindex.bind fun _ => .ok _
  · exact .error (hP _)

/-- **A witness file that cannot be read** is a failure of the witness computation. -/
theorem failsOnly_outputs (file : String) : FailsOnly P (outputs file) := by
  have hunsorted : FailsOnly P (unsortedOutputs file.toList) :=
    (FailsOnly.mapM (failsOnly_readLine hP) _).bind fun _ => .ok _
  exact hunsorted.bind fun _ => .ok _

end Witness

namespace OutputType

omit hP in
theorem failsOnly_times {decode : List String → Except Error (Json × List String)}
    (h : ∀ values, FailsOnly P (decode values)) :
    ∀ n values, FailsOnly P (times decode n values)
  | 0, _ => .ok _
  | n + 1, values => (h values).bind fun p => (failsOnly_times h n p.2).bind fun _ => .ok _

set_option linter.unusedSectionVars false in
mutual

/-- **Outputs that do not fit the interface** are a failure of the witness computation. -/
theorem failsOnly_decode : ∀ type values, FailsOnly P (decode type values)
  | .scalar _, _ :: _ => .ok _
  | .scalar _, [] => .error (hP _)
  | .array size element, values =>
    (failsOnly_times (failsOnly_decode element) size values).bind fun _ => .ok _
  | .tuple elements, values => (failsOnly_decodeElements elements values).bind fun _ => .ok _
  | .struct members, values => (failsOnly_decodeMembers members values).bind fun _ => .ok _
  | .malformed _, _ => .error (hP _)

theorem failsOnly_decodeElements :
    ∀ elements values, FailsOnly P (decodeElements elements values)
  | [], _ => .ok _
  | element :: rest, values =>
    (failsOnly_decode element values).bind fun p =>
      (failsOnly_decodeElements rest p.2).bind fun _ => .ok _

theorem failsOnly_decodeMembers :
    ∀ members values, FailsOnly P (decodeMembers members values)
  | [], _ => .ok _
  | (_, member) :: rest, values =>
    (failsOnly_decode member values).bind fun p =>
      (failsOnly_decodeMembers rest p.2).bind fun _ => .ok _

end

end OutputType

theorem failsOnly_decodeOutput (raw : List String) (abi : Option Abi) :
    FailsOnly P (decodeOutput raw abi) := by
  -- with an interface, what was decoded is the output if no value is left over
  have hrest : ∀ p : Json × List String, FailsOnly P
      (if p.2.isEmpty then .ok p.1 else .error (OutputType.tooManyError p.2.length)) := by
    intro p
    split
    · exact .ok _
    · exact .error (hP _)
  cases abi with
  | none => exact .ok _
  | some abi =>
    unfold decodeOutput
    dsimp only
    split
    · exact (OutputType.failsOnly_decode hP _ raw).bind hrest
    · exact hrest (.array [], raw)

end Outputs

end ProofToolchain
