import ProofToolchain.Scoped
import ProofToolchain.Session.Command
import ProofToolchain.Session.Reply

/-!
# Handles in slots

A handle is kept bare, as the engine gave it, or in a scope (`Keeping`). A scope names the
operation in whose name fields are read, and it releases its handle whenever the handle leaves the
slot. A bare handle is thrown away when it leaves; released before that, it stays in its slot
without its results.
-/

namespace ProofToolchain

/-- A handle of either kind. -/
inductive AnyHandle (κ ω : Type) where
  /-- The handle of a compilation. -/
  | compiled (handle : κ)
  /-- The handle of a witness computation. -/
  | computed (handle : ω)

/-- **How a handle is kept.** -/
inductive Keeping (κ : Type) where
  /-- As the engine gave it. -/
  | bare (handle : κ)
  /-- In a scope. -/
  | within (scope : Scoped κ)

/-- **A handle in a slot.** -/
abbrev Held (κ ω : Type) := AnyHandle (Keeping κ) (Keeping ω)

variable {σ κ ω α : Type}

namespace Keeping

/-- A handle that was just opened, in a scope if one is named. -/
def new (scope : Option String) (handle : κ) : Keeping κ :=
  match scope with
  | some operation => .within (.new operation handle)
  | none => .bare handle

/-- The reading of a field. -/
def extract (field : Field) (read : κ → Run σ α) : Keeping κ → Run σ α
  | bare handle => read handle
  | within scope => scope.extract field.name read

/-- **The handle is released.** A scope is used up by that. -/
def release (ops : HandleOps σ κ) : Keeping κ → StateM σ (Option (Keeping κ))
  | bare handle => return some (.bare (← ops.release handle))
  | within scope => do
    scope.release ops
    return none

/-- **The handle leaves its slot.** -/
def letGo (ops : HandleOps σ κ) : Keeping κ → StateM σ Unit
  | bare handle => ops.discard handle
  | within scope => scope.drop ops

end Keeping

/-- A handle of either kind that was just opened. -/
def Held.new (scope : Option String) : AnyHandle κ ω → Held κ ω
  | .compiled handle => .compiled (.new scope handle)
  | .computed handle => .computed (.new scope handle)

namespace Engine

/-- A handle in a slot is released. -/
def release (engine : Engine σ κ ω) : Held κ ω → StateM σ (Option (Held κ ω))
  | .compiled k => do return (← k.release engine.compiled.toHandleOps).map .compiled
  | .computed k => do return (← k.release engine.computed.toHandleOps).map .computed

/-- A handle leaves its slot. -/
def letGo (engine : Engine σ κ ω) : Held κ ω → StateM σ Unit
  | .compiled k => k.letGo engine.compiled.toHandleOps
  | .computed k => k.letGo engine.computed.toHandleOps

/-- **The reading of a field**, if the handle has it. -/
def readHeld? (engine : Engine σ κ ω) : Held κ ω → Field → Option (Run σ Reply)
  | .compiled k, .program => some (Reply.blob <$> k.extract .program engine.compiled.program)
  | .compiled k, .abi => some (Reply.abi <$> k.extract .abi engine.compiled.abi)
  | .compiled k, .snarkjsProgram =>
    some (Reply.blob <$> k.extract .snarkjsProgram engine.compiled.snarkjsProgram)
  | .computed k, .witness => some (Reply.blob <$> k.extract .witness engine.computed.witness)
  | .computed k, .output => some (Reply.json <$> k.extract .output engine.computed.output)
  | .computed k, .snarkjsWitness =>
    some (Reply.blob <$> k.extract .snarkjsWitness engine.computed.snarkjsWitness)
  | _, _ => none

/-- The reading of a field of a bare handle. -/
def read? (engine : Engine σ κ ω) (handle : AnyHandle κ ω) : Field → Option (Run σ Reply) :=
  engine.readHeld? (.new none handle)

end Engine

end ProofToolchain
