import ProofToolchain.Import.Resolver
import ProofToolchain.Log
import ProofToolchain.Options.Choice
import ProofToolchain.Options.Flags

/-!
# Options of one call

What a call leaves open is filled in from two layers below it: the options its provider is bound
to, and fixed defaults. `CompileOptions.request` and `WitnessOptions.request` settle every field,
so an engine is handed complete requests only.
-/

namespace ProofToolchain

/-- The location of the root source when the caller names none. -/
def defaultLocation : Location := "main.zok"

/-- **What a call to `compile` may say.** -/
structure CompileOptions where
  /-- The curve for this call only. -/
  curve : Option Curve := none
  /-- The location of the root source. -/
  location : Option Location := none
  /-- The resolver of imports. -/
  resolver : Option Resolver := none
  /-- Compiler flags. -/
  flags : Flags := .empty
  /-- Whether a program in the form `snarkjs` reads is wanted too. -/
  snarkjs : Bool := false

/-- **A compile request**, with nothing left open. -/
structure CompileRequest where
  /-- The curve. -/
  curve : Curve
  /-- The location of the root source. -/
  location : Location
  /-- The resolver of imports. -/
  resolver : Resolver
  /-- Compiler flags, `snarkjs` among them. -/
  flags : Flags
  /-- Whether a program in the form `snarkjs` reads is wanted too. -/
  snarkjs : Bool

/-- **The request that a call makes**: its own curve counts before the bound one, and the bound
one before the default. -/
def CompileOptions.request (call : CompileOptions) (bound : Option ProviderOptions) :
    CompileRequest where
  curve := (call.curve.or (bound.map (·.curve))).getD .bn128
  location := call.location.getD defaultLocation
  resolver := call.resolver.getD .empty
  flags := call.flags.withSnarkjs call.snarkjs
  snarkjs := call.snarkjs

/-- **What a call to `computeWitness` may say.** -/
structure WitnessOptions where
  /-- Whether a witness in the form `snarkjs` reads is wanted too. -/
  snarkjs : Bool := false
  /-- Where log lines go; they are printed by default. -/
  logger : Option Logger := none

/-- **A witness request**, with nothing left open. -/
structure WitnessRequest where
  /-- Whether a witness in the form `snarkjs` reads is wanted too. -/
  snarkjs : Bool
  /-- Where log lines go. -/
  logger : Logger

/-- The request that a call makes. -/
def WitnessOptions.request (call : WitnessOptions) : WitnessRequest where
  snarkjs := call.snarkjs
  logger := call.logger.getD (.quiet .printing)

/-- **The flag decides the output.** The flags of a request have `snarkjs` on exactly when the
call asks for it, whatever the caller wrote under that key. -/
@[simp] theorem CompileOptions.isEnabled_request (call : CompileOptions)
    (bound : Option ProviderOptions) :
    (call.request bound).flags.isEnabled Flags.snarkjsFlag = call.snarkjs := by
  simp [request]

end ProofToolchain
