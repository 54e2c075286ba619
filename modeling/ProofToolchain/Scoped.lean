import ProofToolchain.Engine

/-!
# Handles in a scope

A handle that has to be released once is put in a scope, which owns it. The scope reads fields in
the name of an operation, and it gives its handle up when it is released and when it ends, at an
early return as well as after the last field.

Both go through `Scoped.releaseOnce`, which takes the handle out of the scope before it releases it.
So a scope that was released has nothing left to release at its end, and nothing to read either.
-/

namespace ProofToolchain

variable {σ κ α : Type}

/-- **A handle is given up**: it is released, and what is left of it is thrown away. -/
def HandleOps.giveUp (ops : HandleOps σ κ) (handle : κ) : StateM σ Unit := do
  ops.discard (← ops.release handle)

/-- **A scope around a handle.** -/
structure Scoped (κ : Type) where
  /-- The operation in whose name fields are read. -/
  operation : String
  /-- The handle, until it is taken out. -/
  handle? : Option κ

namespace Scoped

/-- The scope that owns a handle. -/
def new (operation : String) (handle : κ) : Scoped κ := ⟨operation, some handle⟩

/-- **The reading of a field.** A failure says which field of which operation was read, and without
a handle the field is refused. -/
def extract (scope : Scoped κ) (field : String) (read : κ → Run σ α) : Run σ α :=
  match scope.handle? with
  | some handle => Run.extracting scope.operation field (read handle)
  | none => Run.fail (.resource scope.operation ("`" ++ field ++ "` read after release"))

/-- **The handle is taken out and given up**, if there is one. -/
def releaseOnce (ops : HandleOps σ κ) (scope : Scoped κ) : StateM σ (Scoped κ) := do
  match scope.handle? with
  | some handle =>
    ops.giveUp handle
    return { scope with handle? := none }
  | none => return scope

/-- The scope ends. -/
def drop (ops : HandleOps σ κ) (scope : Scoped κ) : StateM σ Unit := do
  let _ ← scope.releaseOnce ops

/-- **The handle is released before the scope ends**, which it does right after that. -/
def release (ops : HandleOps σ κ) (scope : Scoped κ) : StateM σ Unit := do
  let released ← scope.releaseOnce ops
  released.drop ops

/-- **What is read within a scope.** The handle is released after the last field; where a field
cannot be read, the scope ends there. -/
def reading (ops : HandleOps σ κ) (scope : Scoped κ) (read : Run σ α) : Run σ α :=
  ExceptT.mk do
    match ← read.run with
    | .ok a =>
      scope.release ops
      return .ok a
    | .error stop =>
      scope.drop ops
      return .error stop

/-! ## Once, on every path -/

variable {ops : HandleOps σ κ} {operation field : String} {handle : κ}

/-- A scope that has its handle reads it. -/
@[simp] theorem extract_new (read : κ → Run σ α) :
    (new operation handle).extract field read = Run.extracting operation field (read handle) := rfl

/-- **A scope that was released owns nothing**, and releasing it again changes nothing. -/
theorem releaseOnce_releaseOnce (scope : Scoped κ) :
    (do (← scope.releaseOnce ops).releaseOnce ops) = scope.releaseOnce ops := by
  obtain ⟨operation, _ | handle⟩ := scope <;> rfl

/-- **A scope that was released refuses every field**, and does not look at it. -/
theorem extract_releaseOnce (scope : Scoped κ) (field : String) (read : κ → Run σ α) :
    (do ((← scope.releaseOnce ops).extract field read).run : StateM σ (Except Stop α)) = do
      let released ← scope.releaseOnce ops
      return .error (.failed (.resource released.operation
        ("`" ++ field ++ "` read after release"))) := by
  obtain ⟨operation, _ | handle⟩ := scope <;> rfl

/-- The end of a scope that was released adds nothing. -/
theorem release_eq_drop (scope : Scoped κ) : scope.release ops = scope.drop ops := by
  show (scope.releaseOnce ops >>= fun released => released.releaseOnce ops >>= fun _ => pure ())
    = scope.releaseOnce ops >>= fun _ => pure ()
  rw [← bind_assoc, releaseOnce_releaseOnce]

/-- **A scope that ends gives its handle up.** -/
theorem drop_new : (new operation handle).drop ops = ops.giveUp handle := rfl

/-- **What is read within a scope is read, and then the handle is given up**, whatever came of the
reading. -/
theorem reading_new (read : Run σ α) :
    (new operation handle).reading ops read = read.thenAlways (ops.giveUp handle) := by
  refine congrArg ExceptT.mk (bind_congr fun outcome => ?_)
  cases outcome <;> simp only [release_eq_drop, drop_new]

end Scoped

end ProofToolchain
