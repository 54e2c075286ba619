import ProofToolchain.CommandLine.Host
import ProofToolchain.Run

/-!
# Scratch directories

Each call works in a scratch directory of its own. Directories are numbered in the order in which
they are asked for, so no number comes back.

A directory is removed by asking the host for it, and whether that succeeded is not looked at. So
the workshop keeps account of what it asked for (`Workshop.removals`) and of what there is
(`Workshop.scratches`), where a directory that could not be removed remains with what is left of
it.

`Workshop.within` gives a call a directory and removes it when the call is over, whatever came of
it. A call that hands its directory on to a handle removes it only if there is no handle
(`Workshop.handingOn`).
-/

namespace ProofToolchain.CommandLine

/-- **A scratch directory.** -/
structure Scratch where
  /-- Its number. -/
  number : Nat
  /-- The files in it. -/
  files : Directory := []
  deriving DecidableEq, Repr

/-- **The scratch directories there are** and what was done in them. -/
structure Workshop where
  /-- The directories that are there. -/
  scratches : List Scratch := []
  /-- How many directories were asked for. -/
  requested : Nat := 0
  /-- The runs of the tool, in order, each with the number of its directory. -/
  history : List (Nat × Invocation) := []
  /-- The directories whose removal was asked for, in order. -/
  removals : List Nat := []

namespace Workshop

/-- The files in a directory, if it is there. -/
def files? (w : Workshop) (number : Nat) : Option Directory :=
  (w.scratches.find? (·.number == number)).map (·.files)

/-- Whether a directory is there. -/
def holds (w : Workshop) (number : Nat) : Bool :=
  (w.files? number).isSome

/-- The workshop after a directory was asked for that cannot be made. -/
def withoutNew (w : Workshop) : Workshop :=
  { w with requested := w.requested + 1 }

/-- The workshop with one more directory, numbered `requested`. -/
def withNew (w : Workshop) : Workshop :=
  { w with scratches := w.scratches ++ [{ number := w.requested }], requested := w.requested + 1 }

/-- The workshop after a directory was removed, with what is left of it. -/
def without (w : Workshop) (host : Host) (number : Nat) : Workshop :=
  { w with
    scratches := w.scratches.filterMap fun s =>
      if s.number = number then (host.leaves number s.files).map (⟨number, ·⟩) else some s
    removals := w.removals ++ [number] }

/-- The workshop with the files of a directory changed. -/
def withFiles (w : Workshop) (number : Nat) (change : Directory → Directory) : Workshop :=
  { w with
    scratches := w.scratches.map fun s =>
      if s.number = number then { s with files := change s.files } else s }

/-- The workshop with a run of the tool in a directory. -/
def withRun (w : Workshop) (number : Nat) (i : Invocation) (files : Directory) : Workshop :=
  { w.withFiles number fun _ => files with history := w.history ++ [(number, i)] }

variable (host : Host)

/-- **A directory is made**, and its number is yielded. -/
def make : Run Workshop Nat := do
  let number := (← get).requested
  match host.makeFailure? number with
  | some e =>
    modify withoutNew
    Run.fail (.host e)
  | none =>
    modify withNew
    return number

/-- **A directory is removed**, as far as the host can do it. -/
def remove (number : Nat) : StateM Workshop Unit :=
  modify (·.without host number)

/-- A file is written. -/
def write (number : Nat) (name : String) (content : Bytes) : Run Workshop Unit := do
  match (← get).files? number with
  | none => Run.fail (.host .notFound)
  | some files =>
    match host.writeFailure? files name content with
    | some e => Run.fail (.host e)
    | none => modify (·.withFiles number (Entries.set name content))

/-- Files are written one after another. -/
def writeAll (number : Nat) : List (String × Bytes) → Run Workshop Unit
  | [] => return ()
  | (name, content) :: rest => do
    write host number name content
    writeAll number rest

/-- **A file is read.** -/
def read (number : Nat) (name : String) : Run Workshop Bytes := do
  match (← get).files? number with
  | none => Run.fail (.host .notFound)
  | some files =>
    match host.readFailure? files name, files.get? name with
    | some e, _ => Run.fail (.host e)
    | none, none => Run.fail (.host .notFound)
    | none, some content => return content

/-- **A call within a directory of its own**, which is removed at the end. -/
def within {α : Type} (body : Nat → Run Workshop α) : Run Workshop α := do
  let number ← make host
  (body number).thenAlways (remove host number)

/-- **A call that hands its directory on** to what it yields, and removes it if it yields nothing.
-/
def handingOn {τ α : Type} (body : Nat → StateM Workshop (Watched τ α)) :
    StateM Workshop (Watched τ α) := do
  match ← (make host).run with
  | .error stop => return ⟨[], .error stop⟩
  | .ok number =>
    let call ← body number
    match call.outcome with
    | .ok _ => return call
    | .error _ =>
      remove host number
      return call

end Workshop

end ProofToolchain.CommandLine
