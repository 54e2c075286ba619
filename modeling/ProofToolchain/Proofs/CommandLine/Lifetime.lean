import ProofToolchain.Proofs.CommandLine.Compilation
import ProofToolchain.Proofs.CommandLine.Computation

/-!
# The life of a scratch directory

A call finds a workshop and makes one directory more. While it is at work the workshop is what it
was before, with that directory beside (`Workshop.during`), whatever is written there and whatever
the tool does to it. When the call is over, the removal of the directory was asked for, and the
workshop is what it was before but for what the host left of it (`Workshop.left`): nothing, if the
removal succeeds. All that is asked of the workshop for this is that no directory has a number that
is still to be given out (`Workshop.IsNumbered`).

So a call is described by the one start of the tool that it may come to: what it writes first is
what the tool finds, and what it reads afterwards changes nothing. Each operation of the engine has
its start, which `Workshop.LeftBy` says of the workshop that it leaves.
-/

namespace ProofToolchain.CommandLine

open Run (Keeps)

/-- **Why files cannot be written** one after another to a directory, if they cannot. -/
def Host.writeAllFailure? (host : Host) (files : Directory) :
    List (String × Bytes) → Option HostError
  | [] => none
  | (name, content) :: rest =>
    (host.writeFailure? files name content).or (host.writeAllFailure? (files.set name content) rest)

namespace Workshop

/-- **No directory has a number that is still to be given out.** -/
def IsNumbered (w : Workshop) : Prop :=
  ∀ s ∈ w.scratches, s.number < w.requested

/-- **The workshop during a call**: the new directory with the files there are in it by now, and the
runs of the tool so far. -/
def during (w : Workshop) (files : Directory) (runs : List Invocation) : Workshop where
  scratches := w.scratches ++ [⟨w.requested, files⟩]
  requested := w.requested + 1
  history := w.history ++ runs.map fun i => (w.requested, i)
  removals := w.removals

/-- **The workshop after a call**: the removal of its directory was asked for, and there is no more
of that than the host left. -/
def left (w : Workshop) (host : Host) (files : Directory) (runs : List Invocation) : Workshop where
  scratches := w.scratches ++ ((host.leaves w.requested files).map (⟨w.requested, ·⟩)).toList
  requested := w.requested + 1
  history := w.history ++ runs.map fun i => (w.requested, i)
  removals := w.removals ++ [w.requested]

/-- **A call is at work** if the tool was not started yet or was started once, as `start?` says. -/
def AtWork (w : Workshop) (start? : Option Invocation) (w' : Workshop) : Prop :=
  ∃ files runs, w' = w.during files runs ∧ (runs = [] ∨ runs = start?.toList)

/-- **A workshop is left by a call** on a host. Either the host could not make a directory, or the
workshop is as it was before, but for at most one run of the tool, as `start?` says, and the removal
of the call's directory. -/
def LeftBy (w : Workshop) (host : Host) (start? : Option Invocation) (w' : Workshop) : Prop :=
  (host.makeFailure? w.requested ≠ none ∧ w' = w.withoutNew)
    ∨ ∃ files runs, w' = w.left host files runs ∧ (runs = [] ∨ runs = start?.toList)

/-- **A call hands its directory on** to a handle that owns it, or leaves the workshop without a
handle. -/
def HandsOn {τ κ : Type} (w : Workshop) (host : Host) (start? : Option Invocation)
    (scratch : κ → Lease) (made : Watched τ κ × Workshop) : Prop :=
  match made.1.outcome with
  | .ok handle => (scratch handle).number? = some w.requested ∧ w.AtWork start? made.2
  | .error _ => w.LeftBy host start? made.2

/-- A call that did nothing but write is at work. -/
theorem atWork_during (w : Workshop) (start? : Option Invocation) (files : Directory) :
    w.AtWork start? (w.during files []) :=
  ⟨files, [], rfl, .inl rfl⟩

/-- A new directory is empty. -/
theorem withNew_eq (w : Workshop) : w.withNew = w.during [] [] := by
  simp [withNew, during]

section Numbered

variable {host : Host} {w : Workshop} (hw : w.IsNumbered) (files : Directory)
  (runs : List Invocation)

include hw

/-- The new directory is found by its number, since no other has it. -/
theorem files?_during : (w.during files runs).files? w.requested = some files := by
  have hother : w.scratches.find? (·.number == w.requested) = none :=
    List.find?_eq_none.2 fun s hs => by simpa using Nat.ne_of_lt (hw s hs)
  simp [files?, during, List.find?_append, hother]

/-- What is done to the files of the new directory is done to no others. -/
theorem withFiles_during (change : Directory → Directory) :
    (w.during files runs).withFiles w.requested change = w.during (change files) runs := by
  have hothers : w.scratches.map (fun s =>
      if s.number = w.requested then { s with files := change s.files } else s) = w.scratches :=
    (List.map_congr_left fun s hs => if_neg (Nat.ne_of_lt (hw s hs))).trans (List.map_id _)
  simp [withFiles, during, hothers]

/-- A run of the tool in the new directory. -/
theorem withRun_during (i : Invocation) (left : Directory) :
    (w.during files runs).withRun w.requested i left = w.during left (runs ++ [i]) := by
  rw [withRun, withFiles_during hw]
  simp [during]

/-- **A call that has its directory removed** leaves the others as they were. -/
theorem without_during :
    (w.during files runs).without host w.requested = w.left host files runs := by
  have hothers : w.scratches.filterMap (fun s => if s.number = w.requested
      then (host.leaves w.requested s.files).map (⟨w.requested, ·⟩) else some s) = w.scratches := by
    rw [List.filterMap_congr fun s hs => if_neg (Nat.ne_of_lt (hw s hs))]
    exact List.filterMap_some
  simp only [without, during, left, List.filterMap_append, hothers]
  cases hleaves : host.leaves w.requested files <;> simp [hleaves]

/-- **Files are written one after another** into the new directory. -/
theorem run_writeAll_of_none {written : List (String × Bytes)}
    (h : host.writeAllFailure? files written = none) :
    (writeAll host w.requested written).run (w.during files runs)
      = (.ok (), w.during (Entries.setAll files written) runs) := by
  induction written generalizing files with
  | nil => rfl
  | cons file written ih =>
    obtain ⟨name, content⟩ := file
    obtain ⟨hfirst, hrest⟩ := Option.or_eq_none_iff.1 h
    have hwrite := run_write host (files?_during hw files runs) name content
    rw [hfirst, withFiles_during hw] at hwrite
    exact (Run.run_bind_of_ok hwrite _).trans (ih _ hrest)

/-- Up to the first one that the host cannot write. -/
theorem run_writeAll_of_some {written : List (String × Bytes)} {e : HostError}
    (h : host.writeAllFailure? files written = some e) :
    ∃ files', (writeAll host w.requested written).run (w.during files runs)
      = (.error (.failed (.host e)), w.during files' runs) := by
  induction written generalizing files with
  | nil => cases h
  | cons file written ih =>
    obtain ⟨name, content⟩ := file
    have hwrite := run_write host (files?_during hw files runs) name content
    rw [Host.writeAllFailure?] at h
    cases hfirst : host.writeFailure? files name content with
    | some e' =>
      rw [hfirst] at h hwrite
      obtain rfl : e' = e := Option.some.inj h
      exact ⟨files, Run.run_bind_of_error hwrite _⟩
    | none =>
      rw [hfirst, Option.none_or] at h
      rw [hfirst, withFiles_during hw] at hwrite
      obtain ⟨files', hrest⟩ := ih _ h
      exact ⟨files', (Run.run_bind_of_ok hwrite _).trans hrest⟩

/-- **The tool finds what was written**, if that could be written, and nothing else. -/
theorem prepared?_of_isNumbered (written : List (String × Bytes)) :
    w.prepared? host written
      = if host.makeFailure? w.requested = none ∧ host.writeAllFailure? [] written = none
        then some (Entries.setAll [] written) else none := by
  cases hmake : host.makeFailure? w.requested with
  | some e => simp [prepared?_of_unmade hmake]
  | none =>
    rw [prepared?, hmake, withNew_eq]
    cases hwritten : host.writeAllFailure? [] written with
    | none =>
      rw [run_writeAll_of_none hw [] [] hwritten]
      simpa using files?_during hw _ []
    | some e =>
      obtain ⟨files', hrun⟩ := run_writeAll_of_some hw [] [] hwritten
      simp [hrun]

/-- A call that was at work leaves the workshop when it has its directory removed. -/
theorem AtWork.leftBy {start? : Option Invocation} {w' : Workshop} (h : w.AtWork start? w') :
    w.LeftBy host start? (w'.without host w.requested) := by
  obtain ⟨files, runs, rfl, hruns⟩ := h
  exact .inr ⟨files, runs, without_during hw files runs, hruns⟩

variable {α : Type}

/-- **A call within a directory of its own** leaves the workshop if it was at work in it. -/
theorem leftBy_within {start? : Option Invocation} {body : Nat → Run Workshop α}
    (h : w.AtWork start? ((body w.requested).run (w.during [] [])).2) :
    w.LeftBy host start? ((within host body).run w).2 := by
  cases hmake : host.makeFailure? w.requested with
  | some e =>
    rw [run_within_of_unmade hmake]
    exact .inl ⟨hmake ▸ nofun, rfl⟩
  | none =>
    rw [run_within_of_made hmake, withNew_eq]
    exact h.leftBy hw

end Numbered

end Workshop

/-! ## Looking at files -/

section Looking

variable (host : Host)

theorem Workshop.keeps_read (number : Nat) (name : String) :
    Keeps id (Workshop.read host number name) :=
  fun w => congrArg Prod.snd (Workshop.run_read number name w)

theorem Lease.keeps_read (lease : Lease) (name : String) : Keeps id (lease.read host name) := by
  unfold Lease.read
  split
  · exact Workshop.keeps_read host _ name
  · exact .fail _

theorem Lease.keeps_readRequested (lease : Lease) (requested : Bool) (name what : String) :
    Keeps id (lease.readRequested host requested name what) := by
  unfold Lease.readRequested
  split
  · exact lease.keeps_read host name
  · exact .fail _

theorem CompileHandle.keeps_abi (handle : CompileHandle) : Keeps id (handle.abi host) := by
  refine (handle.scratch.keeps_read host _).bind fun content => ?_
  split
  · exact .pure _
  · exact .fail _

theorem WitnessHandle.keeps_output (handle : WitnessHandle) : Keeps id (handle.output host) := by
  refine (handle.scratch.keeps_read host _).bind fun content => ?_
  unfold Run.ofExcept
  split
  · exact .pure _
  · exact .fail _

theorem Installation.keeps_readKeypair (number : Nat) :
    Keeps id (Installation.readKeypair host number) :=
  (Workshop.keeps_read host number _).bind fun _ =>
    (Workshop.keeps_read host number _).bind fun _ => .pure _

end Looking

namespace Installation

variable (tool : Installation) (host : Host)

/-- **The fields of a compilation** are looked at only. -/
theorem keeps_compiledFields (handle : CompileHandle) (snarkjs : Bool) :
    Keeps id ((tool.engine host).compiledFields handle snarkjs) := by
  refine (Keeps.extracting (handle.scratch.keeps_read host _) _ _).bind fun program => ?_
  refine (Keeps.extracting (handle.keeps_abi host) _ _).bind fun abi => ?_
  split
  · exact (Keeps.extracting (handle.scratch.keeps_readRequested host _ _ _) _ _).bind
      fun _ => .pure _
  · exact .pure _

/-- **The fields of a witness computation**, likewise. -/
theorem keeps_computedFields (handle : WitnessHandle) (snarkjs : Bool) :
    Keeps id ((tool.engine host).computedFields handle snarkjs) := by
  refine (Keeps.extracting (handle.scratch.keeps_read host _) _ _).bind fun witness => ?_
  refine (Keeps.extracting (handle.keeps_output host) _ _).bind fun output => ?_
  split
  · exact (Keeps.extracting (handle.scratch.keeps_readRequested host _ _ _) _ _).bind
      fun _ => .pure _
  · exact .pure _

/-! ## Giving handles up -/

/-- **A handle that is given up** has its directory removed, and what is left of the handle has none
to remove. -/
theorem giveUp_compiled {handle : CompileHandle} {number : Nat}
    (h : handle.scratch.number? = some number) (w : Workshop) :
    ((tool.engine host).compiled.giveUp handle w).2 = w.without host number := by
  obtain ⟨⟨operation, number?⟩, snarkjs⟩ := handle
  cases h
  rfl

theorem giveUp_computed {handle : WitnessHandle} {number : Nat}
    (h : handle.scratch.number? = some number) (w : Workshop) :
    ((tool.engine host).computed.giveUp handle w).2 = w.without host number := by
  obtain ⟨⟨operation, number?⟩, abi, snarkjs⟩ := handle
  cases h
  rfl

/-! ## Starting the tool -/

section Starts

variable {w : Workshop} (hw : w.IsNumbered) (files : Directory)

include hw

/-- **A start of the tool** finds the files that were written so far. -/
theorem atWork_launch (stage : Stage) (args : List String) (fed : Option String) :
    w.AtWork (some ⟨tool.binary, args, fed, files⟩)
      ((tool.launch host w.requested stage args fed).run (w.during files [])).2 := by
  rw [tool.run_launch host stage args fed (Workshop.files?_during hw files [])]
  have hran : ∀ left, w.AtWork (some ⟨tool.binary, args, fed, files⟩)
      ((w.during files []).withRun w.requested ⟨tool.binary, args, fed, files⟩ left) := fun left =>
    ⟨left, [⟨tool.binary, args, fed, files⟩], Workshop.withRun_during hw files [] _ left, .inr rfl⟩
  cases host.start ⟨tool.binary, args, fed, files⟩ with
  | notFound | refused detail => exact w.atWork_during _ files
  | unfed detail left | lost detail left => exact hran left
  | ran run => exact hran run.files

/-- So does a run of the tool, whatever is made of its answer. -/
theorem atWork_run (stage : Stage) (args : List String) (fed : Option String) :
    w.AtWork (some ⟨tool.binary, args, fed, files⟩)
      ((tool.run host w.requested stage args fed).run (w.during files [])).2 := by
  unfold run
  rw [Run.run_bind_snd_of_keeps]
  · exact tool.atWork_launch host hw files stage args fed
  · intro run
    dsimp only
    split
    · exact .pure _
    · exact .fail _

/-- **Files are written before the tool is started**, and if they cannot be it is not. -/
theorem atWork_writeAll {α : Type} {start? : Option Invocation} (written : List (String × Bytes))
    {rest : Unit → Run Workshop α}
    (hrest : w.AtWork start? ((rest ()).run (w.during (Entries.setAll [] written) [])).2) :
    w.AtWork start?
      ((Workshop.writeAll host w.requested written >>= rest).run (w.during [] [])).2 := by
  cases hwritten : host.writeAllFailure? [] written with
  | none =>
    rw [Run.run_bind_of_ok (Workshop.run_writeAll_of_none hw [] [] hwritten)]
    exact hrest
  | some e =>
    obtain ⟨files', hrun⟩ := Workshop.run_writeAll_of_some hw [] [] hwritten
    rw [Run.run_bind_of_error hrun]
    exact w.atWork_during _ files'

end Starts

end Installation

end ProofToolchain.CommandLine
