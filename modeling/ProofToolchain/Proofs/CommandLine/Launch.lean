import ProofToolchain.CommandLine.Installation
import ProofToolchain.Proofs.Run

/-!
# One run of the tool in one directory

A call that is over within its directory does three things: it makes the directory, works in it, and
has it removed (`Workshop.run_within_of_made`). A call that hands its directory on leaves the last
of these to the handle, if there is one. Working in a directory comes down to starting the tool
there, and what comes of that is up to the host alone (`Installation.run_launch`,
`Installation.run_run`).

The host may also fail wherever its file system is used. So a run of the tool is stopped by a
missing tool or by a failure of its stage (`Installation.stopsOnly_run`), and everything around it
is stopped by the host.
-/

namespace ProofToolchain.CommandLine

open Run (StopsOnly)

namespace Workshop

variable {host : Host} {w w' : Workshop} {α τ : Type}

/-! ## Directories of calls -/

/-- A directory is made unless the host cannot make it. -/
theorem run_make (host : Host) (w : Workshop) :
    (make host).run w
      = match host.makeFailure? w.requested with
        | some e => (.error (.failed (.host e)), w.withoutNew)
        | none => (.ok w.requested, w.withNew) := by
  unfold make
  rw [Run.run_bind_of_ok (Run.run_get w)]
  dsimp only
  cases host.makeFailure? w.requested <;> rfl

/-- Without a directory there is no call. -/
theorem run_within_of_unmade {e : HostError} (h : host.makeFailure? w.requested = some e)
    (body : Nat → Run Workshop α) :
    (within host body).run w = (.error (.failed (.host e)), w.withoutNew) := by
  have hmake := run_make host w
  rw [h] at hmake
  exact Run.run_bind_of_error hmake _

/-- **A call within a directory of its own** works in the new directory and then has it removed,
whatever came of the work. -/
theorem run_within_of_made (h : host.makeFailure? w.requested = none)
    (body : Nat → Run Workshop α) :
    (within host body).run w
      = (((body w.requested).run w.withNew).1,
        ((body w.requested).run w.withNew).2.without host w.requested) := by
  have hmake := run_make host w
  rw [h] at hmake
  exact Run.run_bind_of_ok hmake _

section HandingOn

variable {body : Nat → StateM Workshop (Watched τ α)} {call : Watched τ α}

/-- Nor is there a call that could hand a directory on. -/
theorem handingOn_of_unmade {e : HostError} (h : host.makeFailure? w.requested = some e) :
    handingOn host body w = (⟨[], .error (.failed (.host e))⟩, w.withoutNew) := by
  have hmake := run_make host w
  rw [h] at hmake
  simp only [handingOn, bind, StateT.bind, hmake]
  rfl

/-- **A call that yields a handle** leaves its directory to it. -/
theorem handingOn_of_ok {handle : α} (h : host.makeFailure? w.requested = none)
    (hbody : body w.requested w.withNew = (call, w')) (hout : call.outcome = .ok handle) :
    handingOn host body w = (call, w') := by
  have hmake := run_make host w
  rw [h] at hmake
  simp only [handingOn, bind, StateT.bind, hmake, hbody, hout]
  rfl

/-- A call that yields none has its directory removed. -/
theorem handingOn_of_error {stop : Stop} (h : host.makeFailure? w.requested = none)
    (hbody : body w.requested w.withNew = (call, w')) (hout : call.outcome = .error stop) :
    handingOn host body w = (call, w'.without host w.requested) := by
  have hmake := run_make host w
  rw [h] at hmake
  simp only [handingOn, bind, StateT.bind, hmake, hbody, hout]
  rfl

end HandingOn

/-! ## Files of a directory -/

variable {number : Nat} {files : Directory} {name : String} {content : Bytes}

/-- **A file is written** unless the host cannot do it, or the directory is not there. -/
theorem run_write (host : Host) (h : w.files? number = some files) (name : String)
    (content : Bytes) :
    (write host number name content).run w
      = match host.writeFailure? files name content with
        | some e => (.error (.failed (.host e)), w)
        | none => (.ok (), w.withFiles number (Entries.set name content)) := by
  unfold write
  rw [Run.run_bind_of_ok (Run.run_get w), h]
  dsimp only
  cases host.writeFailure? files name content <;> rfl

/-- **What comes of reading a file**, given the files in its directory, if that is there. -/
def contentIn (host : Host) (files? : Option Directory) (name : String) : Except Error Bytes :=
  match files? with
  | none => .error (.host .notFound)
  | some files =>
    match host.readFailure? files name, files.get? name with
    | some e, _ => .error (.host e)
    | none, none => .error (.host .notFound)
    | none, some content => .ok content

/-- Reading a file changes nothing. -/
theorem run_read (number : Nat) (name : String) (w : Workshop) :
    (read host number name).run w
      = ((contentIn host (w.files? number) name).mapError .failed, w) := by
  unfold read contentIn
  rw [Run.run_bind_of_ok (Run.run_get w)]
  cases w.files? number with
  | none => rfl
  | some files =>
    dsimp only
    cases host.readFailure? files name with
    | some e => rfl
    | none => cases files.get? name <;> rfl

/-! ## Files that the tool finds -/

theorem holds_withNew (w : Workshop) : w.withNew.holds w.requested = true := by
  simp [holds, files?, withNew, List.find?_append]

/-- What is done to the files of a directory is done there and nowhere else. -/
theorem files?_withFiles (w : Workshop) (number other : Nat) (change : Directory → Directory) :
    (w.withFiles other change).files? number
      = (w.files? number).map (if number = other then change else id) := by
  unfold files? withFiles
  dsimp only
  induction w.scratches with
  | nil => rfl
  | cons s rest ih =>
    by_cases hother : s.number = other <;> by_cases hnumber : s.number = number <;>
      simp_all [-List.find?_map]

/-- A directory stays as long as files are written. -/
theorem holds_withFiles (w : Workshop) (number other : Nat) (change : Directory → Directory) :
    (w.withFiles other change).holds number = w.holds number := by
  rw [holds, files?_withFiles, Option.isSome_map]
  rfl

/-- A run of the tool leaves its directory as it likes. -/
theorem files?_withRun (h : w.files? number = some files) (i : Invocation) (left : Directory) :
    (w.withRun number i left).files? number = some left := by
  have hleft : (w.withFiles number fun _ => left).files? number = some left := by
    rw [files?_withFiles, h, if_pos rfl]
    rfl
  exact hleft

theorem holds_of_run_writeAll {written : List (String × Bytes)}
    (h : (writeAll host number written).run w = (.ok (), w')) (hw : w.holds number = true) :
    w'.holds number = true := by
  induction written generalizing w with
  | nil =>
    cases h
    exact hw
  | cons file written ih =>
    obtain ⟨files, hfiles⟩ := Option.isSome_iff_exists.1 hw
    have hwrite := run_write host hfiles file.1 file.2
    cases hfails : host.writeFailure? files file.1 file.2 with
    | some e =>
      rw [hfails] at hwrite
      cases (Run.run_bind_of_error hwrite _).symm.trans h
    | none =>
      rw [hfails] at hwrite
      refine ih ((Run.run_bind_of_ok hwrite _).symm.trans h) ?_
      rw [holds_withFiles]
      exact hw

/-- **The files that the tool finds** in a new directory in which some files were written, if the
host made the one and wrote the others. -/
def prepared? (w : Workshop) (host : Host) (written : List (String × Bytes)) : Option Directory :=
  match host.makeFailure? w.requested, (writeAll host w.requested written).run w.withNew with
  | none, (.ok _, w') => w'.files? w.requested
  | _, _ => none

/-- **A directory is prepared or it is not**: either the tool can be started on the files in it, or
the writing was stopped. -/
theorem prepared?_cases (hmake : host.makeFailure? w.requested = none)
    (written : List (String × Bytes)) :
    (∃ files w', w.prepared? host written = some files
        ∧ (writeAll host w.requested written).run w.withNew = (.ok (), w')
        ∧ w'.files? w.requested = some files)
      ∨ (w.prepared? host written = none
        ∧ ∃ stop w', (writeAll host w.requested written).run w.withNew = (.error stop, w')) := by
  unfold prepared?
  rw [hmake]
  cases hwrite : (writeAll host w.requested written).run w.withNew with
  | mk result w' =>
    cases result with
    | ok _ =>
      obtain ⟨files, hfiles⟩ := Option.isSome_iff_exists.1
        (holds_of_run_writeAll hwrite w.holds_withNew)
      exact .inl ⟨files, w', hfiles, rfl, hfiles⟩
    | error stop => exact .inr ⟨rfl, stop, w', rfl⟩

theorem prepared?_of_unmade {e : HostError} (hmake : host.makeFailure? w.requested = some e)
    (written : List (String × Bytes)) : w.prepared? host written = none := by
  rw [prepared?, hmake]

/-! ## How the host stops a call -/

section Stops

variable {P : Stop → Prop} (hhost : ∀ e, P (.failed (.host e)))

include hhost

theorem stopsOnly_write (number : Nat) (name : String) (content : Bytes) :
    StopsOnly P (write host number name content) := by
  refine (StopsOnly.lift get).bind fun w => ?_
  cases w.files? number with
  | none => exact .fail (hhost _)
  | some files =>
    dsimp only
    cases host.writeFailure? files name content with
    | some e => exact .fail (hhost e)
    | none => exact .lift _

theorem stopsOnly_writeAll (number : Nat) (written : List (String × Bytes)) :
    StopsOnly P (writeAll host number written) := by
  induction written with
  | nil => exact .pure ()
  | cons file written ih => exact (stopsOnly_write hhost number _ _).bind fun _ => ih

theorem stopsOnly_read (number : Nat) (name : String) :
    StopsOnly P (read host number name) := by
  intro w stop hstop
  rw [run_read] at hstop
  unfold contentIn at hstop
  split at hstop
  · cases hstop
    exact hhost _
  · split at hstop <;> cases hstop <;> exact hhost _

/-- **A call within a directory of its own** is stopped as the work in it is, or by the host. -/
theorem stopsOnly_within {body : Nat → Run Workshop α} (h : ∀ number, StopsOnly P (body number)) :
    StopsOnly P (within host body) := by
  intro w stop hstop
  cases hmake : host.makeFailure? w.requested with
  | some e =>
    rw [run_within_of_unmade hmake] at hstop
    cases hstop
    exact hhost e
  | none =>
    rw [run_within_of_made hmake] at hstop
    exact h w.requested w.withNew stop hstop

end Stops

end Workshop

namespace Installation

variable (tool : Installation) (host : Host)

/-! ## Starting the tool -/

section Starting

variable {number : Nat} {stage : Stage} {args : List String} {fed : Option String} {w : Workshop}

/-- **What comes of starting the tool** in a directory with some files: one that runs leaves the
directory as it likes, and without a run everything stays as it is. -/
theorem run_launch (stage : Stage) (args : List String) (fed : Option String) {files : Directory}
    (h : w.files? number = some files) :
    (tool.launch host number stage args fed).run w
      = match host.start ⟨tool.binary, args, fed, files⟩ with
        | .notFound => (.error (.failed tool.missing), w)
        | .refused detail =>
          (.error (.failed (.stage stage ("failed to run zokrates: " ++ detail))), w)
        | .unfed detail left =>
          (.error (.failed (.stage stage ("failed to write zokrates stdin: " ++ detail))),
            w.withRun number ⟨tool.binary, args, fed, files⟩ left)
        | .lost detail left =>
          (.error (.failed (.stage stage ("failed to run zokrates: " ++ detail))),
            w.withRun number ⟨tool.binary, args, fed, files⟩ left)
        | .ran run => (.ok run, w.withRun number ⟨tool.binary, args, fed, files⟩ run.files) := by
  unfold launch
  rw [Run.run_bind_of_ok (Run.run_get w), h]
  dsimp only
  cases host.start ⟨tool.binary, args, fed, files⟩ <;> rfl

/-- **A run of the tool** yields what it printed if it says that it succeeded, and leaves the
directory as it likes whether it does or not. -/
theorem run_run {files : Directory} (h : w.files? number = some files) :
    (tool.run host number stage args fed).run w
      = match host.start ⟨tool.binary, args, fed, files⟩ with
        | .notFound => (.error (.failed tool.missing), w)
        | .refused detail =>
          (.error (.failed (.stage stage ("failed to run zokrates: " ++ detail))), w)
        | .unfed detail left =>
          (.error (.failed (.stage stage ("failed to write zokrates stdin: " ++ detail))),
            w.withRun number ⟨tool.binary, args, fed, files⟩ left)
        | .lost detail left =>
          (.error (.failed (.stage stage ("failed to run zokrates: " ++ detail))),
            w.withRun number ⟨tool.binary, args, fed, files⟩ left)
        | .ran run =>
          (if run.succeeded then .ok (Text.Utf8.decodeLossy run.stdout)
            else .error (.failed (.stage stage ("zokrates " ++ args.headD "" ++ ": "
              ++ complaint (Text.Utf8.decodeLossy run.stdout)
                (Text.Utf8.decodeLossy run.stderr)))),
            w.withRun number ⟨tool.binary, args, fed, files⟩ run.files) := by
  have hlaunch := tool.run_launch host stage args fed h
  unfold run
  cases hstart : host.start ⟨tool.binary, args, fed, files⟩ with
  | notFound | refused detail | unfed detail left | lost detail left =>
    rw [hstart] at hlaunch
    exact Run.run_bind_of_error hlaunch _
  | ran run =>
    rw [hstart] at hlaunch
    rw [Run.run_bind_of_ok hlaunch]
    dsimp only
    split <;> rfl

end Starting

section Stops

variable {P : Stop → Prop} {stage : Stage} (hmissing : P (.failed tool.missing))
  (hstage : ∀ text, P (.failed (.stage stage text)))

include hmissing hstage

/-- A start of the tool is stopped if the tool is missing, or fails its stage. -/
theorem stopsOnly_launch (number : Nat) (args : List String) (fed : Option String) :
    StopsOnly P (tool.launch host number stage args fed) := by
  refine (StopsOnly.lift get).bind fun w => ?_
  cases w.files? number with
  | none => exact .fail hmissing
  | some files =>
    dsimp only
    cases host.start ⟨tool.binary, args, fed, files⟩ with
    | notFound => exact .fail hmissing
    | refused detail => exact .fail (hstage _)
    | unfed detail left | lost detail left =>
      exact (StopsOnly.lift _).bind fun _ => .fail (hstage _)
    | ran run => exact (StopsOnly.lift _).bind fun _ => .pure run

/-- **A run of the tool** is stopped if the tool is missing or does not say that it succeeded. -/
theorem stopsOnly_run (number : Nat) (args : List String) (fed : Option String) :
    StopsOnly P (tool.run host number stage args fed) := by
  refine (tool.stopsOnly_launch host hmissing hstage number args fed).bind fun run => ?_
  dsimp only
  split
  · exact .pure _
  · exact .fail (hstage _)

end Stops

end Installation

end ProofToolchain.CommandLine
