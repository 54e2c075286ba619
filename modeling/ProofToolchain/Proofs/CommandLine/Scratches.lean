import ProofToolchain.Proofs.CommandLine.ErrorKinds
import ProofToolchain.Proofs.CommandLine.Lifetime
import ProofToolchain.Proofs.CommandLine.Tree
import ProofToolchain.Proofs.Scripted.Accounting

/-!
# Scratch directories do not leak

Every operation has one start of the tool that it may come to (`Installation.start?`): a command
line and the files that the call writes from its own inputs (`Operation.inputFiles?`). Whatever
becomes of the operation, it leaves the workshop as it was, but for a number that is used up, that
run, and the removal of the one directory it made (`Installation.leftBy_perform`). A directory may
be handed on to a handle on the way, and the handle is released before the operation is over, so
this makes no difference.

Whether a removal succeeds is up to the host. The engine asks for it once, and where the host fails
something of the directory is left, under a number that does not come back. So no leftover gets in
the way of a later call.

Sessions inherit all this step by step. After any commands through providers there are the
directories that there were before, each run of the tool had a directory that no other had and whose
removal was asked for, and the files in it were those of its own call. Nothing else is there if no
host failed to remove a directory.
-/

namespace ProofToolchain

/-! ## What an operation hands to the tool -/

/-- **The files of a source tree**, if all of them are written. -/
def CommandLine.SourceTree.files? (host : CommandLine.Host) (resolver : Resolver)
    (root : SourceUnit) : Option (List (String × Bytes)) :=
  match (writeRoot host resolver root).run {} with
  | (.ok _, writing) => some writing.saved
  | (.error _, _) => none

/-- **The files that an operation writes for the tool**, from its own inputs. A compilation does not
come to the tool if it cannot write all sources. Its resolver is asked through the guard. -/
def Operation.inputFiles? (host : CommandLine.Host) : Operation → Option (List (String × Bytes))
  | .compile source call =>
    let request := call.request none
    CommandLine.SourceTree.files? host request.resolver.guarded ⟨request.location, source⟩
  | .computeWitness input _ _ => some (CommandLine.Installation.inputFiles input)
  | .setup program _ => some [(CommandLine.programFile, program)]
  | .universalSetup .. => some []
  | .setupFromReference reference program =>
    some [(CommandLine.programFile, program), (CommandLine.referenceStringFile, reference)]
  | .generateProof program witness provingKey _ =>
    some [(CommandLine.programFile, program), (CommandLine.witnessFile, witness),
      (CommandLine.provingKeyFile, provingKey)]
  | .verify verificationKey proof =>
    some [(CommandLine.verificationKeyFile, verificationKey), (CommandLine.proofFile, proof)]
  | .exportVerifier verificationKey => some [(CommandLine.verificationKeyFile, verificationKey)]
  | .formatProof proof => some [(CommandLine.proofFile, proof)]

/-- No two files of a tree have one name. -/
theorem CommandLine.SourceTree.nodup_files? {host : CommandLine.Host} {resolver : Resolver}
    {root : SourceUnit} {files : List (String × Bytes)}
    (h : files? host resolver root = some files) : (files.map Prod.fst).Nodup := by
  unfold files? at h
  split at h
  · next stem writing hwritten =>
    cases h
    obtain ⟨units, -, -, progress⟩ := exists_units hwritten
    exact nodup_map_fst_saved progress
  · cases h

/-- No two files are written under one name. -/
theorem Operation.nodup_inputFiles? {host : CommandLine.Host} {operation : Operation}
    {files : List (String × Bytes)} (h : operation.inputFiles? host = some files) :
    (files.map Prod.fst).Nodup := by
  cases operation with
  | compile source call => exact CommandLine.SourceTree.nodup_files? h
  | computeWitness input args call =>
    cases h
    cases habi : input.abi with
    | none => simp [CommandLine.Installation.inputFiles, habi]
    | some abi =>
      simp [CommandLine.Installation.inputFiles, habi, CommandLine.programFile,
        CommandLine.abiFile]
  | _ =>
    cases h
    simp only [List.map_cons, List.map_nil]
    decide

namespace CommandLine

namespace Installation

variable (tool : Installation) (host : Host)

/-- **The command line of an operation**, with the text fed to the tool, in the directory of a
number. Only the arguments of a witness computation may fail to make one. -/
def commandLine? (options : ProviderOptions) (route : Route) (number : Nat) :
    Operation → Option (List String × Option String)
  | .compile _ call =>
    let request := call.request (route.bound options)
    let root := host.scratchPath number ++ "/" ++ SourceTree.fileName 0
    some (compileArgs root request.flags request.curve tool.stdlib, none)
  | .computeWitness input args call =>
    (args.encode.toOption.bind fun text =>
      (witnessArgs input.abi text call.request.snarkjs).toOption)
  | .setup _ entropy => some (setupArgs (route.options options) ++ entropyArgs entropy, none)
  | .universalSetup size entropy =>
    some (universalSetupArgs (route.options options).curve size ++ entropyArgs entropy, none)
  | .setupFromReference .. => some (setupFromReferenceArgs (route.options options), none)
  | .generateProof _ _ _ entropy =>
    some (generateProofArgs (route.options options) ++ entropyArgs entropy, none)
  | .verify .. => some (verifyArgs (route.options options), none)
  | .exportVerifier _ => some (exportVerifierArgs, none)
  | .formatProof _ => some (printProofArgs, none)

/-- **The start of the tool that an operation comes to**, if it comes so far. -/
def start? (options : ProviderOptions) (route : Route) (number : Nat) (operation : Operation) :
    Option Invocation :=
  (operation.inputFiles? host).bind fun files =>
    (tool.commandLine? host options route number operation).map fun line =>
      ⟨tool.binary, line.1, line.2, Entries.setAll [] files⟩

section Operations

variable {w : Workshop} (hw : w.IsNumbered)

include hw

/-! ## Calls that remove their directory themselves -/

/-- **A call that writes some files, runs the tool and looks at what it left** leaves the workshop
with that start of the tool. -/
theorem leftBy_oneShot {α : Type} {stage : Stage} (written : List (String × Bytes))
    (args : List String) {rest : Nat → String → Run Workshop α}
    (hrest : ∀ number printed, Run.Keeps id (rest number printed)) :
    w.LeftBy host (some ⟨tool.binary, args, none, Entries.setAll [] written⟩)
      ((Workshop.within host fun number => do
        Workshop.writeAll host number written
        let printed ← tool.run host number stage args
        rest number printed).run w).2 := by
  refine Workshop.leftBy_within hw (atWork_writeAll host hw written ?_)
  rw [Run.run_bind_snd_of_keeps (hrest _)]
  exact tool.atWork_run host hw _ stage args none

theorem leftBy_setup (program : Bytes) (entropy : Option Bytes) (options : ProviderOptions) :
    w.LeftBy host (some ⟨tool.binary, setupArgs options ++ entropyArgs entropy, none,
        Entries.setAll [] [(programFile, program)]⟩)
      ((tool.setup host program entropy options).run w).2 :=
  tool.leftBy_oneShot host hw _ _ fun number _ => keeps_readKeypair host number

theorem leftBy_universalSetup (curve : Curve) (size : UInt32) (entropy : Option Bytes) :
    w.LeftBy host (some ⟨tool.binary, universalSetupArgs curve size ++ entropyArgs entropy, none,
        Entries.setAll [] []⟩)
      ((tool.universalSetup host curve size entropy).run w).2 :=
  tool.leftBy_oneShot host hw [] _ fun number _ => Workshop.keeps_read host number _

theorem leftBy_setupFromReference (reference program : Bytes) (options : ProviderOptions) :
    w.LeftBy host (some ⟨tool.binary, setupFromReferenceArgs options, none,
        Entries.setAll [] [(programFile, program), (referenceStringFile, reference)]⟩)
      ((tool.setupFromReference host reference program options).run w).2 :=
  tool.leftBy_oneShot host hw _ _ fun number _ => keeps_readKeypair host number

theorem leftBy_generateProof (program witness provingKey : Bytes) (entropy : Option Bytes)
    (options : ProviderOptions) :
    w.LeftBy host (some ⟨tool.binary, generateProofArgs options ++ entropyArgs entropy, none,
        Entries.setAll [] [(programFile, program), (witnessFile, witness),
          (provingKeyFile, provingKey)]⟩)
      ((tool.generateProof host program witness provingKey entropy options).run w).2 :=
  tool.leftBy_oneShot host hw _ _ fun number _ => Workshop.keeps_read host number _

theorem leftBy_verify (verificationKey proof : Bytes) (options : ProviderOptions) :
    w.LeftBy host (some ⟨tool.binary, verifyArgs options, none,
        Entries.setAll [] [(verificationKeyFile, verificationKey), (proofFile, proof)]⟩)
      ((tool.verify host verificationKey proof options).run w).2 := by
  refine Workshop.leftBy_within hw (atWork_writeAll host hw _ ?_)
  rw [Run.run_bind_snd_of_keeps]
  · exact tool.atWork_launch host hw _ .verify _ none
  · intro run
    dsimp only
    split
    · exact .pure _
    · exact .fail _

theorem leftBy_exportVerifier (verificationKey : Bytes) :
    w.LeftBy host (some ⟨tool.binary, exportVerifierArgs, none,
        Entries.setAll [] [(verificationKeyFile, verificationKey)]⟩)
      ((tool.exportVerifier host verificationKey).run w).2 := by
  refine tool.leftBy_oneShot host hw _ _ fun number _ => ?_
  refine (Workshop.keeps_read host number _).bind fun content => ?_
  split
  · exact .pure _
  · exact .fail _

theorem leftBy_formatProof (proof : Bytes) :
    w.LeftBy host (some ⟨tool.binary, printProofArgs, none, Entries.setAll [] [(proofFile, proof)]⟩)
      ((tool.formatProof host proof).run w).2 :=
  tool.leftBy_oneShot host hw _ _ fun _ _ => .pure _

/-! ## Calls that hand their directory on to a handle -/

omit hw in
/-- The start of the tool for some sources, in the directory of a number. -/
def compilation (number : Nat) (flags : Flags) (curve : Curve) (files : List (String × Bytes)) :
    Invocation where
  binary := tool.binary
  args := compileArgs (host.scratchPath number ++ "/" ++ SourceTree.fileName 0) flags curve
    tool.stdlib
  fed := none
  files := Entries.setAll [] files

/-- **A compilation at work** starts the tool for the sources that were written. -/
theorem atWork_compileIn (flags : Flags) (curve : Curve) (saved : List (String × Bytes)) :
    w.AtWork (some (tool.compilation host w.requested flags curve saved))
      ((tool.compileIn host w.requested (.ok (SourceTree.stem 0)) flags curve).run
        (w.during (Entries.setAll [] saved) [])).2 := by
  unfold compileIn
  rw [Run.run_bind_of_ok (show (ExceptT.mk (pure (.ok (SourceTree.stem 0))) :
    Run Workshop String).run _ = (.ok (SourceTree.stem 0), _) from rfl)]
  dsimp only
  rw [Run.run_bind_snd_of_keeps fun _ => .pure _]
  exact tool.atWork_run host hw _ _ _ none

/-- **A compilation** hands its directory on to a handle, or has it removed. The tool finds the
files of the tree, and it is not started if those are not all there. -/
theorem handsOn_compile (root : SourceUnit) (resolver : Resolver) (flags : Flags) (curve : Curve) :
    w.HandsOn host ((SourceTree.files? host resolver root).map
        (tool.compilation host w.requested flags curve))
      CompileHandle.scratch (tool.compile host root resolver flags curve w) := by
  unfold Workshop.HandsOn
  cases hmake : host.makeFailure? w.requested with
  | some e =>
    rw [tool.compile_of_unmade host hmake]
    exact .inl ⟨hmake ▸ nofun, rfl⟩
  | none =>
    cases hwritten : (SourceTree.writeRoot host resolver root).run {} with
    | mk written writing =>
      have hduring : w.withNew.withFiles w.requested (Entries.setAll · writing.saved)
          = w.during (Entries.setAll [] writing.saved) [] := by
        rw [Workshop.withNew_eq, Workshop.withFiles_during hw]
      cases written with
      | error stop =>
        rw [tool.compile_of_unwritten host hmake hwritten rfl, hduring]
        exact (w.atWork_during _ _).leftBy hw
      | ok stem =>
        have hfiles : SourceTree.files? host resolver root = some writing.saved := by
          rw [SourceTree.files?, hwritten]
        -- the root has the first stem
        obtain ⟨units, rfl, -⟩ := SourceTree.exists_units hwritten
        have hwork := tool.atWork_compileIn host hw flags curve writing.saved
        rw [hfiles]
        cases hmade : (tool.compileIn host w.requested (.ok (SourceTree.stem 0)) flags curve).run
            (w.withNew.withFiles w.requested (Entries.setAll · writing.saved)) with
        | mk made w' =>
          rw [← hduring, hmade] at hwork
          cases made with
          | ok handle =>
            rw [tool.compile_of_ok host hmake hwritten hmade]
            refine ⟨?_, hwork⟩
            rw [tool.yieldsOnly_compileIn host _ _ _ _ _ handle (congrArg Prod.fst hmade)]
            rfl
          | error stop =>
            rw [tool.compile_of_error host hmake hwritten hmade]
            exact hwork.leftBy hw

/-- **A compilation in one call** has asked for the removal of its directory, since the handle is
released however the call ends. -/
theorem leftBy_compileProgram (source : String) (options : CompileOptions)
    (bound : Option ProviderOptions) {start? : Option Invocation}
    (h : w.HandsOn host start? CompileHandle.scratch
      ((tool.engine host).compileCall source (options.request bound) w)) :
    w.LeftBy host start? (((tool.engine host).compileProgram source options bound).run w).2 := by
  unfold Workshop.HandsOn at h
  cases hcall : (tool.engine host).compileCall source (options.request bound) w with
  | mk call w' =>
    rw [hcall] at h
    cases hout : call.outcome with
    | error stop =>
      rw [hout] at h
      rw [Engine.run_compileProgram_of_error hcall hout]
      exact h
    | ok handle =>
      rw [hout] at h
      obtain ⟨hscratch, hwork⟩ := h
      cases hfailure : (options.request bound).resolver.firstFailure? call.trace with
      | some failure =>
        rw [Engine.run_compileProgram_of_raised hcall hout hfailure,
          tool.giveUp_compiled host hscratch]
        exact hwork.leftBy hw
      | none =>
        rw [Engine.run_compileProgram_of_ok hcall hout hfailure, tool.giveUp_compiled host hscratch,
          show ((tool.engine host).compiledFields handle _ |>.run w').2 = w' from
            tool.keeps_compiledFields host handle _ w']
        exact hwork.leftBy hw

/-- **Computing a witness in a directory** writes the program and its interface, and starts the tool
if the arguments make a command line. -/
theorem atWork_computeIn (input : ProgramInput) (args : String) (snarkjs : Bool) :
    w.AtWork
      ((witnessArgs input.abi args snarkjs).toOption.map fun line =>
        ⟨tool.binary, line.1, line.2, Entries.setAll [] (inputFiles input)⟩)
      ((tool.computeIn host w.requested input args snarkjs).run w.withNew).2 := by
  rw [Workshop.withNew_eq]
  refine atWork_writeAll host hw _ ?_
  cases witnessArgs input.abi args snarkjs with
  | error e => exact w.atWork_during _ _
  | ok line => exact tool.atWork_run host hw _ _ _ _

/-- **A witness computation** hands its directory on to a handle, or has it removed, which it does
as well when the logger breaks off. -/
theorem handsOn_computeWitness (input : ProgramInput) (args : String) (snarkjs : Bool)
    (logger : Logger) :
    w.HandsOn host
      ((witnessArgs input.abi args snarkjs).toOption.map fun line =>
        ⟨tool.binary, line.1, line.2, Entries.setAll [] (inputFiles input)⟩)
      WitnessHandle.scratch
      (tool.computeWitness host input args snarkjs logger.listener w) := by
  unfold Workshop.HandsOn
  cases hmake : host.makeFailure? w.requested with
  | some e =>
    rw [tool.computeWitness_of_unmade host hmake]
    exact .inl ⟨hmake ▸ nofun, rfl⟩
  | none =>
    have hwork := tool.atWork_computeIn host hw input args snarkjs
    cases hmade : (tool.computeIn host w.requested input args snarkjs).run w.withNew with
    | mk made w' =>
      rw [hmade] at hwork
      cases made with
      | error stop =>
        rw [tool.computeWitness_of_error host hmake hmade]
        exact hwork.leftBy hw
      | ok stdout =>
        have hheard := logger.deliver_listener [] (loggedLines stdout) w'
        generalize logger.deliver [] (loggedLines stdout) = heard at hheard
        obtain ⟨delivered, complete⟩ := heard
        cases complete with
        | true =>
          rw [tool.computeWitness_of_heard host hmake hmade hheard]
          exact ⟨rfl, hwork⟩
        | false =>
          rw [tool.computeWitness_of_brokenOff host hmake hmade hheard]
          exact hwork.leftBy hw

/-- **A witness computation in one call** has asked for the removal of its directory, if it made one
at all. -/
theorem leftBy_runProgram (input : ProgramInput) (args : Argument) (options : WitnessOptions) :
    ((tool.engine host).runProgram input args options w).2 = w
    ∨ w.LeftBy host
        ((args.encode.toOption.bind fun text =>
          (witnessArgs input.abi text options.request.snarkjs).toOption).map fun line =>
            ⟨tool.binary, line.1, line.2, Entries.setAll [] (inputFiles input)⟩)
        ((tool.engine host).runProgram input args options w).2 := by
  cases hencoded : args.encode with
  | error e =>
    rw [Engine.runProgram_of_not_encoded hencoded]
    exact .inl rfl
  | ok text =>
    refine .inr ?_
    have hspec := tool.handsOn_computeWitness host hw input text options.request.snarkjs
      options.request.logger
    unfold Workshop.HandsOn at hspec
    cases hcall : (tool.engine host).witnessCall input text options w with
    | mk call w' =>
      have hcompute : tool.computeWitness host input text options.request.snarkjs
          options.request.logger.listener w = (call, w') := hcall
      rw [hcompute] at hspec
      cases hout : call.outcome with
      | error stop =>
        rw [hout] at hspec
        rw [Engine.runProgram_of_error hencoded hcall hout]
        exact hspec
      | ok handle =>
        rw [hout] at hspec
        obtain ⟨hscratch, hwork⟩ := hspec
        rw [Engine.runProgram_of_ok hencoded hcall hout, tool.giveUp_computed host hscratch,
          show ((tool.engine host).computedFields handle _ |>.run w').2 = w' from
            tool.keeps_computedFields host handle _ w']
        exact hwork.leftBy hw

/-! ## All operations -/

/-- **An operation leaves the workshop as it was**, but for a number that is used up, the one run of
the tool that it may come to, and the removal of its directory. One whose arguments cannot be
encoded asks for no directory. -/
theorem leftBy_perform (options : ProviderOptions) (route : Route) (operation : Operation) :
    ((tool.engine host).perform options route operation w).2 = w
    ∨ w.LeftBy host (tool.start? host options route w.requested operation)
        ((tool.engine host).perform options route operation w).2 := by
  cases operation with
  | compile source call =>
    refine .inr ?_
    simp only [Engine.perform, Run.asCall_map_snd]
    have hstart : tool.start? host options route w.requested (.compile source call)
        = (SourceTree.files? host (call.request (route.bound options)).resolver.guarded
            ⟨(call.request (route.bound options)).location, source⟩).map
          (tool.compilation host w.requested (call.request (route.bound options)).flags
            (call.request (route.bound options)).curve) := by
      simp only [start?, commandLine?, Option.map_some]
      rw [Option.map_eq_bind]
      rfl
    rw [hstart]
    exact tool.leftBy_compileProgram host hw source call (route.bound options)
      (tool.handsOn_compile host hw _ _ _ _)
  | computeWitness input args call => exact tool.leftBy_runProgram host hw input args call
  | setup program entropy =>
    simp only [Engine.perform, Run.asCall_map_snd]
    exact .inr (tool.leftBy_setup host hw program entropy _)
  | universalSetup size entropy =>
    simp only [Engine.perform, Run.asCall_map_snd]
    exact .inr (tool.leftBy_universalSetup host hw _ size entropy)
  | setupFromReference reference program =>
    simp only [Engine.perform, Run.asCall_map_snd]
    exact .inr (tool.leftBy_setupFromReference host hw reference program _)
  | generateProof program witness provingKey entropy =>
    simp only [Engine.perform, Run.asCall_map_snd]
    exact .inr (tool.leftBy_generateProof host hw program witness provingKey entropy _)
  | verify verificationKey proof =>
    simp only [Engine.perform, Run.asCall_map_snd]
    exact .inr (tool.leftBy_verify host hw verificationKey proof _)
  | exportVerifier verificationKey =>
    simp only [Engine.perform, Run.asCall_map_snd]
    exact .inr (tool.leftBy_exportVerifier host hw verificationKey)
  | formatProof proof =>
    simp only [Engine.perform, Run.asCall_map_snd]
    exact .inr (tool.leftBy_formatProof host hw proof)

end Operations

end Installation

/-! ## Workshops between operations -/

/-- **A host that removes what it is asked to remove.** -/
def Host.Removes (host : Host) : Prop :=
  ∀ number files, host.leaves number files = none

namespace Workshop

/-- **A workshop is cleaned up** after a call on a host that writes some files for the tool. -/
inductive CleansUp (w : Workshop) (host : Host) (files? : Option (List (String × Bytes))) :
    Workshop → Prop
  /-- The call asked for no directory. -/
  | idle : CleansUp w host files? w
  /-- The host could not make the directory that the call asked for. -/
  | unmade (hmake : host.makeFailure? w.requested ≠ none) : CleansUp w host files? w.withoutNew
  /-- One directory was made, and its removal was asked for. All others are as they were, and of
  this one there is no more than the host left. If the tool ran at all, it ran once, in that
  directory and with the files of the call in it. -/
  | removed (files : Directory) (runs : List Invocation) (honce : runs.length ≤ 1)
      (hown : ∀ i ∈ runs, ∃ written, files? = some written ∧ i.files.Perm written) :
      CleansUp w host files? (w.left host files runs)

/-- **A workshop goes on** through calls that clean up. The tool ran as `runs` say, and `removed`
are the directories that were made and removed on the way. -/
structure GoesOn (w : Workshop) (runs : List (Nat × Invocation)) (removed : List Nat)
    (w' : Workshop) : Prop where
  /-- The directories there were are there as they were. What else there is was left of a directory
  that was removed. -/
  scratches : ∃ remains, w'.scratches = w.scratches ++ remains
    ∧ (remains.map (·.number)).Sublist removed
  /-- Numbers are only used up. -/
  requested_le : w.requested ≤ w'.requested
  /-- No run is forgotten. -/
  history : w'.history = w.history ++ runs
  /-- Nor is any removal. -/
  removals : w'.removals = w.removals ++ removed
  /-- No directory is removed twice. -/
  nodup : removed.Nodup
  /-- Each one was made in the meantime. -/
  bounds : ∀ number ∈ removed, w.requested ≤ number ∧ number < w'.requested
  /-- Each run had one of them to itself. -/
  runs_sublist : (runs.map Prod.fst).Sublist removed

variable {w w' w'' : Workshop} {host : Host}

/-- What leaves a workshop behind with its one start of the tool cleans up. -/
theorem LeftBy.cleansUp {start? : Option Invocation} {files? : Option (List (String × Bytes))}
    (h : w.LeftBy host start? w')
    (hfiles : ∀ i ∈ start?, ∃ files, files? = some files ∧ i.files.Perm files) :
    w.CleansUp host files? w' := by
  rcases h with ⟨hmake, rfl⟩ | ⟨files, runs, rfl, rfl | rfl⟩
  · exact .unmade hmake
  · exact .removed files [] (Nat.zero_le 1) nofun
  · refine .removed files _ ?_ fun i hi => hfiles i (Option.mem_toList.1 hi)
    cases start? <;> simp

/-- On a host that removes what it is asked to, the directories are those there were. -/
theorem CleansUp.scratches_of_removes {files? : Option (List (String × Bytes))}
    (h : w.CleansUp host files? w') (hhost : host.Removes) : w'.scratches = w.scratches := by
  cases h with
  | idle => rfl
  | unmade => rfl
  | removed files runs =>
    show w.scratches ++ _ = _
    rw [hhost]
    exact List.append_nil _

theorem GoesOn.refl (w : Workshop) : w.GoesOn [] [] w where
  scratches := ⟨[], (List.append_nil _).symm, .slnil⟩
  requested_le := Nat.le_refl _
  history := (List.append_nil _).symm
  removals := (List.append_nil _).symm
  nodup := List.nodup_nil
  bounds := nofun
  runs_sublist := .slnil

theorem GoesOn.trans {runs more : List (Nat × Invocation)} {removed removed' : List Nat}
    (h : w.GoesOn runs removed w') (h' : w'.GoesOn more removed' w'') :
    w.GoesOn (runs ++ more) (removed ++ removed') w'' where
  scratches := by
    obtain ⟨remains, hscratches, hsub⟩ := h.scratches
    obtain ⟨remains', hscratches', hsub'⟩ := h'.scratches
    refine ⟨remains ++ remains', by rw [hscratches', hscratches, List.append_assoc], ?_⟩
    rw [List.map_append]
    exact hsub.append hsub'
  requested_le := Nat.le_trans h.requested_le h'.requested_le
  history := by rw [h'.history, h.history, List.append_assoc]
  removals := by rw [h'.removals, h.removals, List.append_assoc]
  nodup := by
    rw [List.nodup_append]
    refine ⟨h.nodup, h'.nodup, ?_⟩
    -- the first directories have numbers that were used up before the others were
    rintro n hn m hm rfl
    have hlt := (h.bounds n hn).2
    have hle := (h'.bounds n hm).1
    omega
  bounds := by
    intro n hn
    rcases List.mem_append.1 hn with hn | hn
    · have hfirst := h.bounds n hn
      exact ⟨hfirst.1, Nat.lt_of_lt_of_le hfirst.2 h'.requested_le⟩
    · have hsecond := h'.bounds n hn
      exact ⟨Nat.le_trans h.requested_le hsecond.1, hsecond.2⟩
  runs_sublist := by
    rw [List.map_append]
    exact h.runs_sublist.append h'.runs_sublist

/-- One call that cleans up. -/
theorem CleansUp.exists_goesOn {files? : Option (List (String × Bytes))}
    (h : w.CleansUp host files? w') : ∃ runs removed, w.GoesOn runs removed w' := by
  cases h with
  | idle => exact ⟨[], [], .refl w⟩
  | unmade =>
    exact ⟨[], [], ⟨[], (List.append_nil _).symm, .slnil⟩, Nat.le_succ _, (List.append_nil _).symm,
      (List.append_nil _).symm, List.nodup_nil, nofun, .slnil⟩
  | removed files runs honce =>
    refine ⟨runs.map fun i => (w.requested, i), [w.requested], ⟨_, rfl, ?_⟩, Nat.le_succ _, rfl,
      rfl, List.nodup_singleton _, ?_, ?_⟩
    · cases host.leaves w.requested files <;> simp
    · exact List.forall_mem_singleton.2 ⟨Nat.le_refl _, Nat.lt_succ_self _⟩
    · cases runs with
      | nil => exact List.nil_sublist _
      | cons i more =>
        obtain rfl : more = [] := by simpa using honce
        exact .refl _

/-- Nothing that is left has a number that is still to be given out. -/
theorem GoesOn.isNumbered {runs : List (Nat × Invocation)} {removed : List Nat}
    (h : w.GoesOn runs removed w') (hw : w.IsNumbered) : w'.IsNumbered := by
  intro s hs
  obtain ⟨remains, hscratches, hsub⟩ := h.scratches
  rw [hscratches, List.mem_append] at hs
  rcases hs with hs | hs
  · exact Nat.lt_of_lt_of_le (hw s hs) h.requested_le
  · exact (h.bounds _ (hsub.subset (List.mem_map_of_mem hs))).2

end Workshop

/-! ## Sessions -/

/-- A session with the engine that drives the proof tool. -/
abbrev ToolSession := Session Workshop CompileHandle WitnessHandle

end CommandLine

/-- The files that a command writes for the tool. -/
def Command.inputFiles? (host : CommandLine.Host) : Command → Option (List (String × Bytes))
  | .perform _ _ operation => operation.inputFiles? host
  | _ => none

namespace CommandLine

namespace Installation

variable (tool : Installation)

/-- The session after some commands, each on a host of its own. -/
def after (s : ToolSession) (calls : List (Host × Command)) : ToolSession :=
  (s.runAll (calls.map fun call => (tool.engine call.1, call.2))).2

theorem after_cons (s : ToolSession) (call : Host × Command) (rest : List (Host × Command)) :
    tool.after s (call :: rest) = tool.after (s.step (tool.engine call.1) call.2).2 rest := rfl

theorem after_append (s : ToolSession) (calls more : List (Host × Command)) :
    tool.after s (calls ++ more) = tool.after (tool.after s calls) more := by
  induction calls generalizing s with
  | nil => rfl
  | cons call rest ih => exact ih (s.step (tool.engine call.1) call.2).2

/-- **A command through a provider cleans up.** -/
theorem cleansUp_step (host : Host) {s : ToolSession} (hs : s.state.IsNumbered)
    {command : Command} (h : command.isPipeline = true) :
    s.state.CleansUp host (command.inputFiles? host)
      (s.step (tool.engine host) command).2.state := by
  have hkept : ∀ (files? : Option (List (String × Bytes))) (s' : ToolSession),
      s'.state = s.state → s.state.CleansUp host files? s'.state := by
    intro files? s' hs'
    rw [hs']
    exact .idle
  cases command with
  | name => exact hkept _ _ rfl
  | options on => exact hkept _ _ (Session.state_withProvider fun _ => rfl)
  | clone on => exact hkept _ _ (Session.state_withProvider fun _ => rfl)
  | rebind on options => exact hkept _ _ (Session.state_withProvider fun _ => rfl)
  | perform on route operation =>
    simp only [Session.step, Session.withProvider, Command.inputFiles?]
    cases s.providers[on]? with
    | none => exact hkept _ s rfl
    | some options =>
      show s.state.CleansUp host (operation.inputFiles? host)
        ((tool.engine host).perform options route operation s.state).2
      rcases tool.leftBy_perform host hs options route operation with hsame | hleft
      · rw [hsame]
        exact .idle
      · refine hleft.cleansUp fun i hi => ?_
        obtain ⟨files, hfiles, hline⟩ := Option.bind_eq_some_iff.1 hi
        obtain ⟨line, -, rfl⟩ := Option.map_eq_some_iff.1 hline
        exact ⟨files, hfiles, Entries.perm_setAll (Operation.nodup_inputFiles? hfiles)⟩
  | hold | read | release | drop => cases h

/-- **Commands through providers go on from a workshop**, one after another. -/
theorem exists_goesOn_after {s : ToolSession} {calls : List (Host × Command)}
    (hs : s.state.IsNumbered) (hcalls : ∀ call ∈ calls, call.2.isPipeline = true) :
    ∃ runs removed, s.state.GoesOn runs removed (tool.after s calls).state := by
  induction calls generalizing s with
  | nil => exact ⟨[], [], .refl _⟩
  | cons call rest ih =>
    obtain ⟨hcall, hrest⟩ := List.forall_mem_cons.1 hcalls
    obtain ⟨runs, removed, hstep⟩ := (tool.cleansUp_step call.1 hs hcall).exists_goesOn
    obtain ⟨more, removed', hmore⟩ := ih (hstep.isNumbered hs) hrest
    exact ⟨runs ++ more, removed ++ removed', hstep.trans hmore⟩

/-- On hosts that remove what they are asked to, the directories stay the same. -/
theorem scratches_after_of_removes {s : ToolSession} {calls : List (Host × Command)}
    (hs : s.state.IsNumbered) (hcalls : ∀ call ∈ calls, call.2.isPipeline = true)
    (hhosts : ∀ call ∈ calls, call.1.Removes) :
    (tool.after s calls).state.scratches = s.state.scratches := by
  induction calls generalizing s with
  | nil => rfl
  | cons call rest ih =>
    obtain ⟨hcall, hrest⟩ := List.forall_mem_cons.1 hcalls
    obtain ⟨hhost, hhosts⟩ := List.forall_mem_cons.1 hhosts
    have hclean := tool.cleansUp_step call.1 hs hcall
    obtain ⟨runs, removed, hstep⟩ := hclean.exists_goesOn
    rw [after_cons, ih (hstep.isNumbered hs) hrest hhosts, hclean.scratches_of_removes hhost]

/-- A session in which a handle still has its directory. -/
def holdingSession : ToolSession :=
  { state := { scratches := [⟨0, [("out", [1])]⟩], requested := 1 } }

/-- A setup whose keys the tool does not leave, a compilation whose resolver breaks off, and a
computation whose witness it does not leave. -/
def failingCalls : List (Host × Command) :=
  [(idleHost, .perform 0 .provider (.setup [7] none)),
    (idleHost, .perform 0 .task (.compile "import \"./lib\";"
      { resolver := some (Lookup.resolver ⟨fun _ _ => .crashed, 0⟩) })),
    (idleHost, .perform 0 .provider (.computeWitness ⟨[8], none⟩ (.sequence [.text "3"]) {}))]

/-- A host that cannot remove directories. -/
def clingingHost : Host := { idleHost with leaves := fun _ files => some files }

end Installation

end CommandLine

end ProofToolchain
