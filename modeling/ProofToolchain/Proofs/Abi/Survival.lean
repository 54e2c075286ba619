import ProofToolchain.Proofs.Abi.RoundTrip
import ProofToolchain.Proofs.SnarkjsForm

/-!
# Interfaces survive from compilation to witness computation

The proof tool writes the interface of a program when it compiles it, and wants it back when the
program is run. In between it is a value that callers hold, so it is read from one file and written
to another. The two files need not be the same, but the tool finds what it wrote: the interface in
the second file is the one that was read from the first (`interfaces_survive`).

An interface that a compilation yields was read from a blob, whatever else went on
(`Engine.yieldsOnly_abi`), so it survives (`Abi.survives_of_ofBlob?`). A witness computation writes
its text before the tool is started, and no other file under its name.
-/

namespace ProofToolchain

open Run (YieldsOnly)

/-- A scope yields what is read off its handle, and refuses to read without one. -/
theorem Scoped.yieldsOnly_extract {σ κ α : Type} {Q : α → Prop} {read : κ → Run σ α}
    (h : ∀ handle, YieldsOnly Q (read handle)) (scope : Scoped κ) (field : String) :
    YieldsOnly Q (scope.extract field read) := by
  unfold extract
  split
  · exact (h _).extracting _ _
  · intro s a ha
    cases ha

/-- **The interface of an artifact is one that was read off the handle**, on any engine. -/
theorem Engine.yieldsOnly_abi {σ κ ω : Type} (engine : Engine σ κ ω) {P : Abi → Prop}
    (hread : ∀ handle, YieldsOnly P (engine.compiled.abi handle)) (source : String)
    (options : CompileOptions) (bound : Option ProviderOptions) :
    YieldsOnly (fun artifact => P artifact.abi) (engine.compileProgram source options bound) := by
  refine .bind fun scope => Scoped.yieldsOnly_reading ?_
  refine .bind fun program => (Scoped.yieldsOnly_extract hread scope _).andThen fun abi habi => ?_
  show YieldsOnly _ (if options.snarkjs then _ else _)
  cases options.snarkjs with
  | true => exact .bind fun _ => .pure habi
  | false => exact .pure habi

namespace CommandLine

/-- **An interface was read** if some blob spells it. -/
theorem CompileHandle.yieldsOnly_abi (host : Host) (handle : CompileHandle) :
    YieldsOnly (fun a => ∃ blob, Abi.ofBlob? blob = some a) (handle.abi host) := by
  refine .bind fun content => ?_
  split
  · next a ha => exact .pure ⟨content, ha⟩
  · intro w a ha
    cases ha

/-- **The tool finds an interface** if the file that it looks for spells it. -/
def Invocation.FindsAbi (i : Invocation) (a : Abi) : Prop :=
  (Entries.get? abiFile i.files).bind Abi.ofBlob? = some a

/-- **Every start of the tool** between two states of a workshop finds an interface. -/
def Workshop.HandsAbi (a : Abi) (w w' : Workshop) : Prop :=
  ∀ i ∈ w.runsSince w', i.FindsAbi a

/-- The interface is among the files of a program that is run. -/
theorem findsAbi_of_survives {a : Abi} (h : a.Survives) (program : Bytes) (binary : String)
    (line : List String × Option String) :
    Invocation.FindsAbi ⟨binary, line.1, line.2,
      Entries.setAll [] (Installation.inputFiles ⟨program, some a⟩)⟩ a := by
  have hfile : Entries.get? abiFile (Entries.setAll [] (Installation.inputFiles ⟨program, some a⟩))
      = some (Text.Utf8.encode a.text) := by
    refine (Entries.get?_setAll ?_).2 (.inl ?_)
    · simp [Installation.inputFiles, programFile, abiFile]
    · simp [Installation.inputFiles]
  rw [Invocation.FindsAbi, hfile]
  exact h.blob

/-- A call that hands its directory on has come to the one start of the tool that it may come to. -/
theorem Workshop.HandsOn.eq_of_mem_runsSince {τ κ : Type} {w : Workshop} {host : Host}
    {start? : Option Invocation} {scratch : κ → Lease} {made : Watched τ κ × Workshop}
    (h : w.HandsOn host start? scratch made) {i : Invocation} (hi : i ∈ w.runsSince made.2) :
    start? = some i := by
  unfold HandsOn at h
  split at h
  · obtain ⟨-, files, runs, hmade, rfl | rfl⟩ := h
    · rw [hmade] at hi
      simp [runsSince, during] at hi
    · rw [hmade] at hi
      simpa [runsSince, during] using hi
  · exact h.eq_of_mem_runsSince hi

namespace Installation

variable (tool : Installation) (host : Host) {a : Abi} (ha : a.Survives) {w : Workshop}
  (hw : w.IsNumbered) (program : Bytes)

include ha hw

/-- **A witness computation of the engine** lets the tool find the interface. -/
theorem handsAbi_computeWitness (args : String) (snarkjs : Bool) (logger : Logger) :
    w.HandsAbi a
      (tool.computeWitness host ⟨program, some a⟩ args snarkjs logger.listener w).2 := by
  intro i hi
  have hstart := (tool.handsOn_computeWitness host hw ⟨program, some a⟩ args snarkjs
    logger).eq_of_mem_runsSince hi
  obtain ⟨line, -, rfl⟩ := Option.map_eq_some_iff.1 hstart
  exact findsAbi_of_survives ha program tool.binary line

/-- So does the operation. -/
theorem handsAbi_perform (options : ProviderOptions) (route : Route) (args : Argument)
    (call : WitnessOptions) :
    w.HandsAbi a ((tool.engine host).perform options route
      (.computeWitness ⟨program, some a⟩ args call) w).2 := by
  intro i hi
  have hstart := tool.start?_of_mem_runsSince host options route hw hi
  obtain ⟨line, -, rfl⟩ := Option.map_eq_some_iff.1 hstart
  exact findsAbi_of_survives ha program tool.binary line

end Installation

end CommandLine

/-- **An interface is delivered** to the tool if the tool finds it wherever it is run with it. -/
structure CommandLine.Installation.DeliversAbi (tool : CommandLine.Installation)
    (host : CommandLine.Host) (a : Abi) : Prop where
  /-- In every witness computation of the engine. -/
  computeWitness : ∀ program args snarkjs (logger : Logger) (w : CommandLine.Workshop),
    w.IsNumbered →
      w.HandsAbi a
        (tool.computeWitness host ⟨program, some a⟩ args snarkjs logger.listener w).2
  /-- In every operation that computes a witness. -/
  perform : ∀ options route program args call (w : CommandLine.Workshop), w.IsNumbered →
    w.HandsAbi a ((tool.engine host).perform options route
      (.computeWitness ⟨program, some a⟩ args call) w).2

theorem CommandLine.Installation.deliversAbi (tool : CommandLine.Installation)
    (host : CommandLine.Host) {a : Abi} (ha : a.Survives) : tool.DeliversAbi host a where
  computeWitness program args snarkjs logger _ hw :=
    tool.handsAbi_computeWitness host ha hw program args snarkjs logger
  perform options route program args call _ hw :=
    tool.handsAbi_perform host ha hw program options route args call

/-- **Interfaces survive.** Whatever interface is read, from a text, off the handle of a compilation
or as part of an artifact, its own text spells it again, and so does the blob that holds the text,
unless there are doubles in it. So it is what the tool finds when it is run with it, whenever that
is and whatever else happened to the workshop. -/
theorem interfaces_survive (tool : CommandLine.Installation) (host : CommandLine.Host) :
    (∀ text a, Abi.parse? text = some a → a.HoldsIntegers → a.Survives ∧ tool.DeliversAbi host a)
    ∧ (∀ (handle : CommandLine.CompileHandle) w a, ((handle.abi host).run w).1 = .ok a →
        a.HoldsIntegers → a.Survives ∧ tool.DeliversAbi host a)
    ∧ ∀ options route source call w artifact,
        ((tool.engine host).perform options route (.compile source call) w).1.outcome
          = .ok (.artifact artifact) →
        artifact.abi.HoldsIntegers →
          artifact.abi.Survives ∧ tool.DeliversAbi host artifact.abi := by
  refine ⟨fun text a htext hints => ?_, fun handle w a hread hints => ?_,
    fun options route source call w artifact hmade hints => ?_⟩
  · have hsurvives := Abi.survives_of_parse? htext hints
    exact ⟨hsurvives, tool.deliversAbi host hsurvives⟩
  · obtain ⟨blob, hblob⟩ := handle.yieldsOnly_abi host w a hread
    have hsurvives := Abi.survives_of_ofBlob? hblob hints
    exact ⟨hsurvives, tool.deliversAbi host hsurvives⟩
  · obtain ⟨blob, hblob⟩ := (tool.engine host).yieldsOnly_abi
      (CommandLine.CompileHandle.yieldsOnly_abi host) source call _ w artifact
      ((tool.engine host).ok_of_artifact hmade)
    have hsurvives := Abi.survives_of_ofBlob? hblob hints
    exact ⟨hsurvives, tool.deliversAbi host hsurvives⟩

/-- An interface as it may be written: members in any order, one that is none of its own, components
that are `null`, and an output without the names of its fields. -/
def terseText : String :=
  "\x7b\"version\":0.8,\"output\":[\"tuple\",\x7b\"type\":\"u8\",\"elements\":[2,-1]\x7d],"
    ++ "\"inputs\":[\x7b\"type\":\"field\",\"components\":null,\"name\":\"é\"\x7d]\x7d"

/-- The literal that it spells. -/
def terseLiteral : Json.Literal :=
  .object [
    (Json.unitsOf "version", .number ⟨false, ['0'], some ['8'], none⟩),
    (Json.unitsOf "output", .array [.string (Json.unitsOf "tuple"), .object [
      (Json.unitsOf "type", .string (Json.unitsOf "u8")),
      (Json.unitsOf "elements",
        .array [.number (Json.spelling 2), .number (Json.spelling (-1))])]]),
    (Json.unitsOf "inputs", .array [.object [
      (Json.unitsOf "type", .string (Json.unitsOf "field")),
      (Json.unitsOf "components", .null),
      (Json.unitsOf "name", .string (Json.unitsOf "é"))]])]

/-- The interface that it spells. -/
def terse : Abi where
  inputs := [⟨"é", false, .field⟩]
  output := some ⟨"tuple", some (.object [
    ("elements", .array [.ofNat 2, .number (.integer (-1))]), ("type", .string "u8")])⟩

/-- A host on which the tool leaves a program and a witness, and an interface that is written as an
array. -/
def arrayHost : CommandLine.Host where
  scratchPath _ := "/scratch"
  launch _ := .ran ⟨[], [], true, [("abi.json", Text.Utf8.encode
      ("[[\x7b\"name\":\"a\",\"type\":\"tuple\",\"components\":\x7b\"elements\":[]\x7d\x7d],"
        ++ "[\"bool\"]]")),
    ("out", Text.Utf8.encode "p"), ("witness", [])]⟩
  finds _ := true

/-- The interface that the tool leaves there. -/
def arrayAbi : Abi where
  inputs := [⟨"a", false, ⟨"tuple", some (.object [("elements", .array [])])⟩⟩]
  output := some ⟨"bool", none⟩

/-- The text is read as the interface, which survives. On the host, the interface that a compilation
yields is the one that the tool finds when it is run. -/
theorem interfaces_survive_terse :
    Abi.parse? terseText = some terse ∧ terse.HoldsIntegers ∧ terse.Survives
    ∧ ((CommandLine.Installation.engine {} arrayHost).perform {} .provider
        (.compile "" {}) {}).1.outcome = .ok (.artifact ⟨Text.Utf8.encode "p", arrayAbi, none⟩)
    ∧ arrayAbi.HoldsIntegers
    ∧ ∃ i, CommandLine.Workshop.runsSince {} ((CommandLine.Installation.engine {}
        arrayHost).perform {} .provider (.computeWitness ⟨Text.Utf8.encode "p", some arrayAbi⟩
          (.sequence []) {}) {}).2 = [i]
      ∧ i.FindsAbi arrayAbi := by
  have hw : ({} : CommandLine.Workshop).IsNumbered := nofun
  have hliteral : Json.Literal.parse? terseText.toList = some terseLiteral := by cbv
  have hterse : Abi.parse? terseText = some terse := by
    rw [Abi.parse?, hliteral]
    rfl
  have hterseInts : terse.HoldsIntegers := by
    constructor
    · rintro i (_ | ⟨_, ⟨⟩⟩) c ⟨⟩
    · rintro t ⟨⟩ c ⟨⟩
      simp [Json.HoldsIntegers, Json.MembersHoldIntegers, Json.ItemsHoldIntegers, Json.ofNat]
  have hartifact : ((CommandLine.Installation.engine {} arrayHost).perform {} .provider
      (.compile "" {}) {}).1.outcome
        = .ok (.artifact ⟨Text.Utf8.encode "p", arrayAbi, none⟩) := by cbv
  have harrayInts : arrayAbi.HoldsIntegers := by
    constructor
    · rintro i (_ | ⟨_, ⟨⟩⟩) c ⟨⟩
      simp [Json.HoldsIntegers, Json.MembersHoldIntegers, Json.ItemsHoldIntegers]
    · rintro t ⟨⟩ c ⟨⟩
  have hruns : (CommandLine.Workshop.runsSince {} ((CommandLine.Installation.engine {}
      arrayHost).perform {} .provider (.computeWitness ⟨Text.Utf8.encode "p", some arrayAbi⟩
        (.sequence []) {}) {}).2).length = 1 := by cbv
  obtain ⟨i, hi⟩ := List.length_eq_one_iff.1 hruns
  obtain ⟨htexts, -, hartifacts⟩ := interfaces_survive {} arrayHost
  have hdelivers := (hartifacts {} .provider "" {} {} _ hartifact harrayInts).2
  exact ⟨hterse, hterseInts, (htexts terseText terse hterse hterseInts).1, hartifact, harrayInts,
    i, hi, hdelivers.perform {} .provider _ _ {} {} hw i (hi ▸ List.mem_singleton_self i)⟩

end ProofToolchain
