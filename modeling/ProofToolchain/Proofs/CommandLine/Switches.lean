import ProofToolchain.CommandLine.Arguments
import ProofToolchain.Proofs.Options.Flags

/-!
# The command line of a compilation says what was asked for

Two texts on the command line of a compilation are not the library's own, the root and the path of
the standard library, and either may be anything, the spelling of a switch included. Other switches
are there or not, so nothing stands at a fixed place after the curve.

Read from left to right the command line is unambiguous all the same: a switch that takes a text
takes the word after it, whatever that says (`settings?`), so neither text is ever read as a switch.
What is read says what was asked for (`SayWhatWasAsked`), and so two compilations have the same
command line only if they ask for the same. Flags matter as far as they are on, and only three of
them (`switchFlags`).
-/

namespace ProofToolchain

/-- Curves have different names. -/
theorem Curve.name_injective {c d : Curve} (h : c.name = d.name) : c = d := by
  cases c <;> cases d <;> first | rfl | exact absurd h (by decide)

namespace CommandLine

/-! ## Reading a command line -/

/-- The switches of a compilation that stand alone. -/
def bareSwitches : List String := ["--isolate-branches", "--debug"]

/-- The switches of a compilation that take a text. -/
def textSwitches : List String :=
  ["--input", "--output", "--abi-spec", "--curve", "--r1cs", "--stdlib-path"]

/-- **A setting**: a switch with the text it takes, if it takes one. -/
abbrev Setting := String × Option String

/-- **The settings that words spell**, from left to right. A switch that takes a text takes the next
word, whatever that is. -/
def settings? : List String → Option (List Setting)
  | [] => some []
  | [switch] => if switch ∈ bareSwitches then some [(switch, none)] else none
  | switch :: text :: rest =>
    if switch ∈ bareSwitches then (settings? (text :: rest)).map ((switch, none) :: ·)
    else if switch ∈ textSwitches then (settings? rest).map ((switch, some text) :: ·)
    else none

/-- **What comes after complete settings** is read on its own. -/
theorem settings?_append {words : List String} {settings : List Setting}
    (h : settings? words = some settings) (more : List String) :
    settings? (words ++ more) = (settings? more).map (settings ++ ·) := by
  fun_induction settings? words generalizing settings with
  | case1 =>
    cases h
    simp
  | case2 switch hbare =>
    cases h
    cases more <;> simp [settings?, hbare]
  | case3 => cases h
  | case4 switch text rest hbare ih =>
    obtain ⟨read, hread, rfl⟩ := Option.map_eq_some_iff.1 h
    rw [List.cons_append, List.cons_append, settings?, if_pos hbare, ← List.cons_append, ih hread,
      Option.map_map]
    rfl
  | case5 switch text rest hbare htext ih =>
    obtain ⟨read, hread, rfl⟩ := Option.map_eq_some_iff.1 h
    rw [List.cons_append, List.cons_append, settings?, if_neg hbare, if_pos htext, ih hread,
      Option.map_map]
    rfl
  | case6 => cases h

/-- Settings that follow each other are read one after the other. -/
theorem settings?_append_eq {words more : List String} {settings others : List Setting}
    (h : settings? words = some settings) (hmore : settings? more = some others) :
    settings? (words ++ more) = some (settings ++ others) := by
  rw [settings?_append h, hmore, Option.map_some]

/-! ## What a compilation asks for -/

/-- **The settings of a compilation**, in the order of the command line. -/
def compileSettings (root : String) (flags : Flags) (curve : Curve) (stdlib : Option String) :
    List Setting :=
  [("--input", some root), ("--output", some programFile), ("--abi-spec", some abiFile),
    ("--curve", some curve.name)]
  ++ (if flags.isEnabled Flags.snarkjsFlag then [("--r1cs", some r1csFile)] else [])
  ++ (if flags.isEnabled Flags.isolateBranchesFlag then [("--isolate-branches", none)] else [])
  ++ (if flags.isEnabled Flags.debugFlag then [("--debug", none)] else [])
  ++ (stdlib.map fun path => ("--stdlib-path", some path)).toList

/-- Switches that are there only under a condition set what they do only then. -/
theorem settings?_whenever {words : List String} {settings : List Setting}
    (h : settings? words = some settings) (condition : Bool) :
    settings? (whenever condition words) = some (if condition then settings else []) := by
  cases condition with
  | false => rfl
  | true => exact h

/-- **A command line is read as the settings it was made of**, whatever the two paths say. -/
theorem settings?_compileArgs (root : String) (flags : Flags) (curve : Curve)
    (stdlib : Option String) :
    settings? (compileArgs root flags curve stdlib).tail
      = some (compileSettings root flags curve stdlib) := by
  have hfixed : settings? ["--input", root, "--output", programFile, "--abi-spec", abiFile,
      "--curve", curve.name] = some [("--input", some root), ("--output", some programFile),
        ("--abi-spec", some abiFile), ("--curve", some curve.name)] := rfl
  have hsnarkjs : settings? ["--r1cs", r1csFile] = some [("--r1cs", some r1csFile)] := rfl
  have hisolate : settings? ["--isolate-branches"] = some [("--isolate-branches", none)] := rfl
  have hdebug : settings? ["--debug"] = some [("--debug", none)] := rfl
  have hread := settings?_append_eq (settings?_append_eq (settings?_append_eq hfixed
    (settings?_whenever hsnarkjs (flags.isEnabled Flags.snarkjsFlag)))
    (settings?_whenever hisolate (flags.isEnabled Flags.isolateBranchesFlag)))
    (settings?_whenever hdebug (flags.isEnabled Flags.debugFlag))
  cases stdlib with
  | none =>
    have hnone : settings? [] = some [] := rfl
    exact settings?_append_eq hread hnone
  | some path =>
    have hpath : settings? ["--stdlib-path", path] = some [("--stdlib-path", some path)] := rfl
    exact settings?_append_eq hread hpath

/-- **Settings say what was asked for**, whatever else they say. -/
structure SayWhatWasAsked (settings : List Setting) (root : String) (flags : Flags) (curve : Curve)
    (stdlib : Option String) : Prop where
  /-- The root is given once, as the caller wrote it. -/
  root : ∀ text, ("--input", text) ∈ settings ↔ text = some root
  /-- So is the name of the curve. -/
  curve : ∀ text, ("--curve", text) ∈ settings ↔ text = some curve.name
  /-- The form for `snarkjs` is asked for exactly if its flag is on. -/
  snarkjs : ∀ text, ("--r1cs", text) ∈ settings
    ↔ flags.isEnabled Flags.snarkjsFlag = true ∧ text = some r1csFile
  /-- So is branch isolation. -/
  isolateBranches : ∀ text, ("--isolate-branches", text) ∈ settings
    ↔ flags.isEnabled Flags.isolateBranchesFlag = true ∧ text = none
  /-- So is debug output. -/
  debug : ∀ text, ("--debug", text) ∈ settings
    ↔ flags.isEnabled Flags.debugFlag = true ∧ text = none
  /-- The path of the standard library is given if there is one. -/
  stdlib : ∀ path, ("--stdlib-path", some path) ∈ settings ↔ some path = stdlib

/-- The settings of a compilation say what it asks for. -/
theorem sayWhatWasAsked (root : String) (flags : Flags) (curve : Curve) (stdlib : Option String) :
    SayWhatWasAsked (compileSettings root flags curve stdlib) root flags curve stdlib := by
  cases stdlib <;> constructor <;> intro text <;> simp [compileSettings]

/-- A switch that is there under one condition and under another says that these are the same. -/
theorem eq_of_mem_settings_iff {settings : List Setting} {switch : String} {text : Option String}
    {on on' : Bool} (h : ∀ t, (switch, t) ∈ settings ↔ on = true ∧ t = text)
    (h' : ∀ t, (switch, t) ∈ settings ↔ on' = true ∧ t = text) : on = on' := by
  have hiff := (h text).symm.trans (h' text)
  rw [Bool.eq_iff_iff]
  simpa using hiff

/-- **Settings say one thing only.** -/
theorem SayWhatWasAsked.unique {settings : List Setting} {root root' : String}
    {flags flags' : Flags} {curve curve' : Curve} {stdlib stdlib' : Option String}
    (h : SayWhatWasAsked settings root flags curve stdlib)
    (h' : SayWhatWasAsked settings root' flags' curve' stdlib') :
    root = root' ∧ curve = curve' ∧ stdlib = stdlib'
      ∧ flags.isEnabled Flags.snarkjsFlag = flags'.isEnabled Flags.snarkjsFlag
      ∧ flags.isEnabled Flags.isolateBranchesFlag = flags'.isEnabled Flags.isolateBranchesFlag
      ∧ flags.isEnabled Flags.debugFlag = flags'.isEnabled Flags.debugFlag := by
  refine ⟨?_, ?_, ?_, ?_, ?_, ?_⟩
  · exact Option.some.inj ((h'.root _).1 ((h.root _).2 rfl))
  · exact Curve.name_injective (Option.some.inj ((h'.curve _).1 ((h.curve _).2 rfl)))
  · refine Option.ext fun path => ?_
    rw [eq_comm, ← h.stdlib, h'.stdlib, eq_comm]
  · exact eq_of_mem_settings_iff h.snarkjs h'.snarkjs
  · exact eq_of_mem_settings_iff h.isolateBranches h'.isolateBranches
  · exact eq_of_mem_settings_iff h.debug h'.debug

/-! ## What changes a command line -/

/-- The flags that have a switch. -/
def switchFlags : List String :=
  [Flags.snarkjsFlag, Flags.isolateBranchesFlag, Flags.debugFlag]

/-- **Flags that are on alike** make the same command line. -/
theorem compileArgs_congr {flags flags' : Flags}
    (h : ∀ name ∈ switchFlags, flags.isEnabled name = flags'.isEnabled name)
    (root : String) (curve : Curve) (stdlib : Option String) :
    compileArgs root flags curve stdlib = compileArgs root flags' curve stdlib := by
  unfold compileArgs
  rw [h Flags.snarkjsFlag (by simp [switchFlags]),
    h Flags.isolateBranchesFlag (by simp [switchFlags]), h Flags.debugFlag (by simp [switchFlags])]

/-- A flag without a switch changes nothing, whatever it is set to. -/
theorem compileArgs_set_of_notMem {name : String} (h : name ∉ switchFlags) (value : Json)
    (root : String) (flags : Flags) (curve : Curve) (stdlib : Option String) :
    compileArgs root (flags.set name value) curve stdlib
      = compileArgs root flags curve stdlib := by
  refine compileArgs_congr (fun switch hswitch => ?_) ..
  have hne : switch ≠ name := fun heq => h (heq ▸ hswitch)
  exact Flags.isEnabled_set_of_ne hne value

/-- A value that turns a flag off does what any flags do that have it off. -/
theorem compileArgs_set_of_ne_true {name : String} {flags flags' : Flags} {value : Json}
    (h : value ≠ .bool true) (hoff : flags'.isEnabled name = false)
    (hothers : ∀ other, other ≠ name → flags'.isEnabled other = flags.isEnabled other)
    (root : String) (curve : Curve) (stdlib : Option String) :
    compileArgs root (flags.set name value) curve stdlib
      = compileArgs root flags' curve stdlib := by
  refine compileArgs_congr (fun switch _ => ?_) ..
  by_cases heq : switch = name
  · rw [heq, Flags.isEnabled_set_of_ne_true h, hoff]
  · rw [Flags.isEnabled_set_of_ne heq, hothers switch heq]

/-- **A command line is a faithful account of a compilation.** Two are equal exactly if they have
the same root, the same curve, the same path of the standard library or none, and the three flags
that have a switch are on alike. So a flag without a switch changes nothing, and a value that is not
`true` does what `false` does, which is nothing if the flag is off. No text can imitate a switch:
read from left to right the command line makes the settings that were asked for. -/
theorem compileArgs_faithful (root : String) (flags : Flags) (curve : Curve)
    (stdlib : Option String) :
    (∀ root' flags' curve' stdlib',
      compileArgs root flags curve stdlib = compileArgs root' flags' curve' stdlib'
        ↔ root = root' ∧ curve = curve' ∧ stdlib = stdlib'
          ∧ ∀ name ∈ switchFlags, flags.isEnabled name = flags'.isEnabled name)
      ∧ (∀ name value, name ∉ switchFlags →
          compileArgs root (flags.set name value) curve stdlib
            = compileArgs root flags curve stdlib)
      ∧ (∀ name value, value ≠ .bool true →
          compileArgs root (flags.set name value) curve stdlib
              = compileArgs root (flags.set name (.bool false)) curve stdlib
            ∧ (flags.isEnabled name = false →
                compileArgs root (flags.set name value) curve stdlib
                  = compileArgs root flags curve stdlib))
      ∧ settings? (compileArgs root flags curve stdlib).tail
          = some (compileSettings root flags curve stdlib)
      ∧ SayWhatWasAsked (compileSettings root flags curve stdlib) root flags curve stdlib := by
  refine ⟨fun root' flags' curve' stdlib' => ⟨fun hargs => ?_, ?_⟩, fun name value hname => ?_,
    fun name value hvalue => ⟨?_, fun hoff => ?_⟩, ?_, ?_⟩
  · have hsettings : compileSettings root flags curve stdlib
        = compileSettings root' flags' curve' stdlib' := by
      rw [← Option.some_inj, ← settings?_compileArgs, hargs, settings?_compileArgs]
    obtain ⟨hroot, hcurve, hstdlib, hsnarkjs, hisolate, hdebug⟩ :=
      (sayWhatWasAsked root flags curve stdlib).unique
        (hsettings ▸ sayWhatWasAsked root' flags' curve' stdlib')
    exact ⟨hroot, hcurve, hstdlib, by simp [switchFlags, hsnarkjs, hisolate, hdebug]⟩
  · rintro ⟨rfl, rfl, rfl, hflags⟩
    exact compileArgs_congr hflags ..
  · exact compileArgs_set_of_notMem hname ..
  · have hfalse : (flags.set name (.bool false)).isEnabled name = false :=
      Flags.isEnabled_set_of_ne_true (by simp) name
    have hothers : ∀ other, other ≠ name →
        (flags.set name (.bool false)).isEnabled other = flags.isEnabled other :=
      fun other hother => Flags.isEnabled_set_of_ne hother _
    exact compileArgs_set_of_ne_true hvalue hfalse hothers ..
  · exact compileArgs_set_of_ne_true hvalue hoff (fun _ _ => rfl) ..
  · exact settings?_compileArgs root flags curve stdlib
  · exact sayWhatWasAsked root flags curve stdlib

/-- **A root that spells a switch is not one**, and neither is a path that does. A flag nobody knows
and a known one that is set to a text are as good as unset. -/
theorem compileArgs_faithful_imitation :
    compileArgs "--debug" Flags.empty .bn128 (some "--isolate-branches")
        ≠ compileArgs "--debug" (Flags.empty.withDebug true) .bn128 (some "--isolate-branches")
      ∧ compileArgs "--debug" (Flags.empty.set "optimize" (.bool true)) .bn128 none
        = compileArgs "--debug" Flags.empty .bn128 none
      ∧ compileArgs "--debug" (Flags.empty.set "debug" (.string "true")) .bn128 none
        = compileArgs "--debug" Flags.empty .bn128 none := by
  obtain ⟨hiff, -, -, -⟩ :=
    compileArgs_faithful "--debug" Flags.empty .bn128 (some "--isolate-branches")
  obtain ⟨-, hunknown, hvalue, -⟩ := compileArgs_faithful "--debug" Flags.empty .bn128 none
  refine ⟨fun heq => ?_, hunknown _ _ (by decide), (hvalue _ _ (by simp)).2 rfl⟩
  exact absurd (((hiff ..).1 heq).2.2.2 Flags.debugFlag (by simp [switchFlags])) (by decide)

end CommandLine

end ProofToolchain
