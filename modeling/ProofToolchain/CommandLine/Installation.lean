import ProofToolchain.CommandLine.Workshop
import ProofToolchain.Text.Blank

/-!
# Running the proof tool

An installation says where the tool is. Each run of it is started in a scratch directory, and what
counts as a failure is the same for all commands but one: the tool is missing, cannot be started,
fed or waited for, or does not say that it succeeded (`Installation.run`). The exception only looks
at what the tool prints, and takes whatever run there is (`Installation.launch`).
-/

namespace ProofToolchain.CommandLine

/-- **Where to find the tool.** -/
structure Installation where
  /-- The program. -/
  binary : String := "zokrates"
  /-- The standard library, where it is not the tool's own. -/
  stdlib : Option String := none
  deriving DecidableEq, Repr

/-- How the tool is installed. -/
def installHint : String := "curl -LSfs get.zokrat.es | sh"

namespace Installation

/-- The error of a tool that is not there. -/
def missing (tool : Installation) : Error := .missingTool tool.binary installHint

/-- The installation that two environment variables describe, if they are set. -/
def ofEnvironment (binary stdlib : Option String) : Installation :=
  ⟨binary.getD ({} : Installation).binary, stdlib⟩

/-- **Whether the tool can be found.** -/
def checkPrerequisites (tool : Installation) (host : Host) : Except Error Unit :=
  if host.finds tool.binary then .ok () else .error tool.missing

end Installation

/-! ## Running the tool -/

namespace Installation

variable (tool : Installation) (host : Host)

/-- **A run of the tool** in a directory, whether it succeeds or not. A tool that is left to itself
has run as well, and nothing is known of what it printed. -/
def launch (number : Nat) (stage : Stage) (args : List String) (fed : Option String) :
    Run Workshop ToolRun := do
  match (← get).files? number with
  | none => Run.fail tool.missing
  | some found =>
    let invocation : Invocation := ⟨tool.binary, args, fed, found⟩
    match host.start invocation with
    | .notFound => Run.fail tool.missing
    | .refused detail => Run.fail (.stage stage ("failed to run zokrates: " ++ detail))
    | .unfed detail files =>
      modify (·.withRun number invocation files)
      Run.fail (.stage stage ("failed to write zokrates stdin: " ++ detail))
    | .lost detail files =>
      modify (·.withRun number invocation files)
      Run.fail (.stage stage ("failed to run zokrates: " ++ detail))
    | .ran run =>
      modify (·.withRun number invocation run.files)
      return run

/-- A text without the blanks around it. -/
def trimmed (text : String) : String :=
  String.ofList (Text.trim text.toList)

/-- What the tool says of its failure: its complaint, or what it printed if it complains of
nothing. -/
def complaint (stdout stderr : String) : String :=
  if (trimmed stderr).isEmpty then trimmed stdout else trimmed stderr

/-- **A run of the tool that has to succeed**, and what it printed. -/
def run (number : Nat) (stage : Stage) (args : List String) (fed : Option String := none) :
    Run Workshop String := do
  let run ← tool.launch host number stage args fed
  let stdout := Text.Utf8.decodeLossy run.stdout
  if run.succeeded then
    return stdout
  else
    Run.fail (.stage stage ("zokrates " ++ args.headD "" ++ ": "
      ++ complaint stdout (Text.Utf8.decodeLossy run.stderr)))

end Installation

end ProofToolchain.CommandLine
