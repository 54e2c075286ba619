import ProofToolchain.Entries
import ProofToolchain.Error
import ProofToolchain.Text.Utf8

/-!
# The host that runs the proof tool

The tool is a program of the host. All that is known of it is what comes of starting it in a
directory with some arguments and something to read (`Host.launch`): it is not there, it cannot be
started, it runs and cannot be fed or waited for, or it runs to its end, prints, says whether it
succeeded, and leaves the directory as it likes. No more than that is assumed anywhere, so whatever
holds of the engine holds for any tool.

The host's file system may fail as well, wherever it is used: when a directory is made, when a file
is written or read, and when a directory is removed.
-/

namespace ProofToolchain.CommandLine

/-- **The files of a directory**, by path. The files of its sub-directories are there with the way
to them. -/
abbrev Directory := Entries Bytes

/-- **One start of the tool.** -/
structure Invocation where
  /-- The program that is started. -/
  binary : String
  /-- Its arguments. -/
  args : List String
  /-- The text fed to it, if any is. -/
  fed : Option String
  /-- The files it finds in its working directory. -/
  files : Directory
  deriving DecidableEq, Repr

/-- **What a run of the tool leaves behind.** -/
structure ToolRun where
  /-- Everything it printed. -/
  stdout : Bytes
  /-- Everything it complained of. -/
  stderr : Bytes
  /-- Whether it said that it succeeded. -/
  succeeded : Bool
  /-- The files in its working directory now. -/
  files : Directory
  deriving DecidableEq, Repr

/-- **What comes of starting the tool.** A tool that cannot be fed or waited for may still run, and
`files` are those in its working directory when it is left to itself. -/
inductive Launch where
  /-- There is no such program. -/
  | notFound
  /-- The program cannot be started. -/
  | refused (detail : String)
  /-- The program runs, and does not take what it is fed. -/
  | unfed (detail : String) (files : Directory)
  /-- The program runs, and nothing is heard of its end. -/
  | lost (detail : String) (files : Directory)
  /-- The program ran. -/
  | ran (run : ToolRun)
  deriving DecidableEq, Repr

/-- **The host.** By default its file system does not fail. -/
structure Host where
  /-- The path of a scratch directory, by its number. -/
  scratchPath : Nat → String
  /-- What comes of starting the tool. -/
  launch : Invocation → Launch
  /-- Whether a program is found that can be started. -/
  finds : (binary : String) → Bool
  /-- Why the directory of a number cannot be made, if it cannot. -/
  makeFailure? : (number : Nat) → Option HostError := fun _ => none
  /-- Why a file cannot be written to a directory, if it cannot. -/
  writeFailure? : Directory → (name : String) → Bytes → Option HostError := fun _ _ _ => none
  /-- Why a file of a directory cannot be read, if it cannot. -/
  readFailure? : Directory → (name : String) → Option HostError := fun _ _ => none
  /-- What is left of a directory that is removed: nothing if the removal succeeds. Where it does
  not, that may be anything, since a tool that still runs may have been there meanwhile. -/
  leaves : (number : Nat) → Directory → Option Directory := fun _ _ => none

/-- Whether a text holds the character that ends texts on the host. -/
def holdsNul (text : String) : Bool :=
  text.toList.contains '\x00'

/-- Whether an invocation can be passed to the host at all. -/
def Invocation.isPassable (i : Invocation) : Bool :=
  !(holdsNul i.binary || i.args.any holdsNul)

/-- **What comes of an invocation.** One that cannot be passed on is refused before the program is
looked for. -/
def Host.start (host : Host) (i : Invocation) : Launch :=
  if i.isPassable then host.launch i else .refused "a text to be passed holds NUL"

end ProofToolchain.CommandLine
