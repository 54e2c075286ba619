import ProofToolchain.Text.Blank

/-!
# Errors

An error is a cause. Its wording (`Error.message`) and its classification (`Error.kind`) are
functions of it, so a program may match on causes and never has to take a message apart.

An error met while a field is extracted from a handle is wrapped once (`Error.extraction`) and
keeps its kind: `Error.kind` looks through the wrapping to the innermost cause.
-/

namespace ProofToolchain

/-- **A failure that a callback reports**: a message and the chain of causes behind it, outermost
first. -/
structure Failure where
  /-- What failed. -/
  message : String
  /-- Why, each cause followed by its own. -/
  causes : List String := []
  deriving DecidableEq, Repr

namespace Failure

/-- All messages of a failure, outermost first. -/
def chain (f : Failure) : List String :=
  f.message :: f.causes

/-- All messages of a failure in one line. -/
def summary (f : Failure) : String :=
  String.ofList (Text.join [':', ' '] (f.chain.map String.toList))

/-- A failure with its whole chain in its message and no causes of its own. -/
def flattened (f : Failure) : Failure := ⟨f.summary, []⟩

end Failure

/-- **The stages of a proof**, each with an engine entry point that can fail. -/
inductive Stage where
  /-- Compiling a program, imports included. -/
  | compile
  /-- Computing a witness. -/
  | witness
  /-- A circuit-specific or a universal setup. -/
  | setup
  /-- Generating a proof. -/
  | proof
  /-- Running the verifier; a rejected proof is no failure. -/
  | verify
  /-- Exporting a verifier contract. -/
  | exporting
  /-- Formatting a proof. -/
  | format
  deriving DecidableEq, Repr

/-- What a message about a failed stage starts with. -/
def Stage.complaint : Stage → String
  | .compile => "compilation failed"
  | .witness => "witness computation failed"
  | .setup => "setup failed"
  | .proof => "proof generation failed"
  | .verify => "verification failed to run"
  | .exporting => "verifier export failed"
  | .format => "proof formatting failed"

/-- **A failure of the host's file system**, by its kind. -/
inductive HostError where
  /-- No such file. -/
  | notFound
  /-- The file may not be accessed. -/
  | permissionDenied
  /-- The file does not hold text. -/
  | invalidData
  /-- Any other kind, by its name. -/
  | other (name : String)
  deriving DecidableEq, Repr

/-- The name of a kind of host failure. -/
def HostError.name : HostError → String
  | .notFound => "NotFound"
  | .permissionDenied => "PermissionDenied"
  | .invalidData => "InvalidData"
  | .other name => name

/-- **Everything that can go wrong** while the toolchain is driven. -/
inductive Error where
  /-- An engine entry point failed. -/
  | stage (stage : Stage) (text : String)
  /-- A handle was read after its release, or holds no such field. -/
  | resource (operation detail : String)
  /-- A field could not be extracted from a handle. -/
  | extraction (operation field : String) (source : Error)
  /-- A callback raised and ended the call. -/
  | callback (operation callback : String) (failure : Failure)
  /-- Arguments could not be encoded. -/
  | encoding
  /-- A required tool is not installed. -/
  | missingTool (name install : String)
  /-- A task did not come to its end. -/
  | unfinishedTask
  /-- The host's file system failed. -/
  | host (error : HostError)
  /-- A failure of something else. -/
  | other (failure : Failure)
  deriving DecidableEq, Repr

/-- **A coarse classification of errors.** -/
inductive ErrorKind where
  /-- A stage failed. -/
  | stage (stage : Stage)
  /-- A handle was misused. -/
  | resource
  /-- A callback raised. -/
  | callback
  /-- Arguments could not be encoded. -/
  | encoding
  /-- The tool is missing or the host failed. -/
  | environment
  deriving DecidableEq, Repr

namespace Error

/-- **The kind of an error.** A failed extraction has the kind of its cause. -/
def kind : Error → ErrorKind
  | .stage s _ => .stage s
  | .resource .. => .resource
  | .extraction _ _ source => source.kind
  | .callback .. => .callback
  | .encoding => .encoding
  | .missingTool .. => .environment
  | .unfinishedTask => .environment
  | .host _ => .environment
  | .other _ => .environment

/-- **The wording of an error.** -/
def message : Error → String
  | .stage s text => s.complaint ++ ": " ++ text
  | .resource operation detail => "invalid handle in " ++ operation ++ ": " ++ detail
  | .extraction operation field _ => operation ++ ": failed to extract `" ++ field ++ "`"
  | .callback operation name _ => operation ++ ": " ++ name ++ " callback failed"
  | .encoding => "failed to encode arguments"
  | .missingTool name install =>
    "required tool '" ++ name ++ "' not found — install: " ++ install
  | .unfinishedTask => "engine task did not complete"
  | .host error => error.name
  | .other failure => failure.message

end Error

end ProofToolchain
