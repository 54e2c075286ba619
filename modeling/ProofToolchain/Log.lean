/-!
# Log sinks

A program may log lines while its witness is computed. The engine hands each line to a listener, in
order, and a listener may do anything to the engine before the next line, or break the computation
off (`Listener.hear`). The loggers that callers choose do nothing to the engine. What a logger does
with the lines it accepts is a matter of its sink, and shows in a journal: lines are collected,
printed or recorded as events.
-/

namespace ProofToolchain

/-- **Where log lines go.** -/
inductive Sink where
  /-- Lines are kept in memory. -/
  | collecting
  /-- Lines are printed, which is the default. -/
  | printing
  /-- Lines are recorded as events. -/
  | recording
  deriving DecidableEq, Repr

/-- An event of the recording sink. -/
structure LogEvent where
  /-- How important the event is. -/
  level : String
  /-- What the event is about. -/
  target : String
  /-- The line that was logged. -/
  message : String
  deriving DecidableEq, Repr

/-- The event that a log line is recorded as. -/
def LogEvent.ofLine (line : String) : LogEvent :=
  ⟨"INFO", "zk_provider::witness", line⟩

/-- **What the sinks have received.** -/
structure Journal where
  /-- The lines that were collected. -/
  lines : List String := []
  /-- The text that was printed. -/
  printed : String := ""
  /-- The events that were recorded. -/
  events : List LogEvent := []
  deriving DecidableEq, Repr

/-- **A line is handed to a sink.** -/
def Journal.log (j : Journal) (sink : Sink) (line : String) : Journal :=
  match sink with
  | .collecting => { j with lines := j.lines ++ [line] }
  | .printing => { j with printed := j.printed ++ line ++ "\n" }
  | .recording => { j with events := j.events ++ [.ofLine line] }

/-- Lines are handed to a sink one after another. -/
def Journal.logAll (j : Journal) (sink : Sink) (lines : List String) : Journal :=
  lines.foldl (fun j line => j.log sink line) j

/-! ## Listeners -/

/-- **A listener** to an engine with states `σ`. -/
structure Listener (σ : Type) where
  /-- What is done at a line, given the lines before it, and whether the line is accepted. A
  listener that does not accept a line breaks off. -/
  hear : (seen : List String) → (line : String) → StateM σ Bool

/-- **Lines are handed to a listener** up to the first one at which it breaks off. What comes of it
are the lines it accepted, and whether it came to the end. -/
def Listener.deliver {σ : Type} (listener : Listener σ) (seen : List String) :
    List String → StateM σ (List String × Bool)
  | [] => return (seen, true)
  | line :: rest => do
    if ← listener.hear seen line then listener.deliver (seen ++ [line]) rest
    else return (seen, false)

/-! ## Loggers -/

/-- **A logger**: a sink, and a callback that may break off at a line. -/
structure Logger where
  /-- Where accepted lines go. -/
  sink : Sink := .printing
  /-- Whether a line is accepted, given the lines accepted before it. A callback that does not
  accept a line breaks off. -/
  accepts : List String → String → Bool := fun _ _ => true

namespace Logger

/-- A logger that never breaks off. -/
def quiet (sink : Sink) : Logger := { sink := sink }

/-- The logger that breaks off at every line. -/
def breaking : Logger := { accepts := fun _ _ => false }

/-- A logger as a listener, which leaves the engine alone. -/
def listener {σ : Type} (logger : Logger) : Listener σ :=
  ⟨fun seen line => return logger.accepts seen line⟩

/-- **The lines a logger accepts** of those it is handed, up to the first one at which it breaks
off, and whether it came to the end. -/
def deliver (logger : Logger) (seen : List String) : List String → List String × Bool
  | [] => (seen, true)
  | line :: rest =>
    if logger.accepts seen line then logger.deliver (seen ++ [line]) rest else (seen, false)

/-- What a logger makes of some lines is what it makes of them as a listener. -/
theorem deliver_listener {σ : Type} (logger : Logger) (seen lines : List String) (s : σ) :
    (logger.listener : Listener σ).deliver seen lines s = (logger.deliver seen lines, s) := by
  induction lines generalizing seen with
  | nil => rfl
  | cons line lines ih =>
    rw [Listener.deliver, deliver]
    show (if logger.accepts seen line = true then _ else _ : StateM σ _) s = _
    split
    · exact ih _
    · rfl

end Logger

end ProofToolchain
