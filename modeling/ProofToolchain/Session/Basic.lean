import ProofToolchain.Provider
import ProofToolchain.Session.Held

/-!
# Sessions

A session is a sequence of commands to providers that share one engine. The first provider is
there from the start and others are derived from it, each with options of its own that never
change. Commands may also open handles and keep them in named slots, to read and release them at
will.

`Session.step` runs one command and `Session.runAll` runs several. Each command comes with the
engine as it is at that time: the state of an engine is part of the session, but the world that
the engine drives may be another one at every command.
-/

namespace ProofToolchain

variable {σ κ ω : Type}

/-! ## What commands do to an engine -/

namespace Engine

/-- **What an operation does** when it is reached on a route through a provider. -/
def perform (engine : Engine σ κ ω) (options : ProviderOptions) (route : Route) :
    Operation → StateM σ (Watched String Reply) :=
  let p : Provider σ κ ω := ⟨engine, route.options options⟩
  fun
  | .compile source call =>
    Run.asCall (Reply.artifact <$> engine.compileProgram source call (route.bound options))
  | .computeWitness input args call => do
    let call ← p.computeWitness input args call
    return ⟨call.trace, call.outcome.map .witness⟩
  | .setup program entropy => Run.asCall (Reply.keypair <$> p.setup program entropy)
  | .universalSetup size entropy => Run.asCall (Reply.blob <$> p.universalSetup size entropy)
  | .setupFromReference reference program =>
    Run.asCall (Reply.keypair <$> p.setupFromReference reference program)
  | .generateProof program witness provingKey entropy =>
    Run.asCall (Reply.blob <$> p.generateProof program witness provingKey entropy)
  | .verify verificationKey proof => Run.asCall (Reply.verdict <$> p.verify verificationKey proof)
  | .exportVerifier verificationKey => Run.asCall (Reply.text <$> p.exportVerifier verificationKey)
  | .formatProof proof => Run.asCall (Reply.json <$> p.formatProof proof)

/-- **A call of the engine itself**, which leaves its handle to the caller. -/
def openHandle (engine : Engine σ κ ω) (options : ProviderOptions) :
    Opening → StateM σ (Watched String (AnyHandle κ ω))
  | .compile source call => do
    let request := call.request (some options)
    let call ← engine.compile ⟨request.location, source⟩ request.resolver request.flags
      request.curve
    return ⟨[], call.outcome.map .compiled⟩
  | .computeWitness input args call => do
    let request := call.request
    let call ← engine.computeWitness input args request.snarkjs request.logger.listener
    return ⟨call.trace, call.outcome.map .computed⟩

end Engine

/-! ## The session -/

/-- **A session**, between two commands. -/
structure Session (σ κ ω : Type) where
  /-- The state of the engine. -/
  state : σ
  /-- The options of the providers, by number. -/
  providers : List ProviderOptions := [{}]
  /-- The slots that hold a handle. -/
  slots : List (String × Held κ ω) := []

namespace Session

/-- The handle in a slot. -/
def held? (s : Session σ κ ω) (slot : String) : Option (Held κ ω) :=
  s.slots.lookup slot

/-- The session with a slot empty. -/
def emptied (s : Session σ κ ω) (slot : String) : Session σ κ ω :=
  { s with slots := s.slots.filter (·.1 != slot) }

/-- The session with a handle in a slot. -/
def filled (s : Session σ κ ω) (slot : String) (held : Held κ ω) : Session σ κ ω :=
  { s with slots := (slot, held) :: (s.emptied slot).slots }

/-- The session after something was done to the engine. -/
def run {α : Type} (s : Session σ κ ω) (action : StateM σ α) : α × Session σ κ ω :=
  let (a, state) := action s.state
  (a, { s with state })

/-- The session with one more provider, and its number. -/
def derive (s : Session σ κ ω) (options : ProviderOptions) : Report × Session σ κ ω :=
  (⟨.ok (.provider s.providers.length), []⟩, { s with providers := s.providers ++ [options] })

/-- **A handle is opened.** When that succeeds, what the slot held before leaves it; a call that
fails leaves the slot as it is. -/
def hold (engine : Engine σ κ ω) (s : Session σ κ ω) (options : ProviderOptions) (slot : String)
    (scope : Option String) (opening : Opening) : Report × Session σ κ ω :=
  let (call, s) := s.run (engine.openHandle options opening)
  match call.outcome with
  | .error stop => (⟨.error (.stopped stop), call.trace⟩, s)
  | .ok handle =>
    let s := match s.held? slot with
      | some held => (s.run (engine.letGo held)).2
      | none => s
    (⟨.ok .done, call.trace⟩, s.filled slot (.new scope handle))

/-- **A handle is released.** A scope is used up by that, and a bare handle stays in its slot. -/
def release (engine : Engine σ κ ω) (s : Session σ κ ω) (slot : String) (held : Held κ ω) :
    Session σ κ ω :=
  match s.run (engine.release held) with
  | (some held, s) => s.filled slot held
  | (none, s) => s.emptied slot

/-- What is done with a provider, if there is one of that number. -/
def withProvider (s : Session σ κ ω) (on : Nat)
    (act : ProviderOptions → Report × Session σ κ ω) : Report × Session σ κ ω :=
  match s.providers[on]? with
  | some options => act options
  | none => (⟨.error .noProvider, []⟩, s)

/-- What is done with the handle in a slot, if there is one. -/
def withHeld (s : Session σ κ ω) (slot : String) (act : Held κ ω → Report × Session σ κ ω) :
    Report × Session σ κ ω :=
  match s.held? slot with
  | some held => act held
  | none => (⟨.error .emptySlot, []⟩, s)

/-- **An operation is run.** -/
def perform (engine : Engine σ κ ω) (s : Session σ κ ω) (options : ProviderOptions)
    (route : Route) (operation : Operation) : Report × Session σ κ ω :=
  let (call, s) := s.run (engine.perform options route operation)
  (.ofCall (if route = .task then call.inTask else call), s)

/-- **A field is read** off a handle. -/
def read (engine : Engine σ κ ω) (s : Session σ κ ω) (held : Held κ ω) (field : Field) :
    Report × Session σ κ ω :=
  match engine.readHeld? held field with
  | some reading =>
    let (call, s) := s.run (Run.asCall reading)
    (.ofCall call, s)
  | none => (⟨.error .noField, []⟩, s)

/-- **A slot is emptied**, its handle leaving it. -/
def drop (engine : Engine σ κ ω) (s : Session σ κ ω) (slot : String) (held : Held κ ω) :
    Session σ κ ω :=
  ((s.run (engine.letGo held)).2).emptied slot

/-- **One command**, given the engine as it is for this command. -/
def step (engine : Engine σ κ ω) (s : Session σ κ ω) : Command → Report × Session σ κ ω
  | .name => (⟨.ok (.text engine.name), []⟩, s)
  | .options on => s.withProvider on fun options => (⟨.ok (.options options), []⟩, s)
  | .clone on => s.withProvider on s.derive
  | .rebind on options => s.withProvider on fun _ => s.derive options
  | .perform on route operation =>
    s.withProvider on fun options => s.perform engine options route operation
  | .hold on slot scope opening =>
    s.withProvider on fun options => s.hold engine options slot scope opening
  | .read slot field => s.withHeld slot fun held => s.read engine held field
  | .release slot => s.withHeld slot fun held => (⟨.ok .done, []⟩, s.release engine slot held)
  | .drop slot => s.withHeld slot fun held => (⟨.ok .done, []⟩, s.drop engine slot held)

/-- **Commands one after another**, each with the engine as it is for that command. -/
def runAll (s : Session σ κ ω) : List (Engine σ κ ω × Command) → List Report × Session σ κ ω
  | [] => ([], s)
  | (engine, command) :: rest =>
    let (report, s) := s.step engine command
    let (reports, s) := s.runAll rest
    (report :: reports, s)

end Session

end ProofToolchain
