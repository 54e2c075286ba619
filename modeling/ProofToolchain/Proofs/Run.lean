import ProofToolchain.Run

/-!
# What a run does to its state

A run is opened one action at a time: what its first action yields decides whether the rest is run
(`Run.run_bind_of_ok`, `Run.run_bind_of_error`). Most actions of an engine leave most of its state
alone. That is a property which sequences inherit from their actions (`Run.Keeps`), whatever
comes of them, so it is shown of each action once and of no program. The ways in which a run may be
stopped are inherited in the same manner (`Run.StopsOnly`), and so is what it may yield
(`Run.YieldsOnly`).
-/

namespace ProofToolchain.Run

variable {σ τ α β : Type}

/-! ## One action at a time -/

theorem run_get (s : σ) : (get : Run σ σ).run s = (.ok s, s) := rfl

/-- After an action that yields a result the rest is run in the state it left. -/
theorem run_bind_of_ok {x : Run σ α} {s s' : σ} {a : α} (h : x.run s = (.ok a, s'))
    (f : α → Run σ β) : (x >>= f).run s = (f a).run s' := by
  have h' : x s = (.ok a, s') := h
  show (x >>= f) s = _
  simp only [bind, ExceptT.bind, ExceptT.mk, StateT.bind, h', ExceptT.bindCont]
  rfl

/-- After an action that is stopped nothing is run. -/
theorem run_bind_of_error {x : Run σ α} {s s' : σ} {e : Stop} (h : x.run s = (.error e, s'))
    (f : α → Run σ β) : (x >>= f).run s = (.error e, s') := by
  have h' : x s = (.error e, s') := h
  show (x >>= f) s = _
  simp only [bind, ExceptT.bind, ExceptT.mk, StateT.bind, h', ExceptT.bindCont]
  rfl

/-- The result of a run is changed and its state is not. -/
theorem run_map (f : α → β) (x : Run σ α) (s : σ) :
    (f <$> x).run s = ((x.run s).1.map f, (x.run s).2) := by
  cases h : x.run s with
  | mk r s' =>
    cases r with
    | ok a => exact run_bind_of_ok h fun a => pure (f a)
    | error e => exact run_bind_of_error h fun a => pure (f a)

/-- A call without a callback leaves the state as its run does, whatever is made of the result. -/
theorem asCall_map_snd (f : α → β) (x : Run σ α) (s : σ) :
    (asCall (f <$> x) s : Watched τ β × σ).2 = (x.run s).2 :=
  congrArg Prod.snd (run_map f x s)

/-- A reading that yields a value is the value. -/
theorem run_extracting_of_ok {read : Run σ α} {s s' : σ} {a : α} (h : read.run s = (.ok a, s'))
    (operation field : String) : (extracting operation field read).run s = (.ok a, s') := by
  have h' : read s = (.ok a, s') := h
  show (extracting operation field read) s = _
  simp only [extracting, ExceptT.run, ExceptT.mk, bind, StateT.bind, h']
  rfl

/-- A reading that fails says which field of which operation was read. -/
theorem run_extracting_of_failed {read : Run σ α} {s s' : σ} {e : Error}
    (h : read.run s = (.error (.failed e), s')) (operation field : String) :
    (extracting operation field read).run s
      = (.error (.failed (.extraction operation field e)), s') := by
  have h' : read s = (.error (.failed e), s') := h
  show (extracting operation field read) s = _
  simp only [extracting, ExceptT.run, ExceptT.mk, bind, StateT.bind, h']
  rfl

/-- A reading that is broken off stays broken off. -/
theorem run_extracting_of_breaksOff {read : Run σ α} {s s' : σ} {stop : Stop}
    (h : read.run s = (.error stop, s')) (hstop : stop.breaksOff = true)
    (operation field : String) :
    (extracting operation field read).run s = (.error stop, s') := by
  have h' : read s = (.error stop, s') := h
  show (extracting operation field read) s = _
  simp only [extracting, ExceptT.run, ExceptT.mk, bind, StateT.bind, h']
  cases stop with
  | failed e => cases hstop
  | crashed | endless => rfl

/-! ## What is kept -/

/-- **A run keeps a part of the state**, whatever comes of it. -/
def Keeps (view : σ → τ) (x : Run σ α) : Prop :=
  ∀ s, view (x.run s).2 = view s

variable {view : σ → τ}

theorem Keeps.pure (a : α) : Keeps view (pure a : Run σ α) := fun _ => rfl

theorem Keeps.fail (e : Error) : Keeps view (fail e : Run σ α) := fun _ => rfl

/-- An action without a result keeps what its change of the state keeps. -/
theorem Keeps.modify {change : σ → σ} (h : ∀ s, view (change s) = view s) :
    Keeps view (liftM (modify change : StateM σ Unit) : Run σ Unit) := h

theorem Keeps.bind {x : Run σ α} {f : α → Run σ β} (hx : Keeps view x)
    (hf : ∀ a, Keeps view (f a)) : Keeps view (x >>= f) := by
  intro s
  have hs := hx s
  cases h : x.run s with
  | mk r s' =>
    rw [h] at hs
    cases r with
    | ok a => rw [run_bind_of_ok h, hf a s', hs]
    | error e => rw [run_bind_of_error h, hs]

theorem Keeps.map {x : Run σ α} (hx : Keeps view x) (f : α → β) : Keeps view (f <$> x) := by
  intro s
  rw [run_map, hx s]

/-- A reading keeps what it kept, whatever it says of a failure. -/
theorem Keeps.extracting {read : Run σ α} (h : Keeps view read) (operation field : String) :
    Keeps view (extracting operation field read) := by
  intro s
  have hs := h s
  cases hread : read.run s with
  | mk r s' =>
    rw [hread] at hs
    cases r with
    | ok a => rw [run_extracting_of_ok hread, hs]
    | error e =>
      cases e with
      | failed e => rw [run_extracting_of_failed hread, hs]
      | crashed | endless => rw [run_extracting_of_breaksOff hread rfl, hs]

/-- **A rest that keeps a part of the state** leaves it as the first action did. -/
theorem view_run_bind {x : Run σ α} {f : α → Run σ β} (hf : ∀ a, Keeps view (f a)) (s : σ) :
    view ((x >>= f).run s).2 = view (x.run s).2 := by
  cases h : x.run s with
  | mk r s' =>
    cases r with
    | ok a =>
      rw [run_bind_of_ok h]
      exact hf a s'
    | error e => rw [run_bind_of_error h]

/-- A rest that only looks at the state leaves it as the first action did. -/
theorem run_bind_snd_of_keeps {x : Run σ α} {f : α → Run σ β} (hf : ∀ a, Keeps id (f a)) (s : σ) :
    ((x >>= f).run s).2 = (x.run s).2 := by
  show id _ = id _
  exact view_run_bind hf s

/-! ## How a run may be stopped -/

/-- **A run is stopped only in ways that satisfy `P`**, if it is stopped at all. -/
def StopsOnly (P : Stop → Prop) (x : Run σ α) : Prop :=
  ∀ s stop, (x.run s).1 = .error stop → P stop

namespace StopsOnly

variable {P : Stop → Prop}

theorem pure (a : α) : StopsOnly P (pure a : Run σ α) := nofun

theorem fail {e : Error} (h : P (.failed e)) : StopsOnly P (fail e : Run σ α) := by
  intro s stop hstop
  cases hstop
  exact h

/-- An action on the state alone is never stopped. -/
theorem lift (x : StateM σ α) : StopsOnly P (liftM x : Run σ α) := nofun

/-- A computation without a state fails as it does. -/
theorem ofExcept {x : Except Error α} (h : ∀ e, x = .error e → P (.failed e)) :
    StopsOnly P (ofExcept x : Run σ α) := by
  cases x with
  | ok a => exact pure a
  | error e => exact fail (h e rfl)

theorem bind {x : Run σ α} {f : α → Run σ β} (hx : StopsOnly P x) (hf : ∀ a, StopsOnly P (f a)) :
    StopsOnly P (x >>= f) := by
  intro s stop hstop
  cases h : x.run s with
  | mk r s' =>
    cases r with
    | ok a =>
      rw [run_bind_of_ok h] at hstop
      exact hf a s' stop hstop
    | error e =>
      rw [run_bind_of_error h] at hstop
      cases hstop
      exact hx s stop (congrArg Prod.fst h)

/-- A reading is stopped as it was, but for saying which field was read. -/
theorem extracting {read : Run σ α} {operation field : String} (h : StopsOnly P read)
    (hextraction : ∀ e, P (.failed e) → P (.failed (.extraction operation field e))) :
    StopsOnly P (Run.extracting operation field read) := by
  intro s stop hstop
  cases hread : read.run s with
  | mk r s' =>
    cases r with
    | ok a =>
      rw [run_extracting_of_ok hread] at hstop
      cases hstop
    | error e =>
      have hP : P e := h s e (congrArg Prod.fst hread)
      cases e with
      | failed e =>
        rw [run_extracting_of_failed hread] at hstop
        cases hstop
        exact hextraction e hP
      | crashed | endless =>
        rw [run_extracting_of_breaksOff hread rfl] at hstop
        cases hstop
        exact hP

theorem map {x : Run σ α} (h : StopsOnly P x) (f : α → β) : StopsOnly P (f <$> x) := by
  intro s stop hstop
  rw [run_map] at hstop
  cases hx : (x.run s).1 with
  | ok a =>
    rw [hx] at hstop
    cases hstop
  | error e =>
    rw [hx] at hstop
    cases hstop
    exact h s stop hx

end StopsOnly

/-! ## What a run may yield -/

/-- **A run yields only results that satisfy `Q`**, if it yields one. -/
def YieldsOnly (Q : α → Prop) (x : Run σ α) : Prop :=
  ∀ s a, (x.run s).1 = .ok a → Q a

namespace YieldsOnly

variable {Q : α → Prop}

theorem pure {a : α} (h : Q a) : YieldsOnly Q (pure a : Run σ α) := by
  intro s b hb
  cases hb
  exact h

/-- The rest of a run decides what it yields, given what the first part may yield. -/
theorem andThen {P : β → Prop} {x : Run σ β} {f : β → Run σ α} (hx : YieldsOnly P x)
    (hf : ∀ b, P b → YieldsOnly Q (f b)) : YieldsOnly Q (x >>= f) := by
  intro s a ha
  cases h : x.run s with
  | mk r s' =>
    cases r with
    | ok b =>
      rw [run_bind_of_ok h] at ha
      exact hf b (hx s b (congrArg Prod.fst h)) s' a ha
    | error stop =>
      rw [run_bind_of_error h] at ha
      cases ha

/-- The rest of a run decides what it yields. -/
theorem bind {x : Run σ β} {f : β → Run σ α} (hf : ∀ b, YieldsOnly Q (f b)) :
    YieldsOnly Q (x >>= f) :=
  andThen (fun _ _ _ => trivial : YieldsOnly (fun _ => True) x) fun b _ => hf b

/-- A reading yields what it did, whatever its failures are called. -/
theorem extracting {read : Run σ α} (h : YieldsOnly Q read) (operation field : String) :
    YieldsOnly Q (Run.extracting operation field read) := by
  intro s a ha
  cases hread : read.run s with
  | mk r s' =>
    cases r with
    | ok b =>
      rw [run_extracting_of_ok hread] at ha
      exact h s a ((congrArg Prod.fst hread).trans ha)
    | error stop =>
      cases stop with
      | failed e =>
        rw [run_extracting_of_failed hread] at ha
        cases ha
      | crashed | endless =>
        rw [run_extracting_of_breaksOff hread rfl] at ha
        cases ha

end YieldsOnly

end ProofToolchain.Run
