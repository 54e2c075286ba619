import ProofToolchain.Proofs.Pipeline
import ProofToolchain.Scripted.Engine

/-!
# Reading a scripted handle

An operation that is given a handle reads some fields off it one after another and stops at the
first that is broken. What it asks for and what it reads are lists of names
(`Script.fieldsRead`), and the ledger shows the second: a reading is noted before it is known
whether it succeeds, so the broken field is the last one noted.

Compilations and witness computations read two fields always and a third one on request. They
differ in names and values only, and `Script.run_readFields` is the one account of both.
-/

namespace ProofToolchain.Scripted

/-! ## One handle in the ledger -/

/-- The ledger with several readings of one handle noted, one after another. -/
def Ledger.noteAll (l : Ledger) (number : Nat) (fields : List String) : Ledger :=
  fields.foldl (fun l field => l.noteExtraction number field) l

@[simp] theorem Ledger.noteAll_nil (l : Ledger) (number : Nat) : l.noteAll number [] = l := rfl

@[simp] theorem Ledger.noteAll_cons (l : Ledger) (number : Nat) (field : String)
    (fields : List String) :
    l.noteAll number (field :: fields) = (l.noteExtraction number field).noteAll number fields :=
  rfl

/-- The record of a handle that was read, then released once and left alone. -/
def HandleRecord.spent (kind : String) (extractions : List String) : HandleRecord where
  kind := kind
  releaseCounter := 1
  extractions := extractions

/-- What is noted of the handle issued last changes the last record. -/
theorem Ledger.modify_last (records : List HandleRecord) (r : HandleRecord)
    (f : HandleRecord → HandleRecord) :
    (records ++ [r]).modify records.length f = records ++ [f r] := by
  rw [List.modify_eq_take_cons_drop (by simp)]
  simp

/-- Readings of a handle that was not released add up in its record. -/
theorem Ledger.records_noteAll (records : List HandleRecord) (r : HandleRecord)
    (h : r.releaseCounter = 0) (fields : List String) :
    (Ledger.noteAll ⟨records ++ [r]⟩ records.length fields).records
      = records ++ [{ r with extractions := r.extractions ++ fields }] := by
  induction fields generalizing r with
  | nil => simp
  | cons field fields ih =>
    -- the handle was issued last, so each note goes to the last record
    rw [noteAll_cons, noteExtraction, modify_last, ih (r.extracted field) h]
    simp [HandleRecord.extracted, h]

/-- **Issued, read and released**: the ledger has one more record, which says just that. -/
theorem Ledger.records_spent (l : Ledger) (kind : String) (fields : List String) :
    (((l.issue kind).noteAll l.issued fields).noteRelease l.issued).records
      = l.records ++ [.spent kind fields] := by
  have hread := records_noteAll l.records { kind := kind } rfl fields
  rw [noteRelease, issue, issued, hread, modify_last]
  simp [HandleRecord.released, HandleRecord.spent]

/-! ## The fields that are read -/

/-- **The fields that are read** of those that are wanted: up to and including the first one that
is broken. -/
def Script.fieldsRead (script : Script) : List String → List String
  | [] => []
  | field :: rest =>
    if script.brokenField = some field then [field] else field :: script.fieldsRead rest

/-- What is read is wanted, and read in the order in which it is wanted. -/
theorem Script.isPrefix_fieldsRead (script : Script) (wanted : List String) :
    script.fieldsRead wanted <+: wanted := by
  induction wanted with
  | nil => exact List.prefix_rfl
  | cons field rest ih =>
    unfold fieldsRead
    split
    · exact ⟨rest, rfl⟩
    · exact List.prefix_cons_inj field |>.2 ih

/-- **Where no wanted field is broken, all are read.** -/
theorem Script.fieldsRead_of_forall_ne {script : Script} {wanted : List String}
    (h : ∀ field ∈ wanted, script.brokenField ≠ some field) :
    script.fieldsRead wanted = wanted := by
  induction wanted with
  | nil => rfl
  | cons field rest ih =>
    rw [fieldsRead, if_neg (h field List.mem_cons_self),
      ih fun f hf => h f (List.mem_cons_of_mem field hf)]

/-- **A broken field is the last one read.** -/
theorem Script.fieldsRead_of_broken {script : Script} {field : String} {before after : List String}
    (h : script.brokenField = some field) (hfirst : field ∉ before) :
    script.fieldsRead (before ++ field :: after) = before ++ [field] := by
  induction before with
  | nil => rw [List.nil_append, fieldsRead, if_pos h, List.nil_append]
  | cons f before ih =>
    have hne : script.brokenField ≠ some f := fun hf =>
      hfirst (Option.some.inj (h.symm.trans hf) ▸ List.mem_cons_self)
    rw [List.cons_append, fieldsRead, if_neg hne,
      ih fun hf => hfirst (List.mem_cons_of_mem f hf), List.cons_append]

/-! ## Reading them off a handle -/

namespace Script

variable {α β γ δ : Type}

/-- What is told of a field that cannot be read. -/
def refusal (operation field : String) : Error :=
  .extraction operation field (.resource operation ("`" ++ field ++ "` unavailable"))

/-- **One reading** is noted, and it yields the value or the refusal. -/
theorem run_extracting_read (script : Script) (operation field : String) (value : α) (h : Handle)
    (s : State) :
    (Run.extracting operation field (script.read operation field value h)).run s
      = (if script.brokenField = some field then .error (.failed (refusal operation field))
          else .ok value,
        { s with ledger := s.ledger.noteExtraction h.number field }) := by
  -- the note is made before the field is looked at
  have hnote : (liftM (noteExtraction h field) : Run State Unit).run s
      = (.ok (), { s with ledger := s.ledger.noteExtraction h.number field }) := rfl
  by_cases hb : script.brokenField = some field
  · rw [if_pos hb]
    refine Run.run_extracting_of_failed (e := .resource operation _) ?_ operation field
    rw [read, Run.run_bind_of_ok hnote, if_pos hb]
    rfl
  · rw [if_neg hb]
    refine Run.run_extracting_of_ok ?_ operation field
    rw [read, Run.run_bind_of_ok hnote, if_neg hb]
    rfl

/-- A run that reads a field goes on with its value, unless the field is broken. -/
theorem run_extracting_read_bind (script : Script) (operation field : String) (value : α)
    (h : Handle) (next : α → Run State β) (s : State) :
    (Run.extracting operation field (script.read operation field value h) >>= next).run s
      = if script.brokenField = some field then
          (.error (.failed (refusal operation field)),
            { s with ledger := s.ledger.noteExtraction h.number field })
        else (next value).run { s with ledger := s.ledger.noteExtraction h.number field } := by
  have hread := run_extracting_read script operation field value h s
  split
  · next hb =>
    rw [if_pos hb] at hread
    exact Run.run_bind_of_error hread next
  · next hb =>
    rw [if_neg hb] at hread
    exact Run.run_bind_of_ok hread next

/-- The fields that an operation wants: two always, and a third one on request. -/
def wantedFields (first second third : String) (snarkjs : Bool) : List String :=
  first :: second :: if snarkjs then [third] else []

/-- What comes of a reading of several fields: the refusal of the first broken one, or a value. -/
def readOutcome (script : Script) (operation : String) (wanted : List String) (value : α) :
    Except Stop α :=
  match wanted.find? (script.brokenField = some ·) with
  | some field => .error (.failed (refusal operation field))
  | none => .ok value

/-- The run that asks for nothing more. -/
theorem run_readFields_nil (script : Script) (operation : String) (value : α) (h : Handle)
    (s : State) :
    (pure value : Run State α).run s
      = (script.readOutcome operation [] value,
        { s with ledger := s.ledger.noteAll h.number (script.fieldsRead []) }) := rfl

/-- **A field and then the others.** If the rest of a run reads the other wanted fields, the run
reads all of them. -/
theorem run_readFields_cons {script : Script} {operation field : String} {wanted : List String}
    {a : α} {h : Handle} {next : α → Run State β} {value : β}
    (ih : ∀ s : State, (next a).run s
      = (script.readOutcome operation wanted value,
        { s with ledger := s.ledger.noteAll h.number (script.fieldsRead wanted) }))
    (s : State) :
    (Run.extracting operation field (script.read operation field a h) >>= next).run s
      = (script.readOutcome operation (field :: wanted) value,
        { s with ledger := s.ledger.noteAll h.number (script.fieldsRead (field :: wanted)) }) := by
  rw [run_extracting_read_bind, fieldsRead]
  split
  · next hb => simp [readOutcome, hb]
  · next hb =>
    rw [ih]
    simp [readOutcome, hb]

/-- **Two readings and a third on request.** The run ends with the refusal of the broken field or
with all values, and the ledger shows the fields that were read. -/
theorem run_readFields (script : Script) (operation first second third : String) (a : α) (b : β)
    (c : γ) (result : α → β → Option γ → δ) (snarkjs : Bool) (h : Handle) (s : State) :
    (do
      let a ← Run.extracting operation first (script.read operation first a h)
      let b ← Run.extracting operation second (script.read operation second b h)
      if snarkjs then
        let c ← Run.extracting operation third (script.read operation third c h)
        return result a b (some c)
      else
        return result a b none : Run State δ).run s
      = (script.readOutcome operation (wantedFields first second third snarkjs)
          (result a b (if snarkjs then some c else none)),
        { s with
          ledger := s.ledger.noteAll h.number
            (script.fieldsRead (wantedFields first second third snarkjs)) }) := by
  refine run_readFields_cons ?_ s
  intro s
  refine run_readFields_cons ?_ s
  intro s
  -- the two fields that are always wanted are read, and the request decides about the third
  cases snarkjs with
  | false => exact run_readFields_nil script operation (result a b none) h s
  | true =>
    simp only [if_true]
    refine run_readFields_cons ?_ s
    exact run_readFields_nil script operation (result a b (some c)) h

/-- The fields that a compilation wants. -/
def compileFields (snarkjs : Bool) : List String :=
  wantedFields "program" "abi" "snarkjs_program" snarkjs

/-- The fields that a witness computation wants. -/
def witnessFields (snarkjs : Bool) : List String :=
  wantedFields "witness" "output" "snarkjs_witness" snarkjs

/-- **The reading of a compilation.** -/
theorem run_compiledFields (script : Script) (h : Handle) (snarkjs : Bool) (s : State) :
    (script.engine.compiledFields h snarkjs).run s
      = (script.readOutcome compileOperation (compileFields snarkjs)
          ⟨script.program, script.abi, if snarkjs then some script.snarkjsProgram else none⟩,
        { s with
          ledger := s.ledger.noteAll h.number (script.fieldsRead (compileFields snarkjs)) }) :=
  script.run_readFields compileOperation "program" "abi" "snarkjs_program" script.program
    script.abi script.snarkjsProgram CompileArtifact.mk snarkjs h s

/-- **The reading of a witness computation.** -/
theorem run_computedFields (script : Script) (h : Handle) (snarkjs : Bool) (s : State) :
    (script.engine.computedFields h snarkjs).run s
      = (script.readOutcome witnessOperation (witnessFields snarkjs)
          ⟨script.witness, script.output, if snarkjs then some script.snarkjsWitness else none⟩,
        { s with
          ledger := s.ledger.noteAll h.number (script.fieldsRead (witnessFields snarkjs)) }) :=
  script.run_readFields witnessOperation "witness" "output" "snarkjs_witness" script.witness
    script.output script.snarkjsWitness WitnessResult.mk snarkjs h s

end Script

end ProofToolchain.Scripted
