import ProofToolchain.Text.Blank

/-!
# The ledger of handles

Every handle that is issued gets a record, and its place in the ledger is its number for good.
Reading and releasing a handle are noted in its record and nowhere else, so the record of a
handle tells its own history however the uses of other handles are mixed in. A number that was
not issued has no record, and noting something under it changes nothing.

`Ledger.allReleasedOnce` asks what a careful user of handles makes true: each handle was released
exactly once and not read after that.

The counters of a record are machine words and start anew when they run over. A handle that is
released as often as there are words looks as if it had not been released at all.
-/

namespace ProofToolchain.Scripted

/-- **The history of one handle.** -/
structure HandleRecord where
  /-- The operation that issued the handle. -/
  kind : String
  /-- Counts the releases. -/
  releaseCounter : UInt32 := 0
  /-- The fields that were read, in order. -/
  extractions : List String := []
  /-- Counts the fields that were read while the other counter was not zero. -/
  lateCounter : UInt32 := 0
  deriving DecidableEq, Repr

namespace HandleRecord

/-- How often the handle was released, as far as the counter tells. -/
def releases (r : HandleRecord) : Nat := r.releaseCounter.toNat

/-- How many fields were read after the first release, as far as the counters tell. -/
def extractedAfterRelease (r : HandleRecord) : Nat := r.lateCounter.toNat

/-- The record with one more field read. -/
def extracted (r : HandleRecord) (field : String) : HandleRecord :=
  { r with
    extractions := r.extractions ++ [field]
    lateCounter := if r.releaseCounter > 0 then r.lateCounter + 1 else r.lateCounter }

/-- The record with one more release. -/
def released (r : HandleRecord) : HandleRecord :=
  { r with releaseCounter := r.releaseCounter + 1 }

/-- Whether a handle was released once and not read after that. -/
def isReleasedOnce (r : HandleRecord) : Bool :=
  r.releases == 1 && r.extractedAfterRelease == 0

end HandleRecord

/-- **The ledger**: a record for each handle, by number. -/
structure Ledger where
  /-- The records, in the order in which the handles were issued. -/
  records : List HandleRecord := []
  deriving DecidableEq, Repr

namespace Ledger

/-- The number of the next handle, which is how many were issued. -/
def issued (l : Ledger) : Nat := l.records.length

/-- The ledger with one more handle. -/
def issue (l : Ledger) (kind : String) : Ledger := ⟨l.records ++ [{ kind := kind }]⟩

/-- The ledger with a reading noted. -/
def noteExtraction (l : Ledger) (number : Nat) (field : String) : Ledger :=
  ⟨l.records.modify number (·.extracted field)⟩

/-- The ledger with a release noted. -/
def noteRelease (l : Ledger) (number : Nat) : Ledger :=
  ⟨l.records.modify number (·.released)⟩

/-- **Whether every handle was released once** and never read after that. -/
def allReleasedOnce (l : Ledger) : Bool :=
  l.records.all (·.isReleasedOnce)

/-! ## One record at a time -/

@[simp] theorem issued_issue (l : Ledger) (kind : String) :
    (l.issue kind).issued = l.issued + 1 := by
  simp [issued, issue]

@[simp] theorem issued_noteExtraction (l : Ledger) (number : Nat) (field : String) :
    (l.noteExtraction number field).issued = l.issued := by
  simp [issued, noteExtraction]

@[simp] theorem issued_noteRelease (l : Ledger) (number : Nat) :
    (l.noteRelease number).issued = l.issued := by
  simp [issued, noteRelease]

/-- Issuing a handle adds its record and keeps all others. -/
theorem getElem?_issue (l : Ledger) (kind : String) (number : Nat) :
    (l.issue kind).records[number]?
      = if number = l.issued then some { kind := kind } else l.records[number]? := by
  by_cases h : number = l.issued
  · simp [issue, issued, h]
  · rw [if_neg h]
    simp only [issue, issued] at h ⊢
    by_cases hlt : number < l.records.length
    · rw [List.getElem?_append_left hlt]
    · rw [List.getElem?_eq_none (by simp; omega), List.getElem?_eq_none (by omega)]

/-- A reading touches the record of its handle only. -/
theorem getElem?_noteExtraction (l : Ledger) (number other : Nat) (field : String) :
    (l.noteExtraction number field).records[other]?
      = if number = other then l.records[other]?.map (·.extracted field)
        else l.records[other]? := by
  simp only [noteExtraction, List.getElem?_modify]
  split <;> simp_all

/-- A release touches the record of its handle only. -/
theorem getElem?_noteRelease (l : Ledger) (number other : Nat) :
    (l.noteRelease number).records[other]?
      = if number = other then l.records[other]?.map (·.released) else l.records[other]? := by
  simp only [noteRelease, List.getElem?_modify]
  split <;> simp_all

end Ledger

end ProofToolchain.Scripted
