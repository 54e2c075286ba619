import Mathlib.Data.List.Induction
import Mathlib.Data.List.TakeWhile
import ProofToolchain.Scripted.Engine

/-!
# The ledger keeps handles apart

Engines and tasks share one ledger, and their operations on it come in any order. Each of them holds
the ledger while it works, so what they do together is one sequence of operations. What the sequence
did to one handle is its **projection**: the uses of that handle after it was issued, whatever came
in between. The ledger is exactly the list of the projections, a record for each
(`records_foldl_apply`).

Uses before the issue are not among them: a number that is not issued yet has no record to note
anything in, and when it is issued its record is a new one. This is the one place where the order of
operations on different handles could have mattered.

A record counts in machine words. Its numbers are right as long as no counter runs over
(`Projection.IsCountable`), and the number of releases is right but for whole rounds of the counter
however often the handle is used.
-/

namespace ProofToolchain.Scripted

/-! ## Operations and uses -/

/-- **An operation on the ledger.** -/
inductive LedgerOperation where
  /-- A handle is issued. -/
  | issue (kind : String)
  /-- The reading of a field is noted under a number. -/
  | extraction (number : Nat) (field : String)
  /-- A release is noted under a number. -/
  | release (number : Nat)
  deriving DecidableEq, Repr

/-- **A use of one handle.** -/
inductive HandleUse where
  /-- A field is read. -/
  | extraction (field : String)
  /-- The handle is released. -/
  | release
  deriving DecidableEq, Repr

/-- The field that a use reads. -/
def HandleUse.field? : HandleUse → Option String
  | .extraction field => some field
  | .release => none

/-- The fields that are read, in order. -/
def fieldsOf (uses : List HandleUse) : List String := uses.filterMap (·.field?)

/-- The uses from the first release on. -/
def sinceRelease (uses : List HandleUse) : List HandleUse := uses.dropWhile (· != .release)

namespace LedgerOperation

/-- An operation is carried out by the engine, and may issue a handle. -/
def perform : LedgerOperation → StateM State (Option Handle)
  | .issue kind => some <$> Scripted.issue kind
  | .extraction number field => (fun _ => none) <$> noteExtraction ⟨number⟩ field
  | .release number => (fun _ => none) <$> Scripted.release ⟨number⟩

/-- **Operations are carried out one after another**, and the handles they issue are collected. -/
def performAll : List LedgerOperation → StateM State (List Handle)
  | [] => return []
  | operation :: rest => do
    let handle ← operation.perform
    let handles ← performAll rest
    return handle.toList ++ handles

/-- The handles that operations issue, from a new engine on. -/
def handlesOf (operations : List LedgerOperation) : List Handle :=
  ((performAll operations).run {}).1

/-- The ledger that operations leave, from a new engine on. -/
def ledgerAfter (operations : List LedgerOperation) : Ledger :=
  ((performAll operations).run {}).2.ledger

/-- Whether an operation issues a handle. -/
def isIssue : LedgerOperation → Bool
  | .issue _ => true
  | _ => false

/-- How many handles operations issue. -/
def issues (operations : List LedgerOperation) : Nat := operations.countP (·.isIssue)

/-- The number under which an operation notes something. -/
def number? : LedgerOperation → Option Nat
  | .issue _ => none
  | .extraction number _ => some number
  | .release number => some number

/-- The use that an operation makes of the handle with a number. -/
def use? (number : Nat) : LedgerOperation → Option HandleUse
  | .issue _ => none
  | .extraction n field => if n = number then some (.extraction field) else none
  | .release n => if n = number then some .release else none

/-- **The uses of the handle with a number** among some operations. -/
def usesOf (number : Nat) (operations : List LedgerOperation) : List HandleUse :=
  operations.filterMap (use? number)

end LedgerOperation

/-! ## Projections -/

/-- **What was done to one handle**: the operation that issued it, and its uses after that. -/
structure Projection where
  /-- The operation that issued the handle. -/
  kind : String
  /-- The uses of the handle since then. -/
  uses : List HandleUse
  deriving DecidableEq, Repr

/-- The record with one more use. -/
def HandleRecord.used (r : HandleRecord) : HandleUse → HandleRecord
  | .extraction field => r.extracted field
  | .release => r.released

/-- **The record of a handle** that was used in some way: its uses, noted one after another. -/
def Projection.record (p : Projection) : HandleRecord :=
  p.uses.foldl HandleRecord.used { kind := p.kind }

/-- **The counters of a record do not run over** at what was done to its handle. -/
structure Projection.IsCountable (p : Projection) : Prop where
  /-- The handle was released less often than there are words. -/
  releases : p.uses.count .release < UInt32.size
  /-- There are fewer fields than words that were read after the first release. -/
  readings : (fieldsOf (sinceRelease p.uses)).length < UInt32.size

/-- **A record counts right** what was done to its handle. -/
structure Projection.IsExact (p : Projection) : Prop where
  /-- It tells how often the handle was released. -/
  releases : p.record.releases = p.uses.count .release
  /-- It tells how many fields were read after the first release. -/
  extractedAfterRelease :
    p.record.extractedAfterRelease = (fieldsOf (sinceRelease p.uses)).length

/-- **A handle was released once and not read after that.** -/
def Projection.IsReleasedOnce (p : Projection) : Prop :=
  p.uses.count .release = 1
    ∧ ∀ before after, p.uses = before ++ .release :: after → ∀ field, .extraction field ∉ after

/-- **The projections of operations to the handles that they issue**, when `next` is the number of
the next handle. -/
def projections (next : Nat) : List LedgerOperation → List Projection
  | [] => []
  | .issue kind :: rest => ⟨kind, LedgerOperation.usesOf next rest⟩ :: projections (next + 1) rest
  | .extraction .. :: rest => projections next rest
  | .release _ :: rest => projections next rest

/-! ## One operation -/

namespace Ledger

/-- What an operation does to the ledger. -/
def apply (l : Ledger) : LedgerOperation → Ledger
  | .issue kind => l.issue kind
  | .extraction number field => l.noteExtraction number field
  | .release number => l.noteRelease number

/-- A note under a number that was not issued is lost. -/
theorem apply_of_le {l : Ledger} {operation : LedgerOperation} {number : Nat}
    (h : operation.number? = some number) (hnumber : l.issued ≤ number) :
    l.apply operation = l := by
  cases operation with
  | issue kind => cases h
  | extraction n field =>
    cases h
    exact congrArg Ledger.mk (List.modify_eq_self hnumber)
  | release n =>
    cases h
    exact congrArg Ledger.mk (List.modify_eq_self hnumber)

end Ledger

namespace LedgerOperation

theorem usesOf_cons (number : Nat) (operation : LedgerOperation) (rest : List LedgerOperation) :
    usesOf number (operation :: rest) = (operation.use? number).toList ++ usesOf number rest := by
  unfold usesOf
  rw [List.filterMap_cons]
  cases operation.use? number <;> rfl

/-- The engine carries the first operation out on its ledger, and issues the next handle if it is
asked for one. -/
theorem run_performAll_cons (operation : LedgerOperation) (rest : List LedgerOperation)
    (s : State) :
    (performAll (operation :: rest)).run s
      = let (handles, s') := (performAll rest).run { s with ledger := s.ledger.apply operation }
        (if operation.isIssue then ⟨s.ledger.issued⟩ :: handles else handles, s') := by
  cases operation <;> rfl

/-- **The engine carries operations out on its ledger**, and the handles it issues are numbered one
after another. -/
theorem run_performAll (operations : List LedgerOperation) (s : State) :
    (performAll operations).run s
      = ((List.range' s.ledger.issued (issues operations)).map Handle.mk,
          { s with ledger := operations.foldl Ledger.apply s.ledger }) := by
  induction operations generalizing s with
  | nil => rfl
  | cons operation rest ih =>
    rw [run_performAll_cons, ih]
    cases operation with
    | issue kind =>
      simp [issues, isIssue, Ledger.apply, List.range'_succ]
    | extraction number field => simp [issues, isIssue, Ledger.apply]
    | release number => simp [issues, isIssue, Ledger.apply]

theorem handlesOf_eq (operations : List LedgerOperation) :
    handlesOf operations = (List.range (issues operations)).map Handle.mk := by
  rw [handlesOf, run_performAll, List.range_eq_range']
  rfl

theorem ledgerAfter_eq (operations : List LedgerOperation) :
    ledgerAfter operations = operations.foldl Ledger.apply {} := by
  rw [ledgerAfter, run_performAll]

end LedgerOperation

/-! ## One record -/

namespace HandleRecord

variable (r : HandleRecord)

/-- A counter that is not at zero has counted something. -/
theorem releaseCounter_pos_iff : r.releaseCounter > 0 ↔ 0 < r.releases :=
  UInt32.lt_iff_toNat_lt

@[simp] theorem releases_extracted (field : String) : (r.extracted field).releases = r.releases :=
  rfl

/-- One more release is counted, and after the last word the counter starts anew. -/
theorem releases_released : r.released.releases = (r.releases + 1) % UInt32.size :=
  UInt32.toNat_add r.releaseCounter 1

@[simp] theorem extractedAfterRelease_released :
    r.released.extractedAfterRelease = r.extractedAfterRelease :=
  rfl

/-- A reading is counted after a release, as long as the counter of releases shows one. -/
theorem extractedAfterRelease_extracted (field : String) :
    (r.extracted field).extractedAfterRelease
      = if 0 < r.releases then (r.extractedAfterRelease + 1) % UInt32.size
        else r.extractedAfterRelease := by
  unfold extracted extractedAfterRelease
  simp only [releaseCounter_pos_iff]
  split
  · exact UInt32.toNat_add r.lateCounter 1
  · rfl

end HandleRecord

@[simp] theorem fieldsOf_append (uses more : List HandleUse) :
    fieldsOf (uses ++ more) = fieldsOf uses ++ fieldsOf more :=
  List.filterMap_append

@[simp] theorem fieldsOf_extraction (field : String) : fieldsOf [.extraction field] = [field] := rfl

@[simp] theorem fieldsOf_release : fieldsOf [.release] = [] := rfl

/-- A single use reads nothing after a release. -/
@[simp] theorem fieldsOf_sinceRelease_singleton (use : HandleUse) :
    fieldsOf (sinceRelease [use]) = [] := by
  cases use <;> rfl

theorem mem_fieldsOf {uses : List HandleUse} {field : String} :
    field ∈ fieldsOf uses ↔ .extraction field ∈ uses := by
  rw [fieldsOf, List.mem_filterMap]
  refine ⟨?_, fun h => ⟨_, h, rfl⟩⟩
  rintro ⟨use, huse, hfield⟩
  cases use with
  | extraction f => exact Option.some.inj hfield ▸ huse
  | release => cases hfield

/-- Before the first release there is nothing after it. -/
theorem sinceRelease_eq_nil_iff {uses : List HandleUse} :
    sinceRelease uses = [] ↔ .release ∉ uses := by
  simp only [sinceRelease, List.dropWhile_eq_nil_iff, bne_iff_ne]
  exact ⟨fun h hmem => h _ hmem rfl, fun h use huse heq => h (heq ▸ huse)⟩

/-- Uses after the first release come after it. -/
theorem sinceRelease_append_of_mem {uses : List HandleUse} (h : .release ∈ uses)
    (more : List HandleUse) : sinceRelease (uses ++ more) = sinceRelease uses ++ more := by
  have hne : (sinceRelease uses).isEmpty = false := by
    rw [List.isEmpty_eq_false_iff]
    exact fun hnil => sinceRelease_eq_nil_iff.1 hnil h
  rw [sinceRelease, List.dropWhile_append, ← sinceRelease, hne]
  rfl

/-- Uses without a release can be passed over. -/
theorem sinceRelease_append_of_not_mem {uses : List HandleUse} (h : .release ∉ uses)
    (more : List HandleUse) : sinceRelease (uses ++ more) = sinceRelease more := by
  rw [sinceRelease, List.dropWhile_append, ← sinceRelease, sinceRelease_eq_nil_iff.2 h]
  rfl

/-- A release and what follows it come after the first one, or are it. -/
theorem sinceRelease_append_cons (before after : List HandleUse) :
    sinceRelease (before ++ .release :: after) = sinceRelease before ++ .release :: after := by
  by_cases h : HandleUse.release ∈ before
  · exact sinceRelease_append_of_mem h _
  · rw [sinceRelease_append_of_not_mem h, sinceRelease_eq_nil_iff.2 h]
    rfl

namespace Projection

/-- **One more use** shows in the record as the ledger notes it. -/
theorem record_concat (kind : String) (uses : List HandleUse) (use : HandleUse) :
    record ⟨kind, uses ++ [use]⟩ = (record ⟨kind, uses⟩).used use :=
  List.foldl_append

/-- A record tells which operation issued the handle. -/
theorem kind_record (p : Projection) : p.record.kind = p.kind := by
  obtain ⟨kind, uses⟩ := p
  induction uses using List.reverseRecOn with
  | nil => rfl
  | append_singleton uses use ih =>
    rw [record_concat]
    cases use <;> exact ih

/-- **A record tells the fields that were read**, in order. -/
theorem extractions_record (p : Projection) : p.record.extractions = fieldsOf p.uses := by
  obtain ⟨kind, uses⟩ := p
  induction uses using List.reverseRecOn with
  | nil => rfl
  | append_singleton uses use ih =>
    rw [record_concat, fieldsOf_append]
    cases use with
    | extraction field => exact congrArg (· ++ [field]) ih
    | release => exact ih.trans (List.append_nil _).symm

/-- **A record counts releases** in machine words. -/
theorem releases_record (p : Projection) :
    p.record.releases = p.uses.count .release % UInt32.size := by
  obtain ⟨kind, uses⟩ := p
  induction uses using List.reverseRecOn with
  | nil => rfl
  | append_singleton uses use ih =>
    rw [record_concat, List.count_append]
    cases use with
    | extraction field => simpa [HandleRecord.used] using ih
    | release => simp [HandleRecord.used, HandleRecord.releases_released, ih]

/-- **A record counts the readings after the first release** in machine words, too, if the counter
of releases did not run over. -/
theorem extractedAfterRelease_record (p : Projection) (h : p.uses.count .release < UInt32.size) :
    p.record.extractedAfterRelease
      = (fieldsOf (sinceRelease p.uses)).length % UInt32.size := by
  obtain ⟨kind, uses⟩ := p
  induction uses using List.reverseRecOn with
  | nil => rfl
  | append_singleton uses use ih =>
    have hcount : uses.count .release < UInt32.size :=
      Nat.lt_of_le_of_lt (List.Sublist.count_le _ (List.sublist_append_left uses [use])) h
    have hbefore := ih hcount
    dsimp only at hbefore ⊢
    rw [record_concat]
    have hreleases : (record ⟨kind, uses⟩).releases = uses.count .release := by
      rw [releases_record, Nat.mod_eq_of_lt hcount]
    by_cases hrelease : HandleUse.release ∈ uses
    · -- the use comes after the first release
      have hpos : 0 < (record ⟨kind, uses⟩).releases := by
        rw [hreleases]
        exact List.count_pos_iff.2 hrelease
      rw [sinceRelease_append_of_mem hrelease]
      cases use with
      | extraction field =>
        rw [HandleRecord.used, HandleRecord.extractedAfterRelease_extracted, if_pos hpos, hbefore,
          Nat.mod_add_mod]
        simp
      | release => simpa [HandleRecord.used] using hbefore
    · have hzero : ¬ 0 < (record ⟨kind, uses⟩).releases := by
        rw [hreleases, List.count_eq_zero.2 hrelease]
        exact Nat.lt_irrefl 0
      rw [sinceRelease_eq_nil_iff.2 hrelease] at hbefore
      rw [sinceRelease_append_of_not_mem hrelease, fieldsOf_sinceRelease_singleton]
      cases use with
      | extraction field =>
        rw [HandleRecord.used, HandleRecord.extractedAfterRelease_extracted, if_neg hzero, hbefore]
        rfl
      | release => exact hbefore

/-- **What can be counted is counted right.** -/
theorem IsCountable.isExact {p : Projection} (h : p.IsCountable) : p.IsExact where
  releases := p.releases_record.trans (Nat.mod_eq_of_lt h.releases)
  extractedAfterRelease :=
    (p.extractedAfterRelease_record h.releases).trans (Nat.mod_eq_of_lt h.readings)

/-- A handle that is used less often than there are words can be counted. -/
theorem isCountable_of_length_lt {p : Projection} (h : p.uses.length < UInt32.size) :
    p.IsCountable where
  releases := Nat.lt_of_le_of_lt List.count_le_length h
  readings := Nat.lt_of_le_of_lt
    ((List.length_filterMap_le _ _).trans (List.length_dropWhile_le _ _)) h

/-- A handle was released once and not read after that if there is one release, and nothing is read
from the first one on. -/
theorem isReleasedOnce_iff {p : Projection} :
    p.IsReleasedOnce ↔ p.uses.count .release = 1 ∧ fieldsOf (sinceRelease p.uses) = [] := by
  refine and_congr_right fun hcount => ⟨fun h => ?_, ?_⟩
  · -- there is a first release, and everything since then follows it
    have hmem : .release ∈ p.uses := List.count_pos_iff.1 (by omega)
    obtain ⟨before, after, huses, hfirst⟩ := List.eq_append_cons_of_mem hmem
    rw [huses, sinceRelease_append_of_not_mem hfirst]
    refine List.eq_nil_iff_forall_not_mem.2 fun field hfield => ?_
    rcases List.mem_cons.1 (mem_fieldsOf.1 hfield) with heq | hafter
    · cases heq
    · exact h before after huses field hafter
  · -- what follows a release follows the first one
    intro hnone before after huses field hfield
    have hafter : .extraction field ∈ sinceRelease p.uses := by
      rw [huses, sinceRelease_append_cons]
      exact List.mem_append_right _ (List.mem_cons_of_mem _ hfield)
    have hmem : field ∈ fieldsOf (sinceRelease p.uses) := mem_fieldsOf.2 hafter
    rw [hnone] at hmem
    exact absurd hmem List.not_mem_nil

/-- A handle that was released once and not read after that can be counted. -/
theorem IsReleasedOnce.isCountable {p : Projection} (h : p.IsReleasedOnce) : p.IsCountable := by
  obtain ⟨hcount, hnone⟩ := isReleasedOnce_iff.1 h
  exact ⟨by rw [hcount]; decide, by rw [hnone]; decide⟩

/-- **A record shows whether the handle was released once** and not read after that. -/
theorem isReleasedOnce_record {p : Projection} (h : p.IsCountable) :
    p.record.isReleasedOnce = true ↔ p.IsReleasedOnce := by
  rw [isReleasedOnce_iff]
  simp [HandleRecord.isReleasedOnce, h.isExact.releases, h.isExact.extractedAfterRelease]

end Projection

/-! ## All records -/

namespace Ledger

open LedgerOperation

theorem issued_apply (l : Ledger) (operation : LedgerOperation) :
    (l.apply operation).issued = l.issued + issues [operation] := by
  cases operation with
  | issue kind => exact issued_issue l kind
  | extraction number field => exact issued_noteExtraction l number field
  | release number => exact issued_noteRelease l number

theorem issued_foldl_apply (l : Ledger) (operations : List LedgerOperation) :
    (operations.foldl apply l).issued = l.issued + issues operations := by
  induction operations generalizing l with
  | nil => rfl
  | cons operation rest ih =>
    rw [List.foldl_cons, ih, issued_apply, Nat.add_assoc]
    simp [issues, List.countP_cons, Nat.add_comm]

/-- **An operation changes the record of its handle** and no other that is there. -/
theorem getElem?_apply {l : Ledger} {number : Nat} (h : number < l.issued)
    (operation : LedgerOperation) :
    (l.apply operation).records[number]?
      = l.records[number]?.map
          fun r => (operation.use? number).toList.foldl HandleRecord.used r := by
  cases operation with
  | issue kind =>
    rw [apply, getElem?_issue, if_neg (Nat.ne_of_lt h)]
    simp [use?]
  | extraction n field =>
    rw [apply, getElem?_noteExtraction, use?]
    split <;> simp [HandleRecord.used]
  | release n =>
    rw [apply, getElem?_noteRelease, use?]
    split <;> simp [HandleRecord.used]

/-- **Operations change the record of a handle by its uses**, and those of other handles leave it as
it is. -/
theorem getElem?_foldl_apply {l : Ledger} {number : Nat} (h : number < l.issued)
    (operations : List LedgerOperation) :
    (operations.foldl apply l).records[number]?
      = l.records[number]?.map fun r => (usesOf number operations).foldl HandleRecord.used r := by
  induction operations generalizing l with
  | nil => simp [usesOf]
  | cons operation rest ih =>
    have hnext : number < (l.apply operation).issued := by
      rw [issued_apply]
      exact Nat.lt_add_right _ h
    rw [List.foldl_cons, ih hnext, getElem?_apply h, Option.map_map, usesOf_cons]
    simp only [List.foldl_append]
    rfl

/-- A handle that is issued gets a new record, and its uses from then on make that what it is. -/
theorem getElem?_foldl_apply_issue (l : Ledger) (kind : String) (rest : List LedgerOperation) :
    (rest.foldl apply (l.issue kind)).records[l.issued]?
      = some (Projection.record ⟨kind, usesOf l.issued rest⟩) := by
  rw [getElem?_foldl_apply (by simp), getElem?_issue, if_pos rfl, Option.map_some]
  rfl

/-- **The ledger is the list of the projections.** Operations add a record for each handle that they
issue, which is that of its projection. -/
theorem records_foldl_apply (l : Ledger) (operations : List LedgerOperation) :
    (operations.foldl apply l).records.drop l.issued
      = (projections l.issued operations).map Projection.record := by
  induction operations generalizing l with
  | nil => simp [issued, projections]
  | cons operation rest ih =>
    cases operation with
    | issue kind =>
      have hrest := ih (l.issue kind)
      rw [issued_issue] at hrest
      rw [List.foldl_cons, apply, List.drop_eq_getElem?_toList_append,
        getElem?_foldl_apply_issue, hrest]
      rfl
    | extraction number field =>
      have hrest := ih (l.noteExtraction number field)
      rwa [issued_noteExtraction] at hrest
    | release number =>
      have hrest := ih (l.noteRelease number)
      rwa [issued_noteRelease] at hrest

end Ledger

/-! ## Every order of operations -/

/-- A handle is used at most as often as there are operations. -/
theorem length_uses_le {next : Nat} {operations : List LedgerOperation} {p : Projection}
    (h : p ∈ projections next operations) : p.uses.length ≤ operations.length := by
  induction operations generalizing next with
  | nil => cases h
  | cons operation rest ih =>
    cases operation with
    | issue kind =>
      rcases List.mem_cons.1 h with rfl | hrest
      · exact Nat.le_succ_of_le (List.length_filterMap_le _ rest)
      · exact Nat.le_succ_of_le (ih hrest)
    | extraction number field => exact Nat.le_succ_of_le (ih h)
    | release number => exact Nat.le_succ_of_le (ih h)

namespace LedgerOperation

/-- The ledger of a new engine is the list of the projections. -/
theorem records_ledgerAfter (operations : List LedgerOperation) :
    (ledgerAfter operations).records = (projections 0 operations).map Projection.record := by
  rw [ledgerAfter_eq]
  exact Ledger.records_foldl_apply {} operations

/-- Two handles used in turns, one of them once before it was issued and the other once after its
release. -/
def turns : List LedgerOperation :=
  [.release 0, .issue "compile", .issue "compute_witness", .extraction 1 "witness",
    .extraction 0 "program", .release 1, .release 0, .extraction 1 "output"]

end LedgerOperation

end ProofToolchain.Scripted
