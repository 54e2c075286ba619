import Mathlib.Data.List.Sort
import ProofToolchain.Entries

/-!
# What was set last is what there is

Entries keep nothing of how they came about. Of all that a key was set to, the last value is the one
it has (`Entries.get?_setAll_eq`), and entries in key order are determined by the values of their
keys (`Entries.Ordered.ext`). So two runs of settings leave the same entries as soon as they agree,
key by key, on what comes last.
-/

namespace ProofToolchain.Entries

variable {α : Type} {es fs pairs others : Entries α} {key : String} {value : α}

/-! ## Entries in key order -/

/-- **An entry is there** exactly if its key has its value. -/
theorem Ordered.mem_iff (h : Ordered es) : (key, value) ∈ es ↔ get? key es = some value := by
  induction es with
  | nil => simp
  | cons e es ih =>
    obtain ⟨k, v⟩ := e
    obtain ⟨hfirst, hrest⟩ := List.pairwise_cons.1 h
    rw [List.mem_cons, get?]
    by_cases hkey : key = k
    · subst hkey
      have hnot : (key, value) ∉ es := fun hmem => String.lt_irrefl key (hfirst _ hmem)
      simp [hnot, eq_comm]
    · simp [hkey, ih hrest]

/-- **Entries are what their keys have**: in key order there is one way to write them. -/
theorem Ordered.ext (hes : Ordered es) (hfs : Ordered fs)
    (h : ∀ key, get? key es = get? key fs) : es = fs := by
  have : Std.Irrefl fun a b : String × α => a.1 < b.1 := ⟨fun a => String.lt_irrefl a.1⟩
  have : Std.Antisymm fun a b : String × α => a.1 < b.1 :=
    ⟨fun a b hab hba => absurd hba (String.lt_asymm hab)⟩
  refine List.Pairwise.eq_of_mem_iff hes hfs fun e => ?_
  rw [show e = (e.1, e.2) from rfl, hes.mem_iff, hfs.mem_iff, h e.1]

/-! ## Runs of settings -/

/-- **The value that a key is set to last** in a run of settings. -/
def last? (key : String) : Entries α → Option α
  | [] => none
  | (k, v) :: rest => (last? key rest).or (if key = k then some v else none)

/-- **A key has the value that it was set to last**, or else the one it had before. -/
theorem get?_setAll_eq (es pairs : Entries α) (key : String) :
    get? key (setAll es pairs) = (last? key pairs).or (get? key es) := by
  induction pairs generalizing es with
  | nil => rfl
  | cons p pairs ih =>
    obtain ⟨k, v⟩ := p
    rw [setAll_cons, ih, last?, Option.or_assoc]
    by_cases hkey : key = k
    · subst hkey
      rw [get?_set_self, if_pos rfl, Option.some_or]
    · rw [get?_set_of_ne hkey, if_neg hkey, Option.none_or]

/-- What a key is set to last is known from its own settings. -/
theorem last?_filter (key : String) (pairs : Entries α) :
    last? key (pairs.filter fun p => p.1 = key) = last? key pairs := by
  induction pairs with
  | nil => rfl
  | cons p pairs ih =>
    obtain ⟨k, v⟩ := p
    by_cases hkey : k = key
    · rw [List.filter_cons_of_pos (by simpa using hkey), last?, last?, ih]
    · rw [List.filter_cons_of_neg (by simpa using hkey), ih, last?, if_neg (Ne.symm hkey),
        Option.or_none]

/-- A key that is set once has that value in the end. -/
theorem last?_eq_some_iff (h : (pairs.map Prod.fst).Nodup) :
    last? key pairs = some value ↔ (key, value) ∈ pairs := by
  have hfound : get? key (setAll [] pairs) = some value
      ↔ (key, value) ∈ pairs ∨ (key ∉ pairs.map Prod.fst ∧ get? key [] = some value) :=
    get?_setAll h
  rw [get?_setAll_eq, get?_nil, Option.or_none] at hfound
  simpa using hfound

/-- **Only the last settings count**: runs that agree on them leave the same entries. -/
theorem setAll_eq_of_last?_eq (hes : Ordered es) (h : ∀ key, last? key pairs = last? key others) :
    setAll es pairs = setAll es others :=
  (hes.setAll pairs).ext (hes.setAll others) fun key => by
    rw [get?_setAll_eq, get?_setAll_eq, h key]

/-- **The order of settings leaves no trace** if no key is set twice. -/
theorem setAll_eq_of_perm (hes : Ordered es) (h : pairs.Perm others)
    (hnodup : (pairs.map Prod.fst).Nodup) : setAll es pairs = setAll es others := by
  refine setAll_eq_of_last?_eq hes fun key => Option.ext fun value => ?_
  rw [last?_eq_some_iff hnodup, last?_eq_some_iff ((h.map Prod.fst).nodup_iff.1 hnodup), h.mem_iff]

end ProofToolchain.Entries
