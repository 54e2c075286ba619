/-!
# Entries in key order

Objects and compiler flags are lists of entries, a key with a value each, in strictly increasing
order of their keys. Keys are compared by code point, which is the order of their UTF-8 bytes.
`Entries.set` puts an entry at its place and replaces an older one of the same key, so the last
value set for a key is the one that stays, and the order in which different keys are set leaves no
trace.
-/

namespace ProofToolchain

/-- A list of keyed values. -/
abbrev Entries (α : Type) := List (String × α)

/-- Of two keys neither of which comes first, both are the same. -/
theorem lt_of_not_lt_of_ne {a b : String} (h : ¬ a < b) (hne : a ≠ b) : b < a := by
  apply Decidable.byContradiction
  intro hba
  exact hne (String.le_antisymm (String.not_lt.1 hba) (String.not_lt.1 h))

namespace Entries

variable {α : Type}

/-- **Whether the keys strictly increase.** -/
def Ordered (es : Entries α) : Prop :=
  es.Pairwise fun a b => a.1 < b.1

/-- **Set a key**, replacing its value if it has one. -/
def set (key : String) (value : α) : Entries α → Entries α
  | [] => [(key, value)]
  | (k, v) :: rest =>
    if key < k then (key, value) :: (k, v) :: rest
    else if key = k then (key, value) :: rest
    else (k, v) :: set key value rest

/-- The value of a key. -/
def get? (key : String) : Entries α → Option α
  | [] => none
  | (k, v) :: rest => if key = k then some v else get? key rest

/-- The entries with the given pairs set one after another. -/
def setAll (es pairs : Entries α) : Entries α :=
  pairs.foldl (fun es p => set p.1 p.2 es) es

@[simp] theorem setAll_nil (es : Entries α) : setAll es [] = es := rfl

@[simp] theorem setAll_cons (es : Entries α) (p : String × α) (pairs : Entries α) :
    setAll es (p :: pairs) = setAll (set p.1 p.2 es) pairs := rfl

@[simp] theorem get?_nil (key : String) : get? key ([] : Entries α) = none := rfl

/-- A key without a value is not among the keys. -/
theorem get?_eq_none_iff {key : String} {es : Entries α} :
    get? key es = none ↔ key ∉ es.map Prod.fst := by
  induction es with
  | nil => simp
  | cons e es ih =>
    obtain ⟨k, v⟩ := e
    by_cases hkey : key = k <;> simp [get?, hkey, ih]

/-- **What is set is found.** -/
@[simp] theorem get?_set_self (key : String) (value : α) (es : Entries α) :
    get? key (set key value es) = some value := by
  induction es with
  | nil => simp [set, get?]
  | cons e es ih =>
    obtain ⟨k, v⟩ := e
    unfold set
    split
    · simp [get?]
    · split
      · simp [get?]
      · next hne => simp [get?, hne, ih]

/-- Setting a key leaves the others as they are. -/
theorem get?_set_of_ne {key other : String} (h : other ≠ key) (value : α) (es : Entries α) :
    get? other (set key value es) = get? other es := by
  induction es with
  | nil => simp [set, get?, h]
  | cons e es ih =>
    obtain ⟨k, v⟩ := e
    unfold set
    split
    · simp [get?, h]
    · split
      · next heq => subst heq; simp [get?, h]
      · simp [get?, ih]

/-- The keys after a key is set are those before it and the key itself. -/
theorem mem_set {key : String} {value : α} {es : Entries α} {e : String × α}
    (h : e ∈ set key value es) : e = (key, value) ∨ e ∈ es := by
  induction es with
  | nil => simpa [set] using h
  | cons d es ih =>
    obtain ⟨k, v⟩ := d
    unfold set at h
    split at h
    · simpa using h
    · split at h
      · rcases List.mem_cons.1 h with h | h
        · exact .inl h
        · exact .inr (List.mem_cons_of_mem _ h)
      · rcases List.mem_cons.1 h with h | h
        · exact .inr (h ▸ List.mem_cons_self)
        · exact (ih h).imp_right (List.mem_cons_of_mem _)

/-- Entries that are set one after another are all there is. -/
theorem mem_setAll {es pairs : Entries α} {e : String × α} (h : e ∈ setAll es pairs) :
    e ∈ es ∨ e ∈ pairs := by
  induction pairs generalizing es with
  | nil => exact .inl h
  | cons p pairs ih =>
    rcases ih h with h | h
    · rcases mem_set h with rfl | h
      · exact .inr List.mem_cons_self
      · exact .inl h
    · exact .inr (List.mem_cons_of_mem _ h)

/-- **Setting a key keeps the order.** -/
theorem Ordered.set {es : Entries α} (h : Ordered es) (key : String) (value : α) :
    Ordered (set key value es) := by
  induction es with
  | nil => simp [Ordered, Entries.set]
  | cons e es ih =>
    obtain ⟨k, v⟩ := e
    have hk := List.pairwise_cons.1 h
    unfold Entries.set
    split
    · next hlt =>
      refine List.pairwise_cons.2 ⟨fun d hd => ?_, h⟩
      rcases List.mem_cons.1 hd with rfl | hd
      · exact hlt
      · exact String.lt_trans hlt (hk.1 d hd)
    · split
      · next heq => subst heq; exact List.pairwise_cons.2 ⟨hk.1, hk.2⟩
      · next hlt hne =>
        refine List.pairwise_cons.2 ⟨fun d hd => ?_, ih hk.2⟩
        rcases mem_set hd with rfl | hd
        · exact lt_of_not_lt_of_ne hlt hne
        · exact hk.1 d hd

theorem Ordered.setAll {es : Entries α} (h : Ordered es) (pairs : Entries α) :
    Ordered (setAll es pairs) := by
  induction pairs generalizing es with
  | nil => exact h
  | cons p pairs ih => exact ih (h.set p.1 p.2)

/-- **Pairs with different keys are all found** when they are set one after another, and nothing
else is but what was there before. -/
theorem get?_setAll {es pairs : Entries α} (h : (pairs.map Prod.fst).Nodup) {key : String}
    {value : α} : get? key (setAll es pairs) = some value
      ↔ (key, value) ∈ pairs ∨ (key ∉ pairs.map Prod.fst ∧ get? key es = some value) := by
  induction pairs generalizing es with
  | nil => simp [setAll]
  | cons p pairs ih =>
    obtain ⟨k, v⟩ := p
    obtain ⟨hk, hpairs⟩ := List.nodup_cons.1 h
    show get? key (setAll (set k v es) pairs) = some value ↔ _
    rw [ih hpairs]
    by_cases hkey : key = k
    · subst hkey
      have hnot : (key, value) ∉ pairs := fun hmem => hk (List.mem_map.2 ⟨_, hmem, rfl⟩)
      simp [hk, hnot, eq_comm]
    · rw [get?_set_of_ne hkey]
      simp [hkey]

/-- A new key adds its entry and leaves all others. -/
theorem perm_set {key : String} {es : Entries α} (h : key ∉ es.map Prod.fst) (value : α) :
    (set key value es).Perm ((key, value) :: es) := by
  induction es with
  | nil => exact .refl _
  | cons e es ih =>
    obtain ⟨k, v⟩ := e
    obtain ⟨hk, hes⟩ := not_or.1 fun hmem => h (List.mem_cons.2 hmem)
    unfold set
    split
    · exact .refl _
    · exact ((ih hes).cons _).trans (.swap _ _ _)

/-- **Pairs with different keys are the entries**, in some order, when they are set one after
another. -/
theorem perm_setAll {es pairs : Entries α} (h : ((es ++ pairs).map Prod.fst).Nodup) :
    (setAll es pairs).Perm (es ++ pairs) := by
  induction pairs generalizing es with
  | nil => simp [setAll]
  | cons p pairs ih =>
    have hmove : (es ++ p :: pairs).Perm ((p :: es) ++ pairs) := List.perm_middle
    have hnodup : (((p :: es) ++ pairs).map Prod.fst).Nodup := (hmove.map _).nodup_iff.1 h
    have hset : (set p.1 p.2 es).Perm (p :: es) := by
      refine perm_set ?_ p.2
      rw [List.cons_append, List.map_cons] at hnodup
      intro hmem
      refine (List.nodup_cons.1 hnodup).1 ?_
      rw [List.map_append]
      exact List.mem_append_left _ hmem
    have hafter : ((set p.1 p.2 es ++ pairs).map Prod.fst).Nodup :=
      (((hset.append_right pairs).map _).nodup_iff).2 hnodup
    exact (ih hafter).trans ((hset.append_right pairs).trans hmove.symm)

theorem ordered_nil : Ordered ([] : Entries α) := List.Pairwise.nil

/-- A key that comes after all others is added at the end. -/
theorem set_eq_append {key : String} {es : Entries α} (h : ∀ e ∈ es, e.1 < key) (value : α) :
    set key value es = es ++ [(key, value)] := by
  induction es with
  | nil => rfl
  | cons e es ih =>
    obtain ⟨k, v⟩ := e
    have hk : k < key := h (k, v) List.mem_cons_self
    have hne : key ≠ k := fun heq => String.lt_irrefl k (heq ▸ hk)
    rw [set, if_neg (String.lt_asymm hk), if_neg hne,
      ih fun e he => h e (List.mem_cons_of_mem _ he)]
    rfl

/-- Entries that go on in key order are added one after another. -/
theorem Ordered.setAll_eq_append {es pairs : Entries α} (h : Ordered (es ++ pairs)) :
    Entries.setAll es pairs = es ++ pairs := by
  induction pairs generalizing es with
  | nil => rw [setAll_nil, List.append_nil]
  | cons p pairs ih =>
    have hbefore : ∀ e ∈ es, e.1 < p.1 := fun e he =>
      (List.pairwise_append.1 h).2.2 e he p List.mem_cons_self
    have happend : es ++ p :: pairs = es ++ [p] ++ pairs := by simp
    rw [happend] at h
    rw [setAll_cons, set_eq_append hbefore, happend]
    exact ih h

/-- **Entries in key order stay as they are** when they are set one after another. -/
theorem Ordered.setAll_nil {es : Entries α} (h : Ordered es) : Entries.setAll [] es = es := by
  have happend : Ordered ([] ++ es) := h
  exact happend.setAll_eq_append

end Entries

end ProofToolchain
