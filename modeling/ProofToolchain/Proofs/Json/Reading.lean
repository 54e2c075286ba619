import ProofToolchain.Proofs.Json.RoundTrip

/-!
# Values that were read are written as they were read

Not every value comes back from its text: it may nest too deep, have members out of order or twice,
and its doubles are rounded on the way. A value that was itself read from a text is different. It
nests no deeper than is read, its members are in key order, and an integer that was read fits a
machine word, or it would have been read as a double. So it comes back as it is, unless there are
doubles in it (`Literal.isKept_of_toJson?`).
-/

namespace ProofToolchain.Json

/-! ## Integers -/

mutual

/-- **No number of a value is a double.** -/
def HoldsIntegers : Json → Prop
  | .number (.integer _) => True
  | .number (.double _) => False
  | .array items => ItemsHoldIntegers items
  | .object members => MembersHoldIntegers members
  | .null | .bool _ | .string _ => True

/-- Nor is a number of several items. -/
def ItemsHoldIntegers : List Json → Prop
  | [] => True
  | item :: rest => HoldsIntegers item ∧ ItemsHoldIntegers rest

/-- Nor is a number of several members. -/
def MembersHoldIntegers : List (String × Json) → Prop
  | [] => True
  | (_, value) :: rest => HoldsIntegers value ∧ MembersHoldIntegers rest

end

theorem itemsHoldIntegers_iff {items : List Json} :
    ItemsHoldIntegers items ↔ ∀ item ∈ items, item.HoldsIntegers := by
  induction items with
  | nil => simp [ItemsHoldIntegers]
  | cons item rest ih => simp [ItemsHoldIntegers, ih]

theorem membersHoldIntegers_iff {members : List (String × Json)} :
    MembersHoldIntegers members ↔ ∀ m ∈ members, m.2.HoldsIntegers := by
  induction members with
  | nil => simp [MembersHoldIntegers]
  | cons m rest ih => simp [MembersHoldIntegers, ih]

/-- Digits are absorbed only as long as the word holds what they spell. -/
theorem absorb_lt {digits : List Char} {significand : Nat} (h : significand < Text.wordLimit 64) :
    (absorb significand digits).1 < Text.wordLimit 64 := by
  induction digits generalizing significand with
  | nil => exact h
  | cons c cs ih =>
    unfold absorb
    dsimp only
    split
    · next hnext => exact ih hnext
    · exact h

/-- **An integer that was read fits a word.** -/
theorem isWord_of_value? {text : NumberText} {value : Int}
    (h : text.value? = some (.integer value)) : IsWord value := by
  have hleading : (absorb 0 text.whole).1 < Text.wordLimit 64 :=
    absorb_lt (Nat.pow_pos (by decide))
  unfold NumberText.value? at h
  dsimp only at h
  split at h
  · split_ifs at h with hplus hminus
    · cases h
      exact ⟨by omega, by omega⟩
    · cases h
      exact ⟨by omega, by omega⟩
    · obtain ⟨_, -, heq⟩ := Option.map_eq_some_iff.1 h
      cases heq
  · obtain ⟨_, -, heq⟩ := Option.map_eq_some_iff.1 h
    cases heq

/-! ## Values that come back -/

/-- **A value is kept** by a reader that goes some levels deep, if the reader finds it again in its
own text. -/
structure IsKept (d : Nat) (j : Json) : Prop where
  /-- Its numbers are integers that a machine word holds. -/
  words : j.HoldsWords
  /-- It nests no deeper than the reader goes. -/
  depth : j.depth ≤ d
  /-- Its members are in key order already. -/
  sorted : j.sorted = j

/-- **A value that is kept comes back.** -/
theorem IsKept.toJson?_literal {d : Nat} {j : Json} (h : j.IsKept d) :
    j.literal.toJson? d = some j := by
  rw [Json.toJson?_literal d j h.words, if_pos h.depth, h.sorted]

theorem itemsDepth_le {items : List Json} {d : Nat} (h : ∀ item ∈ items, item.depth ≤ d) :
    itemsDepth items ≤ d := by
  induction items with
  | nil => exact Nat.zero_le d
  | cons item rest ih =>
    obtain ⟨hitem, hrest⟩ := List.forall_mem_cons.1 h
    exact Nat.max_le.2 ⟨hitem, ih hrest⟩

theorem membersDepth_le {members : List (String × Json)} {d : Nat}
    (h : ∀ m ∈ members, m.2.depth ≤ d) : membersDepth members ≤ d := by
  induction members with
  | nil => exact Nat.zero_le d
  | cons m rest ih =>
    obtain ⟨hm, hrest⟩ := List.forall_mem_cons.1 h
    exact Nat.max_le.2 ⟨hm, ih hrest⟩

theorem itemsSorted_eq {items : List Json} (h : ∀ item ∈ items, item.sorted = item) :
    itemsSorted items = items := by
  induction items with
  | nil => rfl
  | cons item rest ih =>
    obtain ⟨hitem, hrest⟩ := List.forall_mem_cons.1 h
    rw [itemsSorted, hitem, ih hrest]

theorem membersSorted_eq {members : List (String × Json)}
    (h : ∀ m ∈ members, m.2.sorted = m.2) : membersSorted members = members := by
  induction members with
  | nil => rfl
  | cons m rest ih =>
    obtain ⟨hm, hrest⟩ := List.forall_mem_cons.1 h
    rw [membersSorted, hm, ih hrest]

/-- An object in key order is sorted if the values of its members are. -/
theorem sorted_object {members : List (String × Json)} (hordered : Entries.Ordered members)
    (h : ∀ m ∈ members, m.2.sorted = m.2) : (Json.object members).sorted = .object members := by
  show ofMembers (membersSorted members) = _
  rw [membersSorted_eq h, ofMembers, hordered.setAll_nil]

/-- An array of values that are kept is kept one level deeper. -/
theorem isKept_array {items : List Json} {d : Nat} (h : ∀ item ∈ items, item.IsKept d) :
    (Json.array items).IsKept (d + 1) where
  words := itemsHoldWords_iff.2 fun item hitem => (h item hitem).words
  depth := Nat.succ_le_succ (itemsDepth_le fun item hitem => (h item hitem).depth)
  sorted := congrArg Json.array (itemsSorted_eq fun item hitem => (h item hitem).sorted)

/-- So is an object of such values, if its members are in key order. -/
theorem isKept_object {members : List (String × Json)} {d : Nat}
    (hordered : Entries.Ordered members) (h : ∀ m ∈ members, m.2.IsKept d) :
    (Json.object members).IsKept (d + 1) where
  words := membersHoldWords_iff.2 fun m hm => (h m hm).words
  depth := Nat.succ_le_succ (membersDepth_le fun m hm => (h m hm).depth)
  sorted := sorted_object hordered fun m hm => (h m hm).sorted

/-! ## What a reader yields -/

/-- A list is read item by item. -/
theorem mapM_eq_some_iff_forall₂ {α β : Type} {f : α → Option β} {xs : List α} {ys : List β} :
    xs.mapM f = some ys ↔ List.Forall₂ (fun x y => f x = some y) xs ys := by
  induction xs generalizing ys with
  | nil => simp [List.forall₂_nil_left_iff, eq_comm]
  | cons x xs ih =>
    simp only [List.mapM_cons, List.forall₂_cons_left_iff, Option.bind_eq_bind,
      Option.bind_eq_some_iff, ih, Option.pure_def, Option.some.injEq]
    constructor
    · rintro ⟨y, hy, ys, hys, rfl⟩
      exact ⟨y, ys, hy, hys, rfl⟩
    · rintro ⟨y, ys, hy, hys, rfl⟩
      exact ⟨y, hy, ys, hys, rfl⟩

/-- What a reader makes of a list, it makes of the items. -/
theorem exists_of_mem_of_mapM {α β : Type} {f : α → Option β} {xs : List α} {ys : List β}
    (h : xs.mapM f = some ys) {y : β} (hy : y ∈ ys) : ∃ x ∈ xs, f x = some y := by
  induction xs generalizing ys with
  | nil =>
    cases h
    cases hy
  | cons x xs ih =>
    simp only [List.mapM_cons, Option.bind_eq_bind, Option.bind_eq_some_iff, Option.pure_def,
      Option.some.injEq] at h
    obtain ⟨z, hz, zs, hzs, rfl⟩ := h
    rcases List.mem_cons.1 hy with rfl | hy
    · exact ⟨x, List.mem_cons_self, hz⟩
    · obtain ⟨w, hw, hfw⟩ := ih hzs hy
      exact ⟨w, List.mem_cons_of_mem x hw, hfw⟩

/-- **What was read is kept**, unless a number in it is a double. -/
theorem Literal.isKept_of_toJson? {d : Nat} {l : Literal} {j : Json} (h : l.toJson? d = some j)
    (hj : j.HoldsIntegers) : j.IsKept d := by
  induction d using Nat.strongRecOn generalizing l j with
  | ind d ih =>
    cases l with
    | null =>
      rw [toJson?] at h
      cases h
      exact ⟨trivial, Nat.zero_le d, rfl⟩
    | bool value =>
      rw [toJson?] at h
      cases h
      exact ⟨trivial, Nat.zero_le d, rfl⟩
    | number text =>
      rw [toJson?] at h
      obtain ⟨value, hvalue, rfl⟩ := Option.map_eq_some_iff.1 h
      cases value with
      | integer value => exact ⟨isWord_of_value? hvalue, Nat.zero_le d, rfl⟩
      | double value => exact hj.elim
    | string units =>
      rw [toJson?] at h
      obtain ⟨cs, -, rfl⟩ := Option.map_eq_some_iff.1 h
      exact ⟨trivial, Nat.zero_le d, rfl⟩
    | array items =>
      cases d with
      | zero => cases h
      | succ d =>
        obtain ⟨read, hread, rfl⟩ := Option.map_eq_some_iff.1 h
        refine isKept_array fun item hitem => ?_
        obtain ⟨l, -, hl⟩ := exists_of_mem_of_mapM hread hitem
        exact ih d (Nat.lt_succ_self d) hl (itemsHoldIntegers_iff.1 hj item hitem)
    | object members =>
      cases d with
      | zero => cases h
      | succ d =>
        obtain ⟨read, hread, rfl⟩ := Option.map_eq_some_iff.1 h
        refine isKept_object (Entries.ordered_nil.setAll read) fun m hm => ?_
        have hread' := (Entries.mem_setAll hm).resolve_left List.not_mem_nil
        obtain ⟨l, -, hl⟩ := exists_of_mem_of_mapM hread hread'
        simp only [member?, Option.bind_eq_bind, Option.bind_eq_some_iff, Option.pure_def,
          Option.some.injEq] at hl
        obtain ⟨key, -, value, hvalue, rfl⟩ := hl
        exact ih d (Nat.lt_succ_self d) hvalue (membersHoldIntegers_iff.1 hj _ hm)

end ProofToolchain.Json
