import ProofToolchain.Proofs.Json.RoundTrip

/-!
# What makes a literal, and what a literal makes

A literal is made of tokens by a machine, and it makes a value. Two things are said here about these
two steps.

The machine loses nothing: the tokens that led to a state can be read off it (`State.tokens`), and a
step adds the token that it takes (`tokens_of_step`). So a literal is made of its own tokens and of
no others (`ofTokens?_eq_some_iff`). In particular what stands between two brackets is read as an
array exactly if it is the items of that array, with commas between them
(`ofTokens?_brackets_eq_some_iff`); no bracket inside can close the outer one early.

The limit on nesting loses nothing either, up to where it lies. A literal makes the same value under
every limit that allows it at all (`toJson?_eq_ite`).
-/

namespace ProofToolchain.Json.Literal

/-! ## The tokens that led to a state -/

/-- The tokens of items that are read, the last item first, with the comma after each. -/
def itemsRead : List Literal → List Token
  | [] => []
  | item :: done => itemsRead done ++ (item.tokens ++ [.comma])

/-- The tokens of members that are read, the last member first, with the comma after each. -/
def membersRead : List (List StringUnit × Literal) → List Token
  | [] => []
  | (key, value) :: done =>
    membersRead done ++ (.string key :: .colon :: (value.tokens ++ [.comma]))

/-- The tokens of an open container. -/
def Frame.tokens : Frame → List Token
  | .array done => .openArray :: itemsRead done
  | .object done key => .openObject :: (membersRead done ++ [.string key, .colon])

/-- The tokens of the open containers, the innermost last. -/
def stackTokens : List Frame → List Token
  | [] => []
  | frame :: stack => stackTokens stack ++ frame.tokens

/-- **The tokens that led to a state.** -/
def State.tokens : State → List Token
  | .value stack => stackTokens stack
  | .firstItem stack => stackTokens stack ++ [.openArray]
  | .firstKey stack => stackTokens stack ++ [.openObject]
  | .key done stack => stackTokens stack ++ .openObject :: membersRead done
  | .colon done name stack =>
    stackTokens stack ++ .openObject :: (membersRead done ++ [.string name])
  | .after v stack => stackTokens stack ++ v.tokens

theorem itemsTokens_cons (item : Literal) {rest : List Literal} (h : rest ≠ []) :
    itemsTokens (item :: rest) = item.tokens ++ .comma :: itemsTokens rest := by
  cases rest with
  | nil => exact absurd rfl h
  | cons => rfl

theorem membersTokens_cons (key : List StringUnit) (value : Literal)
    {rest : List (List StringUnit × Literal)} (h : rest ≠ []) :
    membersTokens ((key, value) :: rest)
      = .string key :: .colon :: (value.tokens ++ .comma :: membersTokens rest) := by
  cases rest with
  | nil => exact absurd rfl h
  | cons => rfl

/-- The tokens of items that are read go on with those of the others. -/
theorem itemsTokens_reverse_append (done : List Literal) {rest : List Literal} (h : rest ≠ []) :
    itemsTokens (done.reverse ++ rest) = itemsRead done ++ itemsTokens rest := by
  induction done generalizing rest with
  | nil => rfl
  | cons item done ih =>
    rw [List.reverse_cons, List.append_assoc, List.singleton_append, ih (List.cons_ne_nil _ _),
      itemsTokens_cons item h, itemsRead]
    simp

theorem membersTokens_reverse_append (done : List (List StringUnit × Literal))
    {rest : List (List StringUnit × Literal)} (h : rest ≠ []) :
    membersTokens (done.reverse ++ rest) = membersRead done ++ membersTokens rest := by
  induction done generalizing rest with
  | nil => rfl
  | cons m done ih =>
    rw [List.reverse_cons, List.append_assoc, List.singleton_append, ih (List.cons_ne_nil _ _),
      membersTokens_cons m.1 m.2 h, membersRead]
    simp

theorem tokens_of_stepValue {stack : List Frame} {t : Token} {s : State}
    (h : stepValue stack t = some s) : s.tokens = stackTokens stack ++ [t] := by
  cases t <;> cases h <;> rfl

/-- After a value the innermost container goes on or is closed. -/
theorem tokens_of_stepAfter {v : Literal} {stack : List Frame} {t : Token} {s : State}
    (h : stepAfter v stack t = some s) : s.tokens = stackTokens stack ++ (v.tokens ++ [t]) := by
  unfold stepAfter at h
  split at h
  · next done stack =>
    cases h
    simp [State.tokens, stackTokens, Frame.tokens, itemsRead]
  · next done stack =>
    cases h
    rw [State.tokens, tokens, List.reverse_cons, itemsTokens_reverse_append done (by simp)]
    simp [stackTokens, Frame.tokens, itemsTokens]
  · next done key stack =>
    cases h
    simp [State.tokens, stackTokens, Frame.tokens, membersRead]
  · next done key stack =>
    cases h
    rw [State.tokens, tokens, List.reverse_cons, membersTokens_reverse_append done (by simp)]
    simp [stackTokens, Frame.tokens, membersTokens]
  · cases h

/-- **A step adds the token that it takes.** -/
theorem tokens_of_step {s s' : State} {t : Token} (h : step s t = some s') :
    s'.tokens = s.tokens ++ [t] := by
  unfold step at h
  split at h
  · exact tokens_of_stepValue h
  · cases h
    rw [State.tokens, State.tokens, tokens]
    simp [itemsTokens]
  · rw [tokens_of_stepValue h]
    rfl
  · cases h
    rw [State.tokens, State.tokens, tokens]
    simp [membersTokens]
  · cases h
    simp [State.tokens, membersRead]
  · cases h
  · cases h
    simp [State.tokens]
  · cases h
  · cases h
    simp [State.tokens, stackTokens, Frame.tokens]
  · cases h
  · rw [tokens_of_stepAfter h, State.tokens, List.append_assoc]

/-- **A run adds the tokens that it takes.** -/
theorem tokens_of_run {s s' : State} {ts : List Token} (h : run s ts = some s') :
    s'.tokens = s.tokens ++ ts := by
  induction ts generalizing s with
  | nil =>
    cases h
    simp
  | cons t ts ih =>
    rw [run_cons] at h
    obtain ⟨next, hstep, hrun⟩ := Option.bind_eq_some_iff.1 h
    rw [ih hrun, tokens_of_step hstep, List.append_assoc]
    rfl

/-- **A literal is made of its own tokens**, and of no others. -/
theorem ofTokens?_eq_some_iff {ts : List Token} {l : Literal} :
    ofTokens? ts = some l ↔ ts = l.tokens := by
  constructor
  · intro h
    unfold ofTokens? at h
    split at h
    · next v hrun =>
      cases h
      exact (tokens_of_run hrun).symm
    · cases h
  · rintro rfl
    exact ofTokens?_tokens l

/-- Different literals have different tokens. -/
theorem tokens_injective : Function.Injective tokens := by
  intro l m h
  exact Option.some.inj ((ofTokens?_tokens l).symm.trans (h ▸ ofTokens?_tokens m))

theorem itemsTokens_injective : Function.Injective itemsTokens := by
  intro xs ys h
  have htokens : (array xs).tokens = (array ys).tokens := by
    rw [tokens, tokens, h]
  exact array.inj (tokens_injective htokens)

/-- **What stands between brackets** is read as the array whose items it is. -/
theorem ofTokens?_brackets_eq_some_iff {ts : List Token} {l : Literal} :
    ofTokens? (.openArray :: (ts ++ [.closeArray])) = some l
      ↔ ∃ items, l = .array items ∧ ts = itemsTokens items := by
  rw [ofTokens?_eq_some_iff]
  constructor
  · intro h
    cases l with
    | array items =>
      rw [tokens, List.cons_inj_right, List.append_left_inj] at h
      exact ⟨items, rfl, h⟩
    | _ => cases h
  · rintro ⟨items, rfl, rfl⟩
    rfl

/-- **A text spells a literal** exactly if it is cut into the tokens of that literal. -/
theorem parse?_eq_some_iff {text : List Char} {l : Literal} :
    parse? text = some l ↔ tokens? text = some l.tokens := by
  rw [parse?, Option.bind_eq_some_iff]
  constructor
  · rintro ⟨ts, hts, hl⟩
    rw [hts, ofTokens?_eq_some_iff.1 hl]
  · intro h
    exact ⟨l.tokens, h, ofTokens?_tokens l⟩

/-! ## The limit on nesting -/

mutual

/-- **How many arrays and objects nest** in a literal, at most. -/
def depth : Literal → Nat
  | .array items => itemsDepth items + 1
  | .object members => membersDepth members + 1
  | .null | .bool _ | .number _ | .string _ => 0

/-- How many nest in several items. -/
def itemsDepth : List Literal → Nat
  | [] => 0
  | item :: rest => max (depth item) (itemsDepth rest)

/-- How many nest in several members. -/
def membersDepth : List (List StringUnit × Literal) → Nat
  | [] => 0
  | (_, value) :: rest => max (depth value) (membersDepth rest)

end

mutual

/-- **The value of a literal**, however deep it nests. -/
def value? : Literal → Option Json
  | .null => some .null
  | .bool value => some (.bool value)
  | .number text => text.value?.map .number
  | .string units => (decodeUnits? units).map fun cs => .string (String.ofList cs)
  | .array items => (itemsValue? items).map .array
  | .object members => (membersValue? members).map ofMembers

/-- The values of several items. -/
def itemsValue? : List Literal → Option (List Json)
  | [] => some []
  | item :: rest => do
    let value ← value? item
    let values ← itemsValue? rest
    return value :: values

/-- The values of several members, with their keys. -/
def membersValue? : List (List StringUnit × Literal) → Option (List (String × Json))
  | [] => some []
  | (key, value) :: rest => do
    let m ← member? (fun _ => value? value) (key, value)
    let ms ← membersValue? rest
    return m :: ms

end

mutual

/-- **A limit only decides whether a literal makes a value**, not which one. -/
theorem toJson?_eq_ite (d : Nat) : (l : Literal) →
    l.toJson? d = if l.depth ≤ d then l.value? else none
  | .null | .bool _ | .number _ | .string _ => by simp [toJson?, depth, value?]
  | .array items => by
    cases d with
    | zero => simp [toJson?, depth]
    | succ d =>
      simp only [toJson?, mapM_toJson?_eq_ite d items, depth, value?, Nat.add_le_add_iff_right]
      split <;> rfl
  | .object members => by
    cases d with
    | zero => simp [toJson?, depth]
    | succ d =>
      simp only [toJson?, mapM_member?_eq_ite d members, depth, value?, Nat.add_le_add_iff_right]
      split <;> rfl

/-- Nor which ones several items make. -/
theorem mapM_toJson?_eq_ite (d : Nat) : (items : List Literal) →
    items.mapM (toJson? d) = if itemsDepth items ≤ d then itemsValue? items else none
  | [] => by simp [itemsDepth, itemsValue?]
  | item :: rest => by
    rw [List.mapM_cons, toJson?_eq_ite d item, mapM_toJson?_eq_ite d rest, itemsDepth, ite_max_le]
    by_cases hitem : item.depth ≤ d <;> by_cases hrest : itemsDepth rest ≤ d
      <;> simp [hitem, hrest, itemsValue?]

/-- Nor which ones several members do. -/
theorem mapM_member?_eq_ite (d : Nat) : (members : List (List StringUnit × Literal)) →
    members.mapM (member? (toJson? d))
      = if membersDepth members ≤ d then membersValue? members else none
  | [] => by simp [membersDepth, membersValue?]
  | (key, value) :: rest => by
    rw [List.mapM_cons, mapM_member?_eq_ite d rest, membersDepth, ite_max_le, member?,
      toJson?_eq_ite d value]
    by_cases hvalue : value.depth ≤ d <;> by_cases hrest : membersDepth rest ≤ d
      <;> simp [hvalue, hrest, membersValue?, member?]

end

variable {l : Literal} {d e : Nat} {j : Json}

/-- A literal that makes a value makes it under every limit that allows it. -/
theorem toJson?_of_depth_le (h : l.toJson? d = some j) (hdepth : l.depth ≤ e) :
    l.toJson? e = some j := by
  rw [toJson?_eq_ite] at h ⊢
  split at h
  · rwa [if_pos hdepth]
  · cases h

/-- It nests no more than the limit allows. -/
theorem depth_le_of_toJson? (h : l.toJson? d = some j) : l.depth ≤ d := by
  by_contra hdepth
  rw [toJson?_eq_ite, if_neg hdepth] at h
  cases h

end ProofToolchain.Json.Literal
