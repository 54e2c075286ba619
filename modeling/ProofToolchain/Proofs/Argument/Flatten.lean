import ProofToolchain.Argument.Basic
import ProofToolchain.Argument.Flatten
import ProofToolchain.Proofs.Json.Bytes

/-!
# Arguments survive the way to the command line

Where a program has no interface, the encoded arguments are read again and their leaves become the
values on the command line. `Argument.leaves` says what these are in terms of the arguments
themselves, before anything is encoded: texts as they are, integers in decimal, truth values as one
or zero. No bracket shows in them.

That they arrive is three facts put together. What is encoded is read back
(`Json.parse?_text`), up to the order of an object's members and unless it nests too deep. Its
leaves are those of the arguments (`leaves_of_toJson?`). And flattening gives exactly the leaves,
unless there is something that has none (`Json.HasHole`), which is an error wherever it stands.

Doubles are left out (`Argument.IsFloatFree`): they are written with the fewest digits that tell
them apart, which is not what a caller has written.
-/

namespace ProofToolchain

/-! ## The leaves of a value -/

namespace Json

mutual

/-- **Whether there is `null` or an object** anywhere in a value. -/
def HasHole : Json → Prop
  | .null => True
  | .object _ => True
  | .array items => ItemsHaveHole items
  | .bool _ | .number _ | .string _ => False

/-- Whether there is one anywhere in several items. -/
def ItemsHaveHole : List Json → Prop
  | [] => False
  | item :: rest => HasHole item ∨ ItemsHaveHole rest

end

mutual

/-- **The leaves of a value**, from left to right. -/
def leaves : Json → List String
  | .array items => itemsLeaves items
  | .string value => [value]
  | .number value => [String.ofList value.chars]
  | .bool value => [if value then "1" else "0"]
  | .null | .object _ => []

/-- The leaves of several items. -/
def itemsLeaves : List Json → List String
  | [] => []
  | item :: rest => leaves item ++ itemsLeaves rest

end

mutual

/-- **A value without holes is flattened into its leaves.** -/
theorem flatten_sorted_of_not_hasHole : (j : Json) → ¬ j.HasHole →
    Argument.flatten j.sorted = .ok j.leaves
  | .null, h | .object _, h => absurd trivial h
  | .bool _, _ | .number _, _ | .string _, _ => rfl
  | .array items, h => flattenAll_itemsSorted_of_not_hasHole items h

/-- So are several items without holes. -/
theorem flattenAll_itemsSorted_of_not_hasHole : (items : List Json) → ¬ ItemsHaveHole items →
    Argument.flattenAll (itemsSorted items) = .ok (itemsLeaves items)
  | [], _ => rfl
  | item :: rest, h => by
    obtain ⟨hitem, hrest⟩ := not_or.1 h
    rw [itemsSorted, Argument.flattenAll, flatten_sorted_of_not_hasHole item hitem,
      flattenAll_itemsSorted_of_not_hasHole rest hrest]
    rfl

end

mutual

/-- **A hole is no field element**, wherever it stands. -/
theorem flatten_sorted_of_hasHole : (j : Json) → j.HasHole →
    ∃ v, Argument.flatten j.sorted = .error (Argument.notAField v)
  | .null, _ | .object _, _ => ⟨_, rfl⟩
  | .bool _, h | .number _, h | .string _, h => h.elim
  | .array items, h => flattenAll_itemsSorted_of_itemsHaveHole items h

/-- The first hole of several items is the one that is complained about. -/
theorem flattenAll_itemsSorted_of_itemsHaveHole : (items : List Json) → ItemsHaveHole items →
    ∃ v, Argument.flattenAll (itemsSorted items) = .error (Argument.notAField v)
  | [], h => h.elim
  | item :: rest, h => by
    rw [itemsSorted, Argument.flattenAll]
    by_cases hitem : item.HasHole
    · obtain ⟨v, hv⟩ := flatten_sorted_of_hasHole item hitem
      rw [hv]
      exact ⟨v, rfl⟩
    · obtain ⟨v, hv⟩ := flattenAll_itemsSorted_of_itemsHaveHole rest (h.resolve_left hitem)
      rw [flatten_sorted_of_not_hasHole item hitem, hv]
      exact ⟨v, rfl⟩

end

/-! ## The numbers of a value -/

/-- The leaves of a blob are its bytes in decimal. -/
theorem leaves_ofBytes (bytes : Bytes) :
    (ofBytes bytes).leaves = bytes.map fun b => String.ofList (Text.decimal b.toNat) := by
  show itemsLeaves (bytes.map fun b => ofNat b.toNat) = _
  induction bytes with
  | nil => rfl
  | cons b rest ih =>
    have hb : ¬ (b.toNat : Int) < 0 := Int.not_lt.2 (Int.natCast_nonneg _)
    rw [List.map_cons, itemsLeaves, ih]
    simp [ofNat, leaves, Number.chars, Text.decimalInt, hb]

end Json

/-! ## The leaves of an argument -/

namespace Argument

mutual

/-- **Whether an argument is free of floating-point numbers.** The keys of a map need not be, as
they are written as texts. The integers of a JSON value are those that a machine word holds: any
other number of such a value is a double. -/
def IsFloatFree : Argument → Prop
  | .double _ | .single _ => False
  | .json value => value.HoldsWords
  | .present content | .tagged _ content => IsFloatFree content
  | .sequence items => ItemsAreFloatFree items
  | .map entries => ValuesAreFloatFree entries
  | .unit | .bool _ | .integer _ | .char _ | .text _ | .bytes _ | .variant _ => True

/-- Whether several items are. -/
def ItemsAreFloatFree : List Argument → Prop
  | [] => True
  | item :: rest => IsFloatFree item ∧ ItemsAreFloatFree rest

/-- Whether the values of a map are. -/
def ValuesAreFloatFree : List (Argument × Argument) → Prop
  | [] => True
  | (_, value) :: rest => IsFloatFree value ∧ ValuesAreFloatFree rest

end

mutual

/-- **The leaves of an argument**, from left to right: texts as they are, integers in decimal and
truth values as one or zero. There are none in what becomes `null` or an object. -/
def leaves : Argument → List String
  | .present content => leaves content
  | .bool value => [if value then "1" else "0"]
  | .integer value => [String.ofList (Text.decimalInt value)]
  | .char value => [String.ofList [value]]
  | .text value => [value]
  | .bytes value => value.map fun b => String.ofList (Text.decimal b.toNat)
  | .json value => value.leaves
  | .variant name => [name]
  | .sequence items => itemsLeaves items
  | .unit | .double _ | .single _ | .tagged _ _ | .map _ => []

/-- The leaves of several items. -/
def itemsLeaves : List Argument → List String
  | [] => []
  | item :: rest => leaves item ++ itemsLeaves rest

end

/-! ## What is encoded -/

/-- An integer that is encoded is a number that a word holds. -/
theorem encodeInteger_eq_some_iff {value : Int} {j : Json} :
    encodeInteger value = some j ↔ Json.IsWord value ∧ j = .number (.integer value) := by
  unfold encodeInteger Json.IsWord
  split
  · next h => simp [h, eq_comm]
  · next h => simp [h]

/-- The first item is encoded, and so are the others. -/
theorem itemsToJson?_cons_eq_some_iff {item : Argument} {rest : List Argument} {js : List Json} :
    itemsToJson? (item :: rest) = some js ↔
      ∃ j more, item.toJson? = some j ∧ itemsToJson? rest = some more ∧ js = j :: more := by
  rw [itemsToJson?]
  cases toJson? item <;> cases itemsToJson? rest <;> simp [eq_comm]

mutual

/-- **An argument that is free of floats is encoded with integers only**, each of which a word
holds. -/
theorem holdsWords_of_toJson? : (a : Argument) → a.IsFloatFree → {j : Json} →
    a.toJson? = some j → j.HoldsWords
  | .unit, _, _, h | .bool _, _, _, h | .char _, _, _, h | .text _, _, _, h
  | .variant _, _, _, h => by cases h; trivial
  | .double _, hfree, _, _ | .single _, hfree, _, _ => hfree.elim
  | .bytes value, _, _, h => by cases h; exact Json.holdsWords_ofBytes value
  | .json _, hfree, _, h => by cases h; exact hfree
  | .present content, hfree, _, h => holdsWords_of_toJson? content hfree h
  | .integer _, _, _, h => by
    obtain ⟨hword, rfl⟩ := encodeInteger_eq_some_iff.1 h
    exact hword
  | .tagged name content, hfree, _, h => by
    obtain ⟨j, hj, rfl⟩ := Option.map_eq_some_iff.1 h
    exact ⟨holdsWords_of_toJson? content hfree hj, trivial⟩
  | .sequence items, hfree, _, h => by
    obtain ⟨js, hjs, rfl⟩ := Option.map_eq_some_iff.1 h
    exact itemsHoldWords_of_itemsToJson? items hfree hjs
  | .map entries, hfree, _, h => by
    obtain ⟨members, hmembers, rfl⟩ := Option.map_eq_some_iff.1 h
    exact Json.holdsWords_ofMembers (membersHoldWords_of_entriesToJson? entries hfree hmembers)

/-- So are several items. -/
theorem itemsHoldWords_of_itemsToJson? : (items : List Argument) → ItemsAreFloatFree items →
    {js : List Json} → itemsToJson? items = some js → Json.ItemsHoldWords js
  | [], _, _, h => by cases h; trivial
  | item :: rest, hfree, _, h => by
    obtain ⟨j, more, hj, hmore, rfl⟩ := itemsToJson?_cons_eq_some_iff.1 h
    exact ⟨holdsWords_of_toJson? item hfree.1 hj,
      itemsHoldWords_of_itemsToJson? rest hfree.2 hmore⟩

/-- So are the values of a map. -/
theorem membersHoldWords_of_entriesToJson? : (entries : List (Argument × Argument)) →
    ValuesAreFloatFree entries → {members : List (String × Json)} →
    entriesToJson? entries = some members → Json.MembersHoldWords members
  | [], _, _, h => by cases h; trivial
  | (key, value) :: rest, hfree, members, h => by
    rw [entriesToJson?] at h
    obtain ⟨k, -, h⟩ := Option.bind_eq_some_iff.1 h
    obtain ⟨j, hj, h⟩ := Option.bind_eq_some_iff.1 h
    obtain ⟨more, hmore, h⟩ := Option.bind_eq_some_iff.1 h
    cases h
    exact ⟨holdsWords_of_toJson? value hfree.1 hj,
      membersHoldWords_of_entriesToJson? rest hfree.2 hmore⟩

end

mutual

/-- **What is encoded has the leaves of the argument.** -/
theorem leaves_of_toJson? : (a : Argument) → a.IsFloatFree → {j : Json} → a.toJson? = some j →
    j.leaves = a.leaves
  | .unit, _, _, h | .bool _, _, _, h | .char _, _, _, h | .text _, _, _, h
  | .variant _, _, _, h | .json _, _, _, h => by cases h; rfl
  | .double _, hfree, _, _ | .single _, hfree, _, _ => hfree.elim
  | .bytes value, _, _, h => by cases h; exact Json.leaves_ofBytes value
  | .present content, hfree, _, h => leaves_of_toJson? content hfree h
  | .integer _, _, _, h => by
    obtain ⟨-, rfl⟩ := encodeInteger_eq_some_iff.1 h
    rfl
  | .tagged _ _, _, _, h => by
    obtain ⟨_, -, rfl⟩ := Option.map_eq_some_iff.1 h
    rfl
  | .sequence items, hfree, _, h => by
    obtain ⟨js, hjs, rfl⟩ := Option.map_eq_some_iff.1 h
    exact itemsLeaves_of_itemsToJson? items hfree hjs
  | .map _, _, _, h => by
    obtain ⟨_, -, rfl⟩ := Option.map_eq_some_iff.1 h
    rfl

/-- So do several items. -/
theorem itemsLeaves_of_itemsToJson? : (items : List Argument) → ItemsAreFloatFree items →
    {js : List Json} → itemsToJson? items = some js → Json.itemsLeaves js = itemsLeaves items
  | [], _, _, h => by cases h; rfl
  | item :: rest, hfree, _, h => by
    obtain ⟨j, more, hj, hmore, rfl⟩ := itemsToJson?_cons_eq_some_iff.1 h
    rw [Json.itemsLeaves, itemsLeaves, leaves_of_toJson? item hfree.1 hj,
      itemsLeaves_of_itemsToJson? rest hfree.2 hmore]

end

/-! ## The way to the command line -/

/-- **The text of a value is flattened into its leaves**, unless it nests too deep to be read or
there is something in it that is no field element. -/
theorem flattenText_text {j : Json} (h : j.HoldsWords) :
    (128 ≤ j.depth → flattenText j.text = .error .encoding)
      ∧ (j.depth < 128 → j.HasHole →
          ∃ v, flattenText j.text = .error (notAField v))
      ∧ (j.depth < 128 → ¬ j.HasHole → flattenText j.text = .ok j.leaves) := by
  have hread : j.depth < 128 → flattenText j.text = flatten j.sorted := by
    intro hdepth
    have hlimit : j.depth ≤ Json.maxDepth := Nat.le_of_lt_succ hdepth
    rw [flattenText, Json.parse?_text h, if_pos hlimit]
  refine ⟨fun hdepth => ?_, fun hdepth hhole => ?_, fun hdepth hhole => ?_⟩
  · have hlimit : ¬ j.depth ≤ Json.maxDepth := Nat.not_le.2 hdepth
    rw [flattenText, Json.parse?_text h, if_neg hlimit]
  · rw [hread hdepth]
    exact Json.flatten_sorted_of_hasHole j hhole
  · rw [hread hdepth]
    exact Json.flatten_sorted_of_not_hasHole j hhole

/-- **Arguments survive the way to the command line.** An argument without floats that can be
encoded is written as the text of a value `j`. If 128 or more arrays and objects nest in it, the
text is not read. If `null` or an object occurs anywhere in it, there is no element for that. And
otherwise its elements are the leaves of the argument, from left to right, each as it was. -/
theorem flattenText_of_encode {a : Argument} {text : String} (hfree : a.IsFloatFree)
    (hencode : a.encode = .ok text) :
    ∃ j, a.toJson? = some j ∧ text = j.text
      ∧ (128 ≤ j.depth → flattenText text = .error .encoding)
      ∧ (j.depth < 128 → j.HasHole →
          ∃ message, flattenText text = .error (.stage .witness message))
      ∧ (j.depth < 128 → ¬ j.HasHole → flattenText text = .ok a.leaves) := by
  unfold encode at hencode
  split at hencode
  · next j hj =>
    cases hencode
    obtain ⟨hdeep, hhole, hleaves⟩ := flattenText_text (holdsWords_of_toJson? a hfree hj)
    rw [leaves_of_toJson? a hfree hj] at hleaves
    refine ⟨j, hj, rfl, hdeep, fun hdepth h => ?_, hleaves⟩
    obtain ⟨v, hv⟩ := hhole hdepth h
    exact ⟨_, hv⟩
  · cases hencode

/-- Arguments in brackets, with what has to be escaped in a text and with the largest and the
smallest integer there is. -/
def bracketed : Argument :=
  .sequence [.text "a\"b\\c\n\x01é", .integer 18446744073709551615,
    .sequence [.integer (-9223372036854775808), .sequence [.bool true], .bytes [0, 255]],
    .present (.char '7')]

/-- The text that they are encoded as. -/
def bracketedText : String :=
  "[\"a\\\"b\\\\c\\n\\u0001é\",18446744073709551615,"
    ++ "[-9223372036854775808,[true],[0,255]],\"7\"]"

theorem flattenText_of_encode_bracketed :
    bracketed.IsFloatFree ∧ bracketed.encode = .ok bracketedText
      ∧ flattenText bracketedText = .ok ["a\"b\\c\n\x01é", "18446744073709551615",
          "-9223372036854775808", "1", "0", "255", "7"] := by
  have hfree : bracketed.IsFloatFree := by
    simp [bracketed, IsFloatFree, ItemsAreFloatFree]
  have hencode : bracketed.encode = .ok bracketedText := by rfl
  refine ⟨hfree, hencode, ?_⟩
  obtain ⟨j, hj, -, -, -, hleaves⟩ := flattenText_of_encode hfree hencode
  cases hj
  refine hleaves (by decide) ?_
  simp [Json.HasHole, Json.ItemsHaveHole, Json.ofBytes, Json.ofNat]

end Argument

end ProofToolchain
