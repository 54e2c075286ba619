import ProofToolchain.Proofs.Abi.Description

/-!
# Outputs are distributed exactly

Decoding hands one list of scalars from one part of a type to the next, through arrays of any size,
tuples and structs in any nesting. What keeps that in order is one fact about every part: given as
many scalars as it has leaves, and whatever follows them, it takes those and leaves what follows
(`Takes`). Conversely a part that was decoded took as many scalars as it has leaves, whatever its
description lacks (`length_of_decode`). So an output is decoded exactly when there are as many
scalars as leaves.

Which scalar went where is seen by **reading the value back** along the type, in the order of its
description (`readBack`). A struct is an object, which keeps its members in the order of their
names and not in that of the description, so members are read by name; this finds all of them as
long as no name is given twice.
-/

namespace ProofToolchain.OutputType

/-! ## Reading a value back -/

/-- Several values read back one after another. -/
def readAll (read : Json → Option (List Json)) : List Json → Option (List Json)
  | [] => some []
  | item :: items => do return (← read item) ++ (← readAll read items)

mutual

/-- **A value read back along its type**: the scalars it is made of, in the order of the
description. There are none if the value is not of the type. -/
def readBack : OutputType → Json → Option (List Json)
  | .scalar _, value => some [value]
  | .array size element, .array items =>
    if items.length = size then readAll (readBack element) items else none
  | .tuple elements, .array items => readBackElements elements items
  | .struct members, .object entries => readBackMembers members entries
  | _, _ => none

/-- The items of a tuple read back. -/
def readBackElements : List OutputType → List Json → Option (List Json)
  | [], [] => some []
  | t :: ts, item :: items => do return (← readBack t item) ++ (← readBackElements ts items)
  | _, _ => none

/-- The members of a struct read back, each under its name. -/
def readBackMembers : List (String × OutputType) → List (String × Json) → Option (List Json)
  | [], _ => some []
  | (name, t) :: ts, entries => do
    let value ← Entries.get? name entries
    return (← readBack t value) ++ (← readBackMembers ts entries)

end

/-! ## What a decoder takes -/

/-- **A decoder takes `n` scalars**: it consumes them and leaves whatever follows, and what it makes
of them satisfies `P`. -/
def Takes {α : Type} (decoder : List String → Except Error (α × List String)) (n : Nat)
    (P : List String → α → Prop) : Prop :=
  ∀ taken rest : List String, taken.length = n →
    ∃ a, decoder (taken ++ rest) = .ok (a, rest) ∧ P taken a

/-- What each of the scalars is decoded as, by the types at the leaves. -/
abbrev decodedAs (scalars : List String) (taken : List String) : List Json :=
  List.zipWith decodeScalar scalars taken

section Takes

variable {α : Type} {decoder : List String → Except Error (α × List String)}

/-- Scalars enough for two are split between them. -/
theorem Takes.split {n m : Nat} {P : List String → α → Prop} (h : Takes decoder n P)
    {taken : List String} (htaken : taken.length = n + m) (rest : List String) :
    ∃ a, decoder (taken ++ rest) = .ok (a, taken.drop n ++ rest) ∧ P (taken.take n) a
      ∧ (taken.drop n).length = m := by
  obtain ⟨a, hdecoder, ha⟩ := h (taken.take n) (taken.drop n ++ rest) (by simp; omega)
  rw [← List.append_assoc, List.take_append_drop] at hdecoder
  exact ⟨a, hdecoder, ha, by simp; omega⟩

/-- What the first and the last scalars are decoded as. -/
theorem decodedAs_append {first last taken : List String} (h : first.length ≤ taken.length) :
    decodedAs (first ++ last) taken
      = decodedAs first (taken.take first.length) ++ decodedAs last (taken.drop first.length) := by
  refine (congrArg (decodedAs _) (List.take_append_drop first.length taken).symm).trans ?_
  exact List.zipWith_append (by simp; omega)

end Takes

/-- **An array of any size takes its elements one after another.** -/
theorem Takes.times {decoder : List String → Except Error (Json × List String)}
    {read : Json → Option (List Json)} {scalars : List String} {distinct : Prop}
    (h : Takes decoder scalars.length fun taken value =>
      distinct → read value = some (decodedAs scalars taken)) :
    ∀ size, Takes (OutputType.times decoder size) (size * scalars.length) fun taken items =>
      items.length = size ∧ (distinct →
        readAll read items = some (decodedAs (List.replicate size scalars).flatten taken))
  | 0, taken, rest, htaken => by
    obtain rfl : taken = [] := List.length_eq_zero_iff.1 (by simpa using htaken)
    exact ⟨[], rfl, rfl, fun _ => rfl⟩
  | size + 1, taken, rest, htaken => by
    rw [Nat.succ_mul, Nat.add_comm] at htaken
    obtain ⟨item, hitem, hread, hlength⟩ := h.split htaken rest
    obtain ⟨items, hitems, hsize, hreadAll⟩ := h.times size _ rest hlength
    refine ⟨item :: items, ?_, by rw [List.length_cons, hsize], fun hdistinct => ?_⟩
    · rw [OutputType.times, hitem]
      show (OutputType.times decoder size _ >>= _) = _
      rw [hitems]
      rfl
    · rw [readAll, hread hdistinct, hreadAll hdistinct, List.replicate_succ, List.flatten_cons,
        decodedAs_append (by omega)]
      rfl

/-! ## What a type takes -/

/-- A member that was decoded under a name that no other one has is found under it. -/
theorem get?_ofMembers {pairs : List (String × Json)} (h : (pairs.map Prod.fst).Nodup)
    {name : String} {value : Json} (hmem : (name, value) ∈ pairs) :
    Entries.get? name (Entries.setAll [] pairs) = some value :=
  (Entries.get?_setAll h).2 (.inl hmem)

mutual

/-- **A type takes as many scalars as it has leaves**, and reading back what it makes of them finds
each of them in its place. -/
theorem Describes.takes : ∀ {name : String} {components : Option Json} {t : OutputType},
    Describes name components t → Takes t.decode t.scalars.length fun taken value =>
      t.HasDistinctNames → readBack t value = some (decodedAs t.scalars taken)
  | _, _, _, .scalar .. => fun taken rest htaken => by
    obtain ⟨value, rfl⟩ := List.length_eq_one_iff.1 htaken
    exact ⟨_, rfl, fun _ => rfl⟩
  | _, _, _, @Describes.array _ size _ _ helement => fun taken rest htaken => by
    obtain ⟨items, hitems, hsize, hread⟩ :=
      helement.takes.times size taken rest (by simpa [scalars] using htaken)
    refine ⟨.array items, by rw [decode, hitems]; rfl, fun hdistinct => ?_⟩
    rw [readBack, if_pos hsize, hread hdistinct]
    rfl
  | _, _, _, .tuple _ helements => fun taken rest htaken => by
    obtain ⟨items, hitems, hread⟩ := helements.takes taken rest htaken
    exact ⟨.array items, by rw [decode, hitems]; rfl, hread⟩
  | _, _, _, .struct _ hmembers => fun taken rest htaken => by
    obtain ⟨pairs, hpairs, hnames, hread⟩ := hmembers.takes taken rest htaken
    refine ⟨.ofMembers pairs, by rw [decode, hpairs]; rfl, fun ⟨hnodup, hdistinct⟩ => ?_⟩
    exact hread hdistinct _ fun name value hmem => get?_ofMembers (hnames ▸ hnodup) hmem

theorem DescribesNested.takes : ∀ {item : Json} {t : OutputType},
    DescribesNested item t → Takes t.decode t.scalars.length fun taken value =>
      t.HasDistinctNames → readBack t value = some (decodedAs t.scalars taken)
  | _, _, .mk _ ht => ht.takes

theorem DescribesElements.takes : ∀ {items : List Json} {ts : List OutputType},
    DescribesElements items ts →
      Takes (decodeElements ts) (scalarsOfElements ts).length fun taken values =>
        ElementsHaveDistinctNames ts →
          readBackElements ts values = some (decodedAs (scalarsOfElements ts) taken)
  | _, _, .nil => fun taken rest htaken => by
    obtain rfl : taken = [] := List.length_eq_zero_iff.1 htaken
    exact ⟨[], rfl, fun _ => rfl⟩
  | _, _, .cons ht hts => fun taken rest htaken => by
    rw [scalarsOfElements, List.length_append] at htaken
    obtain ⟨value, hvalue, hread, hlength⟩ := ht.takes.split htaken rest
    obtain ⟨values, hvalues, hreadRest⟩ := hts.takes _ rest hlength
    refine ⟨value :: values, ?_, fun ⟨hdistinct, hrest⟩ => ?_⟩
    · rw [decodeElements, hvalue]
      show (decodeElements _ _ >>= _) = _
      rw [hvalues]
      rfl
    · rw [readBackElements, hread hdistinct, hreadRest hrest, scalarsOfElements,
        decodedAs_append (by omega)]
      rfl

theorem DescribesMembers.takes : ∀ {items : List Json} {ts : List (String × OutputType)},
    DescribesMembers items ts →
      Takes (decodeMembers ts) (scalarsOfMembers ts).length fun taken pairs =>
        pairs.map Prod.fst = ts.map Prod.fst ∧ (MembersHaveDistinctNames ts →
          ∀ entries : List (String × Json),
            (∀ name value, (name, value) ∈ pairs → Entries.get? name entries = some value) →
            readBackMembers ts entries = some (decodedAs (scalarsOfMembers ts) taken))
  | _, _, .nil => fun taken rest htaken => by
    obtain rfl : taken = [] := List.length_eq_zero_iff.1 htaken
    exact ⟨[], rfl, rfl, fun _ _ _ => rfl⟩
  | _, _, @DescribesMembers.cons _ _ name _ _ _ ht hts => fun taken rest htaken => by
    rw [scalarsOfMembers, List.length_append] at htaken
    obtain ⟨value, hvalue, hread, hlength⟩ := ht.takes.split htaken rest
    obtain ⟨pairs, hpairs, hnames, hreadRest⟩ := hts.takes _ rest hlength
    refine ⟨(name, value) :: pairs, ?_, by rw [List.map_cons, List.map_cons, hnames], ?_⟩
    · rw [decodeMembers, hvalue]
      show (decodeMembers _ _ >>= _) = _
      rw [hpairs]
      rfl
    · intro ⟨hdistinct, hrest⟩ entries hentries
      have hvalueAt := hentries name value List.mem_cons_self
      have hrestAt := hreadRest hrest entries fun n v hmem =>
        hentries n v (List.mem_cons_of_mem _ hmem)
      rw [readBackMembers, hvalueAt]
      show (readBack _ _ >>= _) = _
      rw [hread hdistinct, hrestAt, scalarsOfMembers, decodedAs_append (by omega)]
      rfl

end

/-! ## What was taken -/

/-- What a sequence of two steps yields comes of both. -/
theorem bind_eq_ok {α β : Type} {x : Except Error α} {f : α → Except Error β} {b : β}
    (h : (x >>= f) = .ok b) : ∃ a, x = .ok a ∧ f a = .ok b := by
  cases x with
  | error e => cases h
  | ok a => exact ⟨a, rfl, h⟩

/-- An array took as much as its elements did together. -/
theorem length_of_times {decoder : List String → Except Error (Json × List String)} {n : Nat}
    (h : ∀ values value rest, decoder values = .ok (value, rest) →
      values.length = n + rest.length) :
    ∀ {size : Nat} {values rest : List String} {items : List Json},
      times decoder size values = .ok (items, rest) → values.length = size * n + rest.length
  | 0, values, rest, items, htimes => by
    cases htimes
    simp
  | size + 1, values, rest, items, htimes => by
    obtain ⟨⟨item, middle⟩, hitem, htimes⟩ := bind_eq_ok htimes
    obtain ⟨⟨items, last⟩, hitems, htimes⟩ := bind_eq_ok htimes
    cases htimes
    have hfirst := h _ _ _ hitem
    have hothers := length_of_times h hitems
    rw [Nat.succ_mul]
    omega

mutual

/-- **A decoded type took as many scalars as it has leaves.** -/
theorem length_of_decode : ∀ {t : OutputType} {values rest : List String} {value : Json},
    t.decode values = .ok (value, rest) → values.length = t.leaves + rest.length
  | .scalar _, value :: values, rest, _, h => by
    cases h
    simp [leaves, Nat.add_comm]
  | .scalar _, [], _, _, h => by cases h
  | .array size element, values, rest, _, h => by
    rw [decode] at h
    obtain ⟨⟨items, last⟩, hitems, h⟩ := bind_eq_ok h
    cases h
    exact length_of_times (fun _ _ _ => length_of_decode) hitems
  | .tuple elements, values, rest, _, h => by
    rw [decode] at h
    obtain ⟨⟨items, last⟩, hitems, h⟩ := bind_eq_ok h
    cases h
    exact length_of_decodeElements hitems
  | .struct members, values, rest, _, h => by
    rw [decode] at h
    obtain ⟨⟨pairs, last⟩, hpairs, h⟩ := bind_eq_ok h
    cases h
    exact length_of_decodeMembers hpairs
  | .malformed _, _, _, _, h => by
    rw [decode] at h
    cases h

theorem length_of_decodeElements :
    ∀ {ts : List OutputType} {values rest : List String} {items : List Json},
      decodeElements ts values = .ok (items, rest) →
        values.length = leavesOfElements ts + rest.length
  | [], values, rest, items, h => by
    cases h
    simp [leavesOfElements]
  | t :: ts, values, rest, items, h => by
    rw [decodeElements] at h
    obtain ⟨⟨item, middle⟩, hitem, h⟩ := bind_eq_ok h
    obtain ⟨⟨items, last⟩, hitems, h⟩ := bind_eq_ok h
    cases h
    have hfirst := length_of_decode hitem
    have hothers := length_of_decodeElements hitems
    rw [leavesOfElements]
    omega

theorem length_of_decodeMembers :
    ∀ {ts : List (String × OutputType)} {values rest : List String}
      {pairs : List (String × Json)}, decodeMembers ts values = .ok (pairs, rest) →
        values.length = leavesOfMembers ts + rest.length
  | [], values, rest, pairs, h => by
    cases h
    simp [leavesOfMembers]
  | (name, t) :: ts, values, rest, pairs, h => by
    rw [decodeMembers] at h
    obtain ⟨⟨item, middle⟩, hitem, h⟩ := bind_eq_ok h
    obtain ⟨⟨pairs, last⟩, hpairs, h⟩ := bind_eq_ok h
    cases h
    have hfirst := length_of_decode hitem
    have hothers := length_of_decodeMembers hpairs
    rw [leavesOfMembers]
    omega

end

/-! ## Whole outputs -/

/-- **An output that is described completely is decoded** when there are as many scalars as leaves,
and read back it is these scalars. -/
theorem decodeOutput_of_length {abi : Abi} {type : AbiType} {t : OutputType} {raw : List String}
    (htype : abi.output = some type) (ht : Describes type.name type.components t)
    (hraw : raw.length = t.leaves) :
    ∃ value, decodeOutput raw (some abi) = .ok value
      ∧ (t.HasDistinctNames → t.readBack value = some (decodedAs t.scalars raw)) := by
  obtain ⟨value, hvalue, hread⟩ := ht.takes raw [] (by rw [hraw, length_scalars])
  rw [List.append_nil] at hvalue
  refine ⟨value, ?_, hread⟩
  simp only [decodeOutput, htype, ofAbiType, ht.describe_eq, hvalue]
  rfl

/-- **A decoded output took every scalar.** -/
theorem length_of_decodeOutput {abi : Abi} {type : AbiType} {raw : List String} {value : Json}
    (htype : abi.output = some type) (h : decodeOutput raw (some abi) = .ok value) :
    raw.length = (ofAbiType type).leaves := by
  simp only [decodeOutput, htype] at h
  obtain ⟨⟨decoded, rest⟩, hdecode, h⟩ := bind_eq_ok h
  have hlength := length_of_decode hdecode
  dsimp only at h
  split at h
  · next hrest =>
    rw [hlength, List.isEmpty_iff.1 hrest]
    rfl
  · cases h

/-- A program without an output returns no scalars. -/
theorem decodeOutput_of_none {abi : Abi} (habi : abi.output = none) (raw : List String)
    (value : Json) :
    decodeOutput raw (some abi) = .ok value ↔ raw.length = 0 ∧ value = .array [] := by
  simp only [decodeOutput, habi]
  cases raw with
  | nil =>
    constructor
    · intro h
      cases h
      exact ⟨rfl, rfl⟩
    · rintro ⟨-, rfl⟩
      rfl
  | cons first rest =>
    constructor
    · intro h
      cases h
    · rintro ⟨h, -⟩
      cases h

/-- Field elements are decoded as the texts they are. -/
theorem decodedAs_field {scalars raw : List String} (h : ∀ name ∈ scalars, name = "field")
    (hlength : raw.length = scalars.length) : decodedAs scalars raw = raw.map .string := by
  induction scalars generalizing raw with
  | nil =>
    rw [List.length_eq_zero_iff.1 hlength]
    rfl
  | cons name scalars ih =>
    obtain ⟨value, raw, rfl⟩ := List.exists_cons_of_length_eq_add_one hlength
    have hrest := ih (fun n hn => h n (List.mem_cons_of_mem _ hn)) (Nat.succ.inj hlength)
    rw [h name List.mem_cons_self, List.map_cons, ← hrest]
    rfl

/-- **Outputs are distributed exactly.** An output that is described completely is decoded if and
only if there are as many scalars as leaves. Where no struct has a name twice, the value read back
in the order of the description is these scalars, each decoded as its leaf says, and nothing else.
If all leaves are field elements, that is what is made of the scalars without an interface. An
interface without an output has no leaves, and its value is the empty list. -/
theorem decodeOutput_distributes (abi : Abi) (raw : List String) :
    (abi.output = none →
        ∀ value, decodeOutput raw (some abi) = .ok value ↔ raw.length = 0 ∧ value = .array [])
      ∧ ∀ (type : AbiType) (t : OutputType), abi.output = some type →
          Describes type.name type.components t →
            ((∃ value, decodeOutput raw (some abi) = .ok value) ↔ raw.length = t.leaves)
            ∧ t.scalars.length = t.leaves
            ∧ ∀ value, decodeOutput raw (some abi) = .ok value → t.HasDistinctNames →
                t.readBack value = some (List.zipWith decodeScalar t.scalars raw)
                ∧ ((∀ name ∈ t.scalars, name = "field") →
                    ∃ items, t.readBack value = some items
                      ∧ items = raw.map Json.string
                      ∧ decodeOutput raw none = .ok (.array items)) := by
  refine ⟨fun habi value => decodeOutput_of_none habi raw value, ?_⟩
  intro type t htype ht
  have hleaves : ∀ value, decodeOutput raw (some abi) = .ok value → raw.length = t.leaves := by
    intro value h
    rw [length_of_decodeOutput htype h, ofAbiType, ht.describe_eq]
  refine ⟨⟨fun ⟨value, h⟩ => hleaves value h, fun h => ?_⟩, length_scalars t, ?_⟩
  · obtain ⟨value, hvalue, -⟩ := decodeOutput_of_length htype ht h
    exact ⟨value, hvalue⟩
  · intro value h hdistinct
    obtain ⟨value', hvalue', hread⟩ := decodeOutput_of_length htype ht (hleaves value h)
    obtain rfl : value' = value := Except.ok.inj (hvalue'.symm.trans h)
    refine ⟨hread hdistinct, fun hfield => ⟨_, hread hdistinct, ?_, ?_⟩⟩
    · exact decodedAs_field hfield (by rw [hleaves _ h, length_scalars])
    · rw [decodedAs_field hfield (by rw [hleaves _ h, length_scalars])]
      rfl

/-- A struct of two members, the first of which is an array and the second a tuple with an empty
tuple in it. Its members are in the other order by name. -/
def mixedType : AbiType where
  name := "struct"
  components := some (.object [("members", .array
    [.object [("components", .object [("size", .ofNat 2), ("type", .string "u8")]),
        ("name", .string "b"), ("type", .string "array")],
      .object [("components", .object [("elements", .array
          [.object [("type", .string "bool")],
            .object [("components", .object [("elements", .array [])]),
              ("type", .string "tuple")]])]),
        ("name", .string "a"), ("type", .string "tuple")]])])

/-- The description of that struct lacks nothing. -/
theorem describes_mixedType :
    Describes mixedType.name mixedType.components
      (.struct [("b", .array 2 (.scalar "u8")), ("a", .tuple [.scalar "bool", .tuple []])]) := by
  have hu8 : Describes "u8" none (.scalar "u8") :=
    .scalar (by decide) (by decide) (by decide)
  have hbool : Describes "bool" none (.scalar "bool") :=
    .scalar (by decide) (by decide) (by decide)
  refine .struct rfl (.cons rfl (.mk rfl (.array rfl (.mk rfl hu8))) (.cons rfl (.mk rfl ?_) .nil))
  exact .tuple rfl (.cons (.mk rfl hbool) (.cons (.mk rfl (.tuple rfl .nil)) .nil))

/-- The three scalars of the struct are in their places, although the object has its members in the
other order. -/
theorem decodeOutput_distributes_mixedType :
    ∃ value, decodeOutput ["1", "255", "0"] (some ⟨[], some mixedType⟩) = .ok value
      ∧ value = .object [("a", .array [.bool false, .array []]),
          ("b", .array [.string "0x01", .string "0xff"])]
      ∧ readBack
          (.struct [("b", .array 2 (.scalar "u8")), ("a", .tuple [.scalar "bool", .tuple []])])
          value = some [.string "0x01", .string "0xff", .bool false] := by
  obtain ⟨hiff, -, hread⟩ := (decodeOutput_distributes ⟨[], some mixedType⟩ ["1", "255", "0"]).2
    mixedType _ rfl describes_mixedType
  have hvalue : decodeOutput ["1", "255", "0"] (some ⟨[], some mixedType⟩)
      = .ok (.object [("a", .array [.bool false, .array []]),
          ("b", .array [.string "0x01", .string "0xff"])]) := by
    simp only [decodeOutput, ofAbiType, describes_mixedType.describe_eq]
    rfl
  refine ⟨_, hvalue, rfl, (hread _ hvalue ?_).1⟩
  simp [HasDistinctNames, ElementsHaveDistinctNames, MembersHaveDistinctNames]

end ProofToolchain.OutputType
