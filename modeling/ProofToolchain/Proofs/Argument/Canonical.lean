import ProofToolchain.Proofs.Argument.Flatten
import ProofToolchain.Proofs.Entries
import ProofToolchain.Proofs.Json.Reading

/-!
# The encoding of arguments is canonical

A map is filled in some order, and its encoding does not tell in which: `Argument.Reorders` relates
arguments that differ in nothing else, and they are encoded alike (`toJson?_of_reorders`). Every
map is looked at on its own, once the maps inside it are known to be encoded alike. Two things make
this true of a map whose keys stay distinct as texts. Whether an entry can be encoded does not
depend on the others, so a map fails in every order or in none. And members that are set one after
another leave no trace of their order (`Entries.setAll_eq_of_perm`).

Keys that become one text are what would tell: of `1` and `"1"` the one that is supplied later
stays.

What is encoded also stays as it is. Its text is read as the value it was written from, with its
members in key order already, so encoding that value gives the same text again. Doubles are left
out, and a text that nests more than 127 deep is not read at all.
-/

namespace ProofToolchain.Argument

/-! ## Arguments that differ in the order of entries -/

mutual

/-- **Two arguments differ only in the order of map entries**, at any depth, in keys as in values.
The members of a JSON value are in key order whichever way it was made, so there is nothing to
reorder in it. -/
inductive Reorders : Argument → Argument → Prop
  /-- They need not differ. -/
  | refl (a : Argument) : Reorders a a
  /-- A value that might have been missing. -/
  | present {a b : Argument} (content : Reorders a b) : Reorders (.present a) (.present b)
  /-- An alternative that carries a value. -/
  | tagged {a b : Argument} (name : String) (content : Reorders a b) :
    Reorders (.tagged name a) (.tagged name b)
  /-- A sequence. -/
  | sequence {xs ys : List Argument} (items : ItemsReorder xs ys) :
    Reorders (.sequence xs) (.sequence ys)
  /-- A map: its entries differ one by one, and then they change places. -/
  | map {es fs gs : List (Argument × Argument)} (entries : EntriesReorder es fs)
    (places : fs.Perm gs) : Reorders (.map es) (.map gs)

/-- So do several items, one by one. -/
inductive ItemsReorder : List Argument → List Argument → Prop
  /-- There are none. -/
  | nil : ItemsReorder [] []
  /-- A first item and the others. -/
  | cons {a b : Argument} {xs ys : List Argument} (item : Reorders a b)
    (rest : ItemsReorder xs ys) : ItemsReorder (a :: xs) (b :: ys)

/-- So do several entries, one by one. -/
inductive EntriesReorder :
    List (Argument × Argument) → List (Argument × Argument) → Prop
  /-- There are none. -/
  | nil : EntriesReorder [] []
  /-- A first entry and the others. -/
  | cons {k l a b : Argument} {es fs : List (Argument × Argument)} (key : Reorders k l)
    (value : Reorders a b) (rest : EntriesReorder es fs) :
    EntriesReorder ((k, a) :: es) ((l, b) :: fs)

end

/-- The texts of the keys of a map, as they are supplied. -/
def keyTexts (entries : List (Argument × Argument)) : List String :=
  entries.filterMap fun e => key? e.1

theorem keyTexts_cons (key value : Argument) (rest : List (Argument × Argument)) :
    keyTexts ((key, value) :: rest) = (key? key).toList ++ keyTexts rest := by
  cases hkey : key? key <;> simp [keyTexts, hkey]

mutual

/-- **Keys stay distinct as texts** in every map, at any depth. -/
def HasDistinctKeys : Argument → Prop
  | .present content | .tagged _ content => HasDistinctKeys content
  | .sequence items => ItemsHaveDistinctKeys items
  | .map entries => (keyTexts entries).Nodup ∧ ValuesHaveDistinctKeys entries
  | .unit | .bool _ | .integer _ | .double _ | .single _ | .char _ | .text _ | .bytes _
  | .json _ | .variant _ => True

/-- So they do in several items. -/
def ItemsHaveDistinctKeys : List Argument → Prop
  | [] => True
  | item :: rest => HasDistinctKeys item ∧ ItemsHaveDistinctKeys rest

/-- So they do in the values of a map. -/
def ValuesHaveDistinctKeys : List (Argument × Argument) → Prop
  | [] => True
  | (_, value) :: rest => HasDistinctKeys value ∧ ValuesHaveDistinctKeys rest

end

/-- A key has the same text, since a map has none. -/
theorem key?_of_reorders {k l : Argument} (h : Reorders k l) : key? k = key? l := by
  cases h <;> rfl

theorem keyTexts_of_entriesReorder : {es fs : List (Argument × Argument)} →
    EntriesReorder es fs → keyTexts es = keyTexts fs
  | _, _, .nil => rfl
  | _, _, .cons key _ rest => by
    rw [keyTexts_cons, keyTexts_cons, key?_of_reorders key, keyTexts_of_entriesReorder rest]

/-! ## Maps whose entries change places -/

/-- An entry becomes a member on its own. -/
def entryToJson? (e : Argument × Argument) : Option (String × Json) :=
  (key? e.1).bind fun k => (toJson? e.2).map fun j => (k, j)

theorem entriesToJson?_cons (e : Argument × Argument) (rest : List (Argument × Argument)) :
    entriesToJson? (e :: rest)
      = (entryToJson? e).bind fun m => (entriesToJson? rest).map (m :: ·) := by
  obtain ⟨key, value⟩ := e
  rw [entriesToJson?, entryToJson?]
  cases key? key <;> cases toJson? value <;> cases entriesToJson? rest <;> rfl

/-- The first entry becomes a member, and so do the others. -/
theorem entriesToJson?_cons_eq_some_iff {e : Argument × Argument}
    {rest : List (Argument × Argument)} {ms : List (String × Json)} :
    entriesToJson? (e :: rest) = some ms ↔
      ∃ m more, entryToJson? e = some m ∧ entriesToJson? rest = some more ∧ ms = m :: more := by
  rw [entriesToJson?_cons]
  cases entryToJson? e <;> cases entriesToJson? rest <;> simp [eq_comm]

/-- **Entries that change places become members that change places.** -/
theorem exists_perm_of_entriesToJson? {es fs : List (Argument × Argument)} (h : es.Perm fs) :
    ∀ {ms : List (String × Json)}, entriesToJson? es = some ms →
      ∃ ns, entriesToJson? fs = some ns ∧ ms.Perm ns := by
  induction h with
  | nil => exact fun hms => ⟨_, hms, .refl _⟩
  | cons e _ ih =>
    intro ms hms
    obtain ⟨m, more, hm, hmore, rfl⟩ := entriesToJson?_cons_eq_some_iff.1 hms
    obtain ⟨others, hothers, hperm⟩ := ih hmore
    exact ⟨m :: others, entriesToJson?_cons_eq_some_iff.2 ⟨m, others, hm, hothers, rfl⟩,
      hperm.cons m⟩
  | swap e d rest =>
    intro ms hms
    obtain ⟨n, _, hn, htail, rfl⟩ := entriesToJson?_cons_eq_some_iff.1 hms
    obtain ⟨m, more, hm, hmore, rfl⟩ := entriesToJson?_cons_eq_some_iff.1 htail
    have hswapped := entriesToJson?_cons_eq_some_iff.2 ⟨n, more, hn, hmore, rfl⟩
    exact ⟨m :: n :: more, entriesToJson?_cons_eq_some_iff.2 ⟨m, _, hm, hswapped, rfl⟩,
      .swap m n more⟩
  | trans _ _ ih ih' =>
    intro ms hms
    obtain ⟨ns, hns, hperm⟩ := ih hms
    obtain ⟨os, hos, hperm'⟩ := ih' hns
    exact ⟨os, hos, hperm.trans hperm'⟩

/-- The keys of the members are the texts of the keys. -/
theorem map_fst_of_entriesToJson? : {es : List (Argument × Argument)} →
    {ms : List (String × Json)} → entriesToJson? es = some ms → ms.map Prod.fst = keyTexts es
  | [], _, h => by cases h; rfl
  | (key, value) :: rest, _, h => by
    obtain ⟨_, more, hm, hmore, rfl⟩ := entriesToJson?_cons_eq_some_iff.1 h
    obtain ⟨k, hk, hvalue⟩ := Option.bind_eq_some_iff.1 hm
    obtain ⟨j, -, rfl⟩ := Option.map_eq_some_iff.1 hvalue
    rw [keyTexts_cons, hk, List.map_cons, map_fst_of_entriesToJson? hmore]
    rfl

/-- **A map is encoded alike in every order** of its entries, or in none. -/
theorem ofMembers_of_perm {es fs : List (Argument × Argument)} (h : es.Perm fs)
    (hnodup : (keyTexts es).Nodup) :
    (entriesToJson? es).map Json.ofMembers = (entriesToJson? fs).map Json.ofMembers := by
  cases hes : entriesToJson? es with
  | some ms =>
    obtain ⟨ns, hns, hperm⟩ := exists_perm_of_entriesToJson? h hes
    rw [← map_fst_of_entriesToJson? hes] at hnodup
    rw [hns, Option.map_some, Option.map_some, Json.ofMembers, Json.ofMembers,
      Entries.setAll_eq_of_perm Entries.ordered_nil hperm hnodup]
  | none =>
    cases hfs : entriesToJson? fs with
    | none => rfl
    | some ns =>
      obtain ⟨ms, hms, -⟩ := exists_perm_of_entriesToJson? h.symm hfs
      rw [hes] at hms
      cases hms

mutual

/-- **Arguments that differ only in the order of entries are encoded alike**, if keys stay
distinct. -/
theorem toJson?_of_reorders : {a b : Argument} → Reorders a b → a.HasDistinctKeys →
    a.toJson? = b.toJson?
  | _, _, .refl _, _ => rfl
  | _, _, .present content, h => by
    rw [toJson?, toJson?]
    exact toJson?_of_reorders content h
  | _, _, .tagged name content, h =>
    congrArg (Option.map fun j => Json.object [(name, j)]) (toJson?_of_reorders content h)
  | _, _, .sequence items, h => congrArg (Option.map Json.array) (itemsToJson?_of_reorder items h)
  | _, _, @Reorders.map es fs gs entries places, h => by
    show (entriesToJson? es).map Json.ofMembers = (entriesToJson? gs).map Json.ofMembers
    have hnodup : (keyTexts fs).Nodup := keyTexts_of_entriesReorder entries ▸ h.1
    rw [entriesToJson?_of_reorder entries h.2]
    exact ofMembers_of_perm places hnodup

/-- So are several items. -/
theorem itemsToJson?_of_reorder : {xs ys : List Argument} → ItemsReorder xs ys →
    ItemsHaveDistinctKeys xs → itemsToJson? xs = itemsToJson? ys
  | _, _, .nil, _ => rfl
  | _, _, .cons item rest, h => by
    rw [itemsToJson?, itemsToJson?, toJson?_of_reorders item h.1,
      itemsToJson?_of_reorder rest h.2]

/-- So are several entries. -/
theorem entriesToJson?_of_reorder : {es fs : List (Argument × Argument)} →
    EntriesReorder es fs → ValuesHaveDistinctKeys es → entriesToJson? es = entriesToJson? fs
  | _, _, .nil, _ => rfl
  | _, _, .cons key value rest, h => by
    rw [entriesToJson?, entriesToJson?, key?_of_reorders key, toJson?_of_reorders value h.1,
      entriesToJson?_of_reorder rest h.2]

end

/-! ## What is encoded stays as it is -/

mutual

/-- **The JSON values of an argument have their members in key order**, each key once, as all
JSON values have that were read from a text or made of members. -/
def IsOrdered : Argument → Prop
  | .json value => value.sorted = value
  | .present content | .tagged _ content => IsOrdered content
  | .sequence items => ItemsAreOrdered items
  | .map entries => ValuesAreOrdered entries
  | .unit | .bool _ | .integer _ | .double _ | .single _ | .char _ | .text _ | .bytes _
  | .variant _ => True

/-- So have those of several items. -/
def ItemsAreOrdered : List Argument → Prop
  | [] => True
  | item :: rest => IsOrdered item ∧ ItemsAreOrdered rest

/-- So have those of the values of a map. -/
def ValuesAreOrdered : List (Argument × Argument) → Prop
  | [] => True
  | (_, value) :: rest => IsOrdered value ∧ ValuesAreOrdered rest

end

/-- Members that are set one after another are sorted if their values are. -/
theorem sorted_ofMembers {members : List (String × Json)} (h : ∀ m ∈ members, m.2.sorted = m.2) :
    (Json.ofMembers members).sorted = Json.ofMembers members :=
  Json.sorted_object (Entries.ordered_nil.setAll members) fun m hm =>
    h m ((Entries.mem_setAll hm).resolve_left List.not_mem_nil)

theorem sorted_encodeFloating (value : Floating.Value) :
    (encodeFloating value).sorted = encodeFloating value := by
  unfold encodeFloating
  split
  · split <;> rfl
  · rfl

mutual

/-- **What is encoded has its members in key order.** -/
theorem sorted_of_toJson? : (a : Argument) → a.IsOrdered → {j : Json} → a.toJson? = some j →
    j.sorted = j
  | .unit, _, _, h | .bool _, _, _, h | .char _, _, _, h | .text _, _, _, h
  | .variant _, _, _, h => by cases h; rfl
  | .double value, _, _, h | .single value, _, _, h => by
    cases h
    exact sorted_encodeFloating value
  | .bytes value, _, _, h => by
    cases h
    refine congrArg Json.array (Json.itemsSorted_eq fun item hitem => ?_)
    obtain ⟨b, -, rfl⟩ := List.mem_map.1 hitem
    rfl
  | .json _, hordered, _, h => by cases h; exact hordered
  | .present content, hordered, _, h => sorted_of_toJson? content hordered h
  | .integer _, _, _, h => by
    obtain ⟨-, rfl⟩ := encodeInteger_eq_some_iff.1 h
    rfl
  | .tagged name content, hordered, _, h => by
    obtain ⟨j, hj, rfl⟩ := Option.map_eq_some_iff.1 h
    have hmember : ∀ m ∈ [(name, j)], m.2.sorted = m.2 :=
      List.forall_mem_singleton.2 (sorted_of_toJson? content hordered hj)
    exact sorted_ofMembers hmember
  | .sequence items, hordered, _, h => by
    obtain ⟨js, hjs, rfl⟩ := Option.map_eq_some_iff.1 h
    exact congrArg Json.array (Json.itemsSorted_eq (sorted_of_itemsToJson? items hordered hjs))
  | .map entries, hordered, _, h => by
    obtain ⟨members, hmembers, rfl⟩ := Option.map_eq_some_iff.1 h
    exact sorted_ofMembers (sorted_of_entriesToJson? entries hordered hmembers)

/-- So have several items. -/
theorem sorted_of_itemsToJson? : (items : List Argument) → ItemsAreOrdered items →
    {js : List Json} → itemsToJson? items = some js → ∀ j ∈ js, j.sorted = j
  | [], _, _, h => by cases h; exact nofun
  | item :: rest, hordered, _, h => by
    obtain ⟨j, more, hj, hmore, rfl⟩ := itemsToJson?_cons_eq_some_iff.1 h
    exact List.forall_mem_cons.2 ⟨sorted_of_toJson? item hordered.1 hj,
      sorted_of_itemsToJson? rest hordered.2 hmore⟩

/-- So have the values of a map. -/
theorem sorted_of_entriesToJson? : (entries : List (Argument × Argument)) →
    ValuesAreOrdered entries → {members : List (String × Json)} →
    entriesToJson? entries = some members → ∀ m ∈ members, m.2.sorted = m.2
  | [], _, _, h => by cases h; exact nofun
  | (key, value) :: rest, hordered, _, h => by
    obtain ⟨_, more, hm, hmore, rfl⟩ := entriesToJson?_cons_eq_some_iff.1 h
    obtain ⟨k, -, hvalue⟩ := Option.bind_eq_some_iff.1 hm
    obtain ⟨j, hj, rfl⟩ := Option.map_eq_some_iff.1 hvalue
    exact List.forall_mem_cons.2 ⟨sorted_of_toJson? value hordered.1 hj,
      sorted_of_entriesToJson? rest hordered.2 hmore⟩

end

/-- An argument is encoded as the text of its value. -/
theorem encode_eq_ok_iff {a : Argument} {text : String} :
    a.encode = .ok text ↔ ∃ j, a.toJson? = some j ∧ text = j.text := by
  unfold encode
  cases a.toJson? <;> simp [eq_comm]

/-- **The encoding of arguments is canonical.** Arguments that differ only in the order in which
their maps are filled are encoded alike, or neither is encoded, if keys stay distinct as texts. And
an argument without floats is written as the text of a value that is encoded as the same text
again. That value is what the text is read as, unless more than 127 arrays and objects nest in
it. -/
theorem encode_canonical :
    (∀ {a b : Argument}, a.Reorders b → a.HasDistinctKeys → a.encode = b.encode)
      ∧ ∀ {a : Argument} {text : String}, a.IsFloatFree → a.IsOrdered → a.encode = .ok text →
          ∃ j, a.toJson? = some j ∧ (json j).encode = .ok text
            ∧ (j.depth ≤ 127 → Json.parse? text = some j)
            ∧ (127 < j.depth → Json.parse? text = none) := by
  refine ⟨fun hreorders hdistinct => ?_, fun {a text} hfree hordered hencode => ?_⟩
  · rw [encode, encode, toJson?_of_reorders hreorders hdistinct]
  · obtain ⟨j, hj, rfl⟩ := encode_eq_ok_iff.1 hencode
    have hread : Json.parse? j.text = if j.depth ≤ 127 then some j.sorted else none :=
      Json.parse?_text (holdsWords_of_toJson? a hfree hj)
    rw [sorted_of_toJson? a hordered hj] at hread
    refine ⟨j, hj, rfl, fun hdepth => ?_, fun hdepth => ?_⟩
    · rw [hread, if_pos hdepth]
    · rw [hread, if_neg (Nat.not_le.2 hdepth)]

/-- A map of maps, with keys of several kinds and a JSON value. -/
def stock : Argument :=
  .sequence [.map [(.text "b", .map [(.integer 10, .bool true), (.integer 9, .unit)]),
    (.char 'a', .json (.object [("x", .null), ("y", .number (.integer (-1)))]))]]

/-- The same, filled in another order. -/
def restocked : Argument :=
  .sequence [.map [(.char 'a', .json (.object [("x", .null), ("y", .number (.integer (-1)))])),
    (.text "b", .map [(.integer 9, .unit), (.integer 10, .bool true)])]]

/-- The text that both are encoded as. -/
def stockText : String :=
  "[\x7b\"a\":\x7b\"x\":null,\"y\":-1\x7d,\"b\":\x7b\"10\":true,\"9\":null\x7d\x7d]"

theorem encode_canonical_restocked :
    stock.Reorders restocked ∧ stock.HasDistinctKeys ∧ stock.IsFloatFree ∧ stock.IsOrdered
      ∧ stock.encode = .ok stockText ∧ restocked.encode = .ok stockText
      ∧ ∃ j, stock.toJson? = some j ∧ j.depth = 3 ∧ (json j).encode = .ok stockText
        ∧ Json.parse? stockText = some j := by
  have hreorders : stock.Reorders restocked :=
    .sequence (.cons (.map (.cons (.refl _)
      (.map (.cons (.refl _) (.refl _) (.cons (.refl _) (.refl _) .nil)) (.swap _ _ _))
      (.cons (.refl _) (.refl _) .nil)) (.swap _ _ _)) .nil)
  have hdistinct : stock.HasDistinctKeys :=
    ⟨⟨by decide, ⟨by decide, trivial, trivial, trivial⟩, trivial, trivial⟩, trivial⟩
  have hfree : stock.IsFloatFree :=
    ⟨⟨⟨trivial, trivial, trivial⟩, ⟨trivial, ⟨by decide, by decide⟩, trivial⟩, trivial⟩, trivial⟩
  have hordered : stock.IsOrdered := ⟨⟨⟨trivial, trivial, trivial⟩, by rfl, trivial⟩, trivial⟩
  have hencode : stock.encode = .ok stockText := by rfl
  refine ⟨hreorders, hdistinct, hfree, hordered, hencode,
    (encode_canonical.1 hreorders hdistinct).symm.trans hencode, ?_⟩
  obtain ⟨j, hj, hagain, hread, -⟩ := encode_canonical.2 hfree hordered hencode
  have hdepth : j.depth = 3 := by cases hj; rfl
  exact ⟨j, hj, hdepth, hagain, hread (by omega)⟩

end ProofToolchain.Argument
