import ProofToolchain.Artifact
import ProofToolchain.Proofs.Abi.RoundTrip
import ProofToolchain.Proofs.Json.Bytes

/-!
# Keys, proofs and reference strings survive JSON

A blob is written as an array of numbers and read back as the bytes that it was, of whatever length
(`Bytes.parse?_text`). The keys of a setup are a record of two blobs. Its two fields are found by
their names, wherever they stand among other members, and each of them has to be there once
(`Json.Literal.single?_pair_iff`); so the keys cannot be taken for each other.

What is read is exactly what is written in one of these ways (`blobs_and_keys_survive`). In
particular nothing is made to fit: an array that is read as a blob and has an item that is no byte
is refused, and the keys with it.
-/

namespace ProofToolchain

open Json (Literal)

/-! ## Fields by name -/

namespace Json.Literal

variable {name other : String} {members : List (String × Literal)} {l m : Literal}

/-- **A field is there once** if one member of its name is. -/
theorem single?_eq_some_some_iff : single? name members = some (some l) ↔
    members.filter (·.1 == name) = [(name, l)] := by
  have hnamed : named name members = [l] ↔ members.filter (·.1 == name) = [(name, l)] := by
    unfold named
    rw [List.map_eq_singleton_iff]
    constructor
    · rintro ⟨⟨key, value⟩, hfilter, rfl⟩
      have hmem : (key, value) ∈ members.filter (·.1 == name) := hfilter ▸ List.mem_singleton_self _
      obtain rfl : key = name := by simpa using (List.mem_filter.1 hmem).2
      exact hfilter
    · exact fun hfilter => ⟨_, hfilter, rfl⟩
  rw [← hnamed]
  unfold single?
  split
  · next hnil => simp [hnil]
  · next value hvalue => simp [hvalue]
  · next hne hnot =>
    constructor
    · nofun
    · exact fun hl => absurd hl (hnot l)

/-- **Two fields are there once** exactly if they are all that is left when the members of other
names are left out, in whatever order. -/
theorem single?_pair_iff (hne : name ≠ other) :
    (single? name members = some (some l) ∧ single? other members = some (some m))
      ↔ (members.filter fun member => member.1 == name || member.1 == other).Perm
        [(name, l), (other, m)] := by
  rw [single?_eq_some_some_iff, single?_eq_some_some_iff]
  set both : String × Literal → Bool := fun member => member.1 == name || member.1 == other
    with hboth
  have hname : (members.filter both).filter (·.1 == name) = members.filter (·.1 == name) := by
    rw [List.filter_filter]
    refine List.filter_congr fun member _ => ?_
    by_cases h : member.1 = name <;> simp [hboth, h]
  have hother : (members.filter both).filter (!·.1 == name) = members.filter (·.1 == other) := by
    rw [List.filter_filter]
    refine List.filter_congr fun member _ => ?_
    by_cases h : member.1 = name
    · simp [h, hne]
    · simp [hboth, beq_false_of_ne h]
  -- the members of the first name and those of the second are all that is left
  constructor
  · rintro ⟨hl, hm⟩
    have hsplit := List.filter_append_perm (·.1 == name) (members.filter both)
    rw [hname, hother, hl, hm] at hsplit
    exact hsplit.symm
  · intro h
    have hl := h.filter (·.1 == name)
    have hm := h.filter (!·.1 == name)
    rw [hname] at hl
    rw [hother] at hm
    exact ⟨List.perm_singleton.1 (by simpa [hne.symm] using hl),
      List.perm_singleton.1 (by simpa [hne.symm] using hm)⟩

/-- In an object they are found so. -/
theorem fields?_object_pair_iff (hne : name ≠ other)
    {members : List (List StringUnit × Literal)} :
    (object members).fields? [name, other] = some [some l, some m] ↔ ∃ keyed,
      keyed? members = some keyed
        ∧ (keyed.filter fun member => member.1 == name || member.1 == other).Perm
          [(name, l), (other, m)] := by
  simp only [← single?_pair_iff hne]
  show (keyed? members).bind (fun keyed => [name, other].mapM fun name => single? name keyed)
    = some _ ↔ _
  rw [Option.bind_eq_some_iff]
  refine exists_congr fun keyed => and_congr_right fun _ => ?_
  simp [Option.bind_eq_some_iff]

/-- An array has to be the two of them. -/
theorem fields?_array_pair_iff {items : List Literal} :
    (array items).fields? [name, other] = some [some l, some m] ↔ items = [l, m] := by
  match items with
  | [] | [_] | [_, _] | _ :: _ :: _ :: _ => simp [fields?]

end Json.Literal

/-! ## Keys -/

/-- The name of one of the two fields of a record of keys. -/
def Keypair.isFieldName (name : String) : Bool :=
  name == "verification_key" || name == "proving_key"

namespace Json.Literal

/-- **A literal writes keys**: by their names, in any order and among members of other names, or one
after the other. -/
inductive WritesKeys : Literal → Keypair → Prop
  /-- Each name is there once. -/
  | byName {members : List (List StringUnit × Literal)} {keyed : List (String × Literal)}
      {verificationKey provingKey : Literal} {keys : Keypair} :
      keyed? members = some keyed →
      (keyed.filter fun member => Keypair.isFieldName member.1).Perm
        [("verification_key", verificationKey), ("proving_key", provingKey)] →
      verificationKey.WritesBytes keys.verificationKey →
      provingKey.WritesBytes keys.provingKey → WritesKeys (.object members) keys
  /-- The verification key comes first. -/
  | inOrder {verificationKey provingKey : Literal} {keys : Keypair} :
      verificationKey.WritesBytes keys.verificationKey →
      provingKey.WritesBytes keys.provingKey →
      WritesKeys (.array [verificationKey, provingKey]) keys

/-- **A literal that stands for a key** in a record of keys. -/
inductive IsKeyOf : Literal → Literal → Prop
  /-- A member with one of the names. -/
  | member {members : List (List StringUnit × Literal)} {keyed : List (String × Literal)}
      {name : String} {key : Literal} : keyed? members = some keyed → (name, key) ∈ keyed →
      Keypair.isFieldName name = true → IsKeyOf key (.object members)
  /-- An item. -/
  | item {items : List Literal} {key : Literal} : key ∈ items → IsKeyOf key (.array items)

/-- Whatever stands for a key writes a blob. -/
theorem IsKeyOf.exists_writesBytes {key l : Literal} (h : key.IsKeyOf l) {keys : Keypair}
    (hl : l.WritesKeys keys) : ∃ bytes, key.WritesBytes bytes := by
  cases hl with
  | byName hkeyed hperm hverification hproving =>
    cases h with
    | member hkeyed' hmem hname =>
      obtain rfl := Option.some.inj (hkeyed.symm.trans hkeyed')
      have hpair := hperm.mem_iff.1 (List.mem_filter.2 ⟨hmem, hname⟩)
      rcases List.mem_pair.1 hpair with heq | heq
      · cases heq
        exact ⟨_, hverification⟩
      · cases heq
        exact ⟨_, hproving⟩
  | inOrder hverification hproving =>
    cases h with
    | item hmem =>
      rcases List.mem_pair.1 hmem with rfl | rfl
      · exact ⟨_, hverification⟩
      · exact ⟨_, hproving⟩

end Json.Literal

namespace Keypair

/-- Keys are made of two fields that write them. -/
theorem ofLiteral?_eq_some_iff_fields? {l : Literal} {keys : Keypair} :
    ofLiteral? l = some keys ↔ ∃ verificationKey provingKey,
      l.fields? ["verification_key", "proving_key"] = some [some verificationKey, some provingKey]
        ∧ verificationKey.WritesBytes keys.verificationKey
        ∧ provingKey.WritesBytes keys.provingKey := by
  unfold ofLiteral?
  constructor
  · intro h
    obtain ⟨fields, hfields, h⟩ := Option.bind_eq_some_iff.1 h
    split at h
    · simp only [Json.required, Option.bind_eq_bind, Option.bind_eq_some_iff,
        Literal.bytes?_eq_some_iff, Option.pure_def, Option.some.injEq] at h
      obtain ⟨_, ⟨verificationKey, rfl, hverification⟩, _, ⟨provingKey, rfl, hproving⟩, rfl⟩ := h
      exact ⟨verificationKey, provingKey, hfields, hverification, hproving⟩
    · cases h
  · rintro ⟨verificationKey, provingKey, hfields, hverification, hproving⟩
    rw [hfields]
    simp [Json.required, Literal.bytes?_eq_some_iff.2 hverification,
      Literal.bytes?_eq_some_iff.2 hproving]

/-- **Keys are read where they are written.** -/
theorem ofLiteral?_eq_some_iff {l : Literal} {keys : Keypair} :
    ofLiteral? l = some keys ↔ l.WritesKeys keys := by
  rw [ofLiteral?_eq_some_iff_fields?]
  constructor
  · rintro ⟨verificationKey, provingKey, hfields, hverification, hproving⟩
    cases l with
    | object members =>
      obtain ⟨keyed, hkeyed, hperm⟩ := (Literal.fields?_object_pair_iff (by decide)).1 hfields
      exact .byName hkeyed hperm hverification hproving
    | array items =>
      obtain rfl := Literal.fields?_array_pair_iff.1 hfields
      exact .inOrder hverification hproving
    | _ => cases hfields
  · intro h
    cases h with
    | byName hkeyed hperm hverification hproving =>
      exact ⟨_, _, (Literal.fields?_object_pair_iff (by decide)).2 ⟨_, hkeyed, hperm⟩,
        hverification, hproving⟩
    | inOrder hverification hproving =>
      exact ⟨_, _, Literal.fields?_array_pair_iff.2 rfl, hverification, hproving⟩

/-- **A text spells keys** if its literal writes them. -/
theorem parse?_eq_some_iff {text : String} {keys : Keypair} :
    parse? text = some keys ↔ ∃ l, Literal.parse? text.toList = some l ∧ l.WritesKeys keys := by
  rw [parse?, Option.bind_eq_some_iff]
  exact exists_congr fun l => and_congr_right fun _ => ofLiteral?_eq_some_iff

/-- The numbers of a record of keys fit machine words. -/
theorem holdsWords_toJson (keys : Keypair) : keys.toJson.HoldsWords :=
  ⟨Json.holdsWords_ofBytes _, Json.holdsWords_ofBytes _, trivial⟩

/-- **Keys survive** being written as JSON and read. -/
structure Survives (keys : Keypair) : Prop where
  /-- Their text spells them. -/
  text : parse? keys.toJson.text = some keys
  /-- So does every text of an object with the same two fields, in whatever order they stand and
  whatever other members there are. -/
  rearranged : ∀ (text : String) members keyed,
    Literal.parse? text.toList = some (.object members) →
    Literal.keyed? members = some keyed →
    (keyed.filter fun member => isFieldName member.1).Perm
      [("verification_key", (Json.ofBytes keys.verificationKey).literal),
        ("proving_key", (Json.ofBytes keys.provingKey).literal)] →
    parse? text = some keys

/-- **Keys survive.** -/
theorem survives (keys : Keypair) : keys.Survives := by
  have hrearranged : ∀ (text : String) members keyed,
      Literal.parse? text.toList = some (.object members) →
      Literal.keyed? members = some keyed →
      (keyed.filter fun member => isFieldName member.1).Perm
        [("verification_key", (Json.ofBytes keys.verificationKey).literal),
          ("proving_key", (Json.ofBytes keys.provingKey).literal)] →
      parse? text = some keys := fun text members keyed hl hkeyed hperm =>
    parse?_eq_some_iff.2 ⟨_, hl, .byName hkeyed hperm (Literal.writesBytes_literal _)
      (Literal.writesBytes_literal _)⟩
  refine ⟨?_, hrearranged⟩
  exact hrearranged _ _ _ (Json.literal_of_text keys.holdsWords_toJson)
    (Literal.keyed?_memberLiterals _) (List.Perm.refl _)

end Keypair

/-! ## Blobs -/

/-- **A text spells a blob** if its literal writes the bytes. -/
theorem Bytes.parse?_eq_some_iff {text : String} {bytes : Bytes} :
    parse? text = some bytes ↔ ∃ l, Literal.parse? text.toList = some l ∧ l.WritesBytes bytes := by
  rw [parse?, Option.bind_eq_some_iff]
  exact exists_congr fun l => and_congr_right fun _ => Literal.bytes?_eq_some_iff

/-- **A blob survives** being written as JSON and read. -/
theorem Bytes.parse?_text (bytes : Bytes) : parse? (Json.ofBytes bytes).text = some bytes :=
  parse?_eq_some_iff.2 ⟨_, Json.literal_of_text (Json.holdsWords_ofBytes bytes),
    Literal.writesBytes_literal bytes⟩

/-! ## Keys, proofs and reference strings -/

/-- **Keys, proofs and reference strings survive JSON.** Every blob is read back from its text, and
so are the keys of every setup, wherever their fields stand among others. Nothing else is read than
what is written so. In particular an array with an item that is no byte is refused, also where it
stands for a key. -/
theorem blobs_and_keys_survive :
    (∀ bytes : Bytes, Bytes.parse? (Json.ofBytes bytes).text = some bytes)
      ∧ (∀ keys : Keypair, keys.Survives)
      ∧ (∀ text bytes, Bytes.parse? text = some bytes ↔
        ∃ l, Literal.parse? text.toList = some l ∧ l.WritesBytes bytes)
      ∧ (∀ text keys, Keypair.parse? text = some keys ↔
        ∃ l, Literal.parse? text.toList = some l ∧ l.WritesKeys keys)
      ∧ (∀ text items, Literal.parse? text.toList = some (.array items) →
        (∃ item ∈ items, item.IsNoByte) → Bytes.parse? text = none)
      ∧ (∀ text l items, Literal.parse? text.toList = some l →
        (Literal.array items).IsKeyOf l → (∃ item ∈ items, item.IsNoByte) →
          Keypair.parse? text = none) := by
  refine ⟨Bytes.parse?_text, Keypair.survives, fun _ _ => Bytes.parse?_eq_some_iff,
    fun _ _ => Keypair.parse?_eq_some_iff, ?_, ?_⟩
  · rintro text items hl ⟨item, hitem, hno⟩
    refine Option.eq_none_iff_forall_ne_some.2 fun bytes hbytes => ?_
    obtain ⟨l, hl', hwrites⟩ := Bytes.parse?_eq_some_iff.1 hbytes
    obtain rfl := Option.some.inj (hl.symm.trans hl')
    exact hwrites.not_isNoByte hitem hno
  · rintro text l items hl hkey ⟨item, hitem, hno⟩
    refine Option.eq_none_iff_forall_ne_some.2 fun keys hkeys => ?_
    obtain ⟨l', hl', hwrites⟩ := Keypair.parse?_eq_some_iff.1 hkeys
    obtain rfl := Option.some.inj (hl.symm.trans hl')
    obtain ⟨bytes, hbytes⟩ := hkey.exists_writesBytes hwrites
    exact hbytes.not_isNoByte hitem hno

/-- Keys with their fields in the other order, among members of other names. -/
def rearrangedKeys : String :=
  "\x7b\"size\": [300], \"proving_key\": [2, 3], \"verification_key\": [255], \"\": -1.5\x7d"

/-- Keys of which the first has an item that is no byte. -/
def overflowingKeys : String :=
  "\x7b\"verification_key\": [256], \"proving_key\": []\x7d"

/-- The keys are not exchanged, and the larger number is not cut down to a byte. -/
theorem blobs_and_keys_survive_rearranged :
    Keypair.parse? rearrangedKeys = some ⟨[255], [2, 3]⟩
      ∧ Keypair.parse? overflowingKeys = none := by
  obtain ⟨-, hsurvive, -, -, -, hrefused⟩ := blobs_and_keys_survive
  have hrearranged : Literal.parse? rearrangedKeys.toList = some (.object
      [(Json.unitsOf "size", .array [.number ⟨false, ['3', '0', '0'], none, none⟩]),
        (Json.unitsOf "proving_key", (Json.ofBytes [2, 3]).literal),
        (Json.unitsOf "verification_key", (Json.ofBytes [255]).literal),
        (Json.unitsOf "", .number ⟨true, ['1'], some ['5'], none⟩)]) := by cbv
  have hoverflowing : Literal.parse? overflowingKeys.toList = some (.object
      [(Json.unitsOf "verification_key", .array [.number ⟨false, ['2', '5', '6'], none, none⟩]),
        (Json.unitsOf "proving_key", .array [])]) := by cbv
  constructor
  · exact (hsurvive ⟨[255], [2, 3]⟩).rearranged _ _ _ hrearranged rfl (.swap _ _ [])
  · exact hrefused _ _ _ hoverflowing (.member rfl List.mem_cons_self (by decide))
      ⟨_, List.mem_singleton_self _, .large (by decide)⟩

end ProofToolchain
