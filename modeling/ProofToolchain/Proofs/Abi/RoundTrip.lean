import ProofToolchain.Abi.Basic
import ProofToolchain.Proofs.Json.Blob
import ProofToolchain.Proofs.Json.Reading

/-!
# Interfaces are read as they were written

An interface may be spelled in many ways: fields may stand in any order or without their names,
some may be left out or be `null`, and members that are none of its own are skipped. It is written
in one of these ways, and what is written is read as the interface that it was (`Abi.IsKept`),
provided that the interface was itself read from somewhere and that no number in it is a double.

What has to be shown is that nothing stands in the way of reading it. The components of its types
are values that were read, so they come back, with the same room for nesting as they had when they
were read. They are not `null`, which would have been read as there being none. And the members
that an input shares with its type are told apart by their keys.
-/

namespace ProofToolchain

open Json (Literal)

/-! ## Records that were written -/

namespace Json

/-- The members of an object as they are written, by their keys. -/
def written (members : List (String × Json)) : List (String × Literal) :=
  members.map fun m => (m.1, m.2.literal)

namespace Literal

/-- The keys of an object that was written are read back. -/
theorem keyed?_memberLiterals (members : List (String × Json)) :
    keyed? (memberLiterals members) = some (written members) := by
  induction members with
  | nil => rfl
  | cons m members ih =>
    obtain ⟨key, value⟩ := m
    have hrest : (memberLiterals members).mapM
        (fun m => (decodeUnits? m.1).map fun key => (String.ofList key, m.2)) = _ := ih
    rw [keyed?, memberLiterals, List.mapM_cons, hrest, decodeUnits?_unitsOf, Option.map_some,
      String.ofList_toList]
    rfl

/-- What is not written under a name is not found. -/
theorem named_written_eq_nil {name : String} {members : List (String × Json)}
    (h : name ∉ members.map Prod.fst) : named name (written members) = [] := by
  simp only [named, written, List.map_eq_nil_iff, List.filter_eq_nil_iff, List.mem_map, beq_iff_eq]
  rintro _ ⟨m, hm, rfl⟩ rfl
  exact h (List.mem_map_of_mem hm)

/-- **A member is found by its key**, if no key is written twice. -/
theorem single?_written {members : List (String × Json)} (h : (members.map Prod.fst).Nodup)
    (name : String) :
    single? name (written members) = some ((Entries.get? name members).map Json.literal) := by
  induction members with
  | nil => rfl
  | cons m members ih =>
    obtain ⟨key, value⟩ := m
    obtain ⟨hkey, hrest⟩ := List.nodup_cons.1 h
    by_cases hname : name = key
    · subst hname
      have hnamed : named name (written ((name, value) :: members)) = [value.literal] := by
        have hnone := named_written_eq_nil hkey
        simp only [named, written] at hnone
        simp [named, written, hnone]
      rw [single?, hnamed, Entries.get?, if_pos rfl]
      rfl
    · have hnamed : named name (written ((key, value) :: members)) = named name (written members) :=
        by simp [named, written, Ne.symm hname]
      rw [Entries.get?, if_neg hname, ← ih hrest, single?, hnamed, single?]

/-- **The fields of an object that was written** are its members, if no key is written twice. -/
theorem fields?_object {members : List (String × Json)} (h : (members.map Prod.fst).Nodup)
    (names : List String) : (Json.object members).literal.fields? names
      = some (names.map fun name => (Entries.get? name members).map Json.literal) := by
  show (keyed? (memberLiterals members)).bind _ = _
  rw [keyed?_memberLiterals, Option.bind_some]
  induction names with
  | nil => rfl
  | cons name names ih => rw [List.mapM_cons, single?_written h, ih]; rfl

/-- The text of a string that was written is read back. -/
theorem string?_literal (s : String) : (Json.string s).literal.string? = some s := by
  show (decodeUnits? (unitsOf s)).map String.ofList = some s
  rw [decodeUnits?_unitsOf, Option.map_some, String.ofList_toList]

/-- So are the items of an array. -/
theorem list?_literal {α : Type} {read : Literal → Option α} {write : α → Json} {xs : List α}
    (h : ∀ x ∈ xs, read (write x).literal = some x) :
    (Json.array (xs.map write)).literal.list? read = some xs := by
  show (itemLiterals (xs.map write)).mapM read = _
  induction xs with
  | nil => rfl
  | cons x xs ih =>
    obtain ⟨hx, hrest⟩ := List.forall_mem_cons.1 h
    rw [List.map_cons, itemLiterals, List.mapM_cons, hx, ih hrest]
    rfl

/-- Only `null` is read as `null`. -/
theorem ne_null_of_toJson? {d : Nat} {l : Literal} {j : Json} (h : l.toJson? d = some j)
    (hl : l ≠ .null) : j ≠ .null := by
  rintro rfl
  cases l with
  | null => exact hl rfl
  | array items | object members => cases d <;> simp [toJson?, ofMembers] at h
  | _ => simp [toJson?] at h

end Literal

/-- Only `null` is written as `null`. -/
theorem literal_ne_null {j : Json} (h : j ≠ .null) : j.literal ≠ .null := by
  cases j <;> first | exact absurd rfl h | exact nofun

section Optional

variable {α : Type} {read : Literal → Option α}

/-- **A field that may be missing** is read back, if it is not `null` when it is there. -/
theorem optional_map {write : α → Json} {x : Option α}
    (h : ∀ a ∈ x, write a ≠ .null ∧ read (write a).literal = some a) :
    optional read (x.map fun a => (write a).literal) = some x := by
  cases x with
  | none => rfl
  | some a =>
    obtain ⟨hnull, hread⟩ := h a rfl
    show optional read (some (write a).literal) = _
    unfold optional
    split
    · next heq => cases heq
    · next heq => exact absurd (Option.some.inj heq) (literal_ne_null hnull)
    · next heq =>
      cases heq
      rw [hread, Option.map_some]

/-- What is read of such a field was written in it, and was not `null`. -/
theorem exists_of_optional {field : Option Literal} {x : Option α}
    (h : optional read field = some x) {a : α} (ha : a ∈ x) :
    ∃ l, l ≠ .null ∧ read l = some a := by
  unfold optional at h
  split at h
  · cases h
    cases ha
  · cases h
    cases ha
  · next l hl =>
    obtain ⟨b, hb, rfl⟩ := Option.map_eq_some_iff.1 h
    cases ha
    exact ⟨l, fun hnull => hl (hnull ▸ rfl), hb⟩

end Optional

end Json

/-! ## Types -/

namespace AbiType

variable {d : Nat} {t : AbiType}

/-- **No number in the components of a type is a double.** -/
def HoldsIntegers (t : AbiType) : Prop :=
  ∀ c ∈ t.components, c.HoldsIntegers

/-- **A type is kept** by a reader that goes some levels deep into its components, if they are
kept. Components that are `null` are none. -/
def IsKept (d : Nat) (t : AbiType) : Prop :=
  ∀ c ∈ t.components, c ≠ .null ∧ c.IsKept d

/-- The fields of a type as they are written. -/
def fields (t : AbiType) : List (Option Literal) :=
  [some (Json.string t.name).literal, t.components.map Json.literal]

theorem ofFields?_fields (h : t.IsKept d) : ofFields? (Literal.toJson? d) t.fields = some t := by
  have hname : Json.required Literal.string? (some (Json.string t.name).literal) = some t.name :=
    Literal.string?_literal t.name
  have hcomponents : Json.optional (Literal.toJson? d) (t.components.map Json.literal)
      = some t.components :=
    Json.optional_map fun c hc => ⟨(h c hc).1, (h c hc).2.toJson?_literal⟩
  simp only [ofFields?, fields, hname, hcomponents]
  rfl

/-- **A type that was read is kept.** -/
theorem isKept_of_ofFields? {fs : List (Option Literal)}
    (h : ofFields? (Literal.toJson? d) fs = some t) (ht : t.HoldsIntegers) : t.IsKept d := by
  intro c hc
  have hint := ht c hc
  unfold ofFields? at h
  split at h
  · simp only [Option.bind_eq_bind, Option.bind_eq_some_iff, Option.pure_def,
      Option.some.injEq] at h
    obtain ⟨_, -, components, hcomponents, rfl⟩ := h
    obtain ⟨l, hnull, hl⟩ := Json.exists_of_optional hcomponents hc
    exact ⟨Literal.ne_null_of_toJson? hl hnull, Literal.isKept_of_toJson? hl hint⟩
  · cases h

/-- The members of a type have different keys. -/
theorem nodup_members (t : AbiType) : (t.members.map Prod.fst).Nodup := by
  obtain ⟨_, _ | _⟩ := t <;> simp [members]

/-- The members that write a type are its fields. -/
theorem fields?_literal (t : AbiType) :
    t.toJson.literal.fields? ["type", "components"] = some t.fields := by
  rw [toJson, Literal.fields?_object t.nodup_members]
  obtain ⟨_, _ | _⟩ := t <;> rfl

/-- **A type that is kept comes back.** -/
theorem ofLiteral?_literal (h : t.IsKept d) : ofLiteral? (d + 1) t.toJson.literal = some t := by
  rw [ofLiteral?, fields?_literal]
  exact ofFields?_fields h

theorem isKept_of_ofLiteral? {l : Literal} (h : ofLiteral? (d + 1) l = some t)
    (ht : t.HoldsIntegers) : t.IsKept d := by
  obtain ⟨fs, -, hfs⟩ := Option.bind_eq_some_iff.1 h
  exact isKept_of_ofFields? hfs ht

theorem holdsWords_members (h : t.IsKept d) : Json.MembersHoldWords t.members := by
  obtain ⟨name, components⟩ := t
  cases components with
  | none => exact ⟨trivial, trivial⟩
  | some c => exact ⟨trivial, (h c rfl).2.words, trivial⟩

end AbiType

/-! ## Inputs -/

namespace AbiInput

variable {d : Nat} {i : AbiInput}

/-- The members that write an input. -/
def members (i : AbiInput) : List (String × Json) :=
  ("name", .string i.name) :: ("public", .bool i.isPublic) :: i.type.members

/-- The members of an input have different keys, those of its type among them. -/
theorem nodup_members (i : AbiInput) : (i.members.map Prod.fst).Nodup := by
  obtain ⟨_, _, _, _ | _⟩ := i <;> simp [members, AbiType.members]

/-- The members of an input that do not belong to it are those of its type. -/
theorem filter_members (i : AbiInput) :
    (Json.written i.members).filter (fun m => m.1 != "name" && m.1 != "public")
      = Json.written i.type.members := by
  obtain ⟨_, _, _, _ | _⟩ := i <;> rfl

/-- All that an input says of its type can be read. -/
theorem mapM_members {t : AbiType} (h : t.IsKept d) :
    (Json.written t.members).mapM (fun m => m.2.toJson? d) = some (t.members.map Prod.snd) := by
  have hname : (Json.string t.name).IsKept d := ⟨trivial, Nat.zero_le d, rfl⟩
  obtain ⟨name, components⟩ := t
  cases components with
  | none => simp [Json.written, AbiType.members, hname.toJson?_literal]
  | some c =>
    simp [Json.written, AbiType.members, hname.toJson?_literal, (h c rfl).2.toJson?_literal]

/-- **An input that is kept comes back.** -/
theorem ofLiteral?_literal (h : i.type.IsKept d) :
    ofLiteral? (d + 1) i.toJson.literal = some i := by
  have hname : Json.required Literal.string?
      ((Entries.get? "name" i.members).map Json.literal) = some i.name :=
    Literal.string?_literal i.name
  have hpublic : Json.withDefault false Literal.bool?
      ((Entries.get? "public" i.members).map Json.literal) = some i.isPublic := rfl
  have htype : AbiType.ofFields? (Literal.toJson? d)
      [(Entries.get? "type" i.type.members).map Json.literal,
        (Entries.get? "components" i.type.members).map Json.literal] = some i.type := by
    refine Eq.trans ?_ (AbiType.ofFields?_fields h)
    obtain ⟨_, _, _, _ | _⟩ := i <;> rfl
  show (Literal.keyed? (Json.memberLiterals i.members)).bind _ = _
  rw [Literal.keyed?_memberLiterals, Option.bind_some]
  simp only [filter_members, Nat.add_sub_cancel, mapM_members h,
    Literal.single?_written i.nodup_members, Literal.single?_written i.type.nodup_members, hname,
    hpublic, htype, Option.bind_eq_bind, Option.bind_some, Option.pure_def]

/-- **The type of an input that was read is kept.** -/
theorem isKept_of_ofLiteral? {l : Literal} (h : ofLiteral? (d + 1) l = some i)
    (hi : i.type.HoldsIntegers) : i.type.IsKept d := by
  unfold ofLiteral? at h
  split at h
  · simp only [Option.bind_eq_bind, Option.bind_eq_some_iff, Option.pure_def,
      Option.some.injEq] at h
    obtain ⟨_, -, _, -, _, -, _, -, _, -, _, -, _, -, _, -, type, htype, rfl⟩ := h
    exact AbiType.isKept_of_ofFields? htype hi
  · cases h

end AbiInput

/-! ## Interfaces -/

namespace Abi

variable {a : Abi}

/-- **No number in an interface is a double.** -/
structure HoldsIntegers (a : Abi) : Prop where
  /-- None in the components of an input. -/
  inputs : ∀ i ∈ a.inputs, i.type.HoldsIntegers
  /-- None in those of the output. -/
  output : ∀ t ∈ a.output, t.HoldsIntegers

/-- **An interface is kept** by its reader, which leaves less room for the components of an input
than for those of the output, since inputs stand in an array. -/
structure IsKept (a : Abi) : Prop where
  /-- The inputs are kept. -/
  inputs : ∀ i ∈ a.inputs, i.type.IsKept (Json.maxDepth - 3)
  /-- So is the output. -/
  output : ∀ t ∈ a.output, t.IsKept (Json.maxDepth - 2)

/-- The fields of an interface as they are written. -/
def fields (a : Abi) : List (Option Literal) :=
  [some (Json.array (a.inputs.map AbiInput.toJson)).literal,
    a.output.map fun t => t.toJson.literal]

theorem fields?_literal (a : Abi) :
    a.toJson.literal.fields? ["inputs", "output"] = some a.fields := by
  rw [toJson, Literal.fields?_object]
  · obtain ⟨_, _ | _⟩ := a <;> rfl
  · obtain ⟨_, _ | _⟩ := a <;> simp

/-- **An interface that is kept comes back** from its literal. -/
theorem IsKept.ofLiteral?_literal (h : a.IsKept) : ofLiteral? a.toJson.literal = some a := by
  have hinputs : Json.withDefault [] (Literal.list? (AbiInput.ofLiteral? (Json.maxDepth - 2)))
      (some (Json.array (a.inputs.map AbiInput.toJson)).literal) = some a.inputs :=
    Literal.list?_literal fun i hi => AbiInput.ofLiteral?_literal (h.inputs i hi)
  have houtput : Json.optional (AbiType.ofLiteral? (Json.maxDepth - 1))
      (a.output.map fun t => t.toJson.literal) = some a.output :=
    Json.optional_map fun t ht => ⟨nofun, AbiType.ofLiteral?_literal (h.output t ht)⟩
  rw [ofLiteral?, fields?_literal]
  simp only [fields, hinputs, houtput, Option.bind_eq_bind, Option.bind_some, Option.pure_def]

/-- **An interface that was read is kept.** -/
theorem isKept_of_ofLiteral? {l : Literal} (h : ofLiteral? l = some a) (ha : a.HoldsIntegers) :
    a.IsKept := by
  simp only [ofLiteral?, Option.bind_eq_bind, Option.bind_eq_some_iff] at h
  obtain ⟨fs, -, h⟩ := h
  split at h
  · next inputs output =>
    simp only [Option.bind_eq_some_iff, Option.pure_def, Option.some.injEq] at h
    obtain ⟨readInputs, hinputs, readOutput, houtput, rfl⟩ := h
    constructor
    · intro i hi
      unfold Json.withDefault at hinputs
      split at hinputs
      · cases hinputs; cases hi
      · unfold Literal.list? at hinputs
        split at hinputs
        · obtain ⟨l, -, hl⟩ := Json.exists_of_mem_of_mapM hinputs hi
          exact AbiInput.isKept_of_ofLiteral? hl (ha.inputs i hi)
        · cases hinputs
    · intro t ht
      obtain ⟨l, -, hl⟩ := Json.exists_of_optional houtput ht
      exact AbiType.isKept_of_ofLiteral? hl (ha.output t ht)
  · cases h

theorem itemsHoldWords_inputs {inputs : List AbiInput}
    (h : ∀ i ∈ inputs, i.type.IsKept (Json.maxDepth - 3)) :
    Json.ItemsHoldWords (inputs.map AbiInput.toJson) := by
  refine Json.itemsHoldWords_iff.2 fun item hitem => ?_
  obtain ⟨i, hi, rfl⟩ := List.mem_map.1 hitem
  exact ⟨trivial, trivial, AbiType.holdsWords_members (h i hi)⟩

theorem IsKept.holdsWords_toJson (h : a.IsKept) : a.toJson.HoldsWords := by
  have hinputs := itemsHoldWords_inputs h.inputs
  cases hout : a.output with
  | none =>
    rw [toJson, hout]
    exact ⟨hinputs, trivial⟩
  | some t =>
    rw [toJson, hout]
    exact ⟨hinputs, AbiType.holdsWords_members (h.output t hout), trivial⟩

/-- **An interface that is kept comes back** from its text. -/
theorem IsKept.parse?_text (h : a.IsKept) : parse? a.text = some a := by
  rw [parse?, text, Json.literal_of_text h.holdsWords_toJson, Option.bind_some,
    h.ofLiteral?_literal]

/-- **A blob spells the interface of the text it holds.** -/
theorem ofBlob?_encode (s : String) : ofBlob? (Text.Utf8.encode s) = parse? s := by
  rw [ofBlob?, Literal.ofBlob?_encode, parse?]

/-- **An interface survives** being written and read. -/
structure Survives (a : Abi) : Prop where
  /-- Its text spells it. -/
  text : parse? a.text = some a
  /-- So does the blob that holds the text. -/
  blob : ofBlob? (Text.Utf8.encode a.text) = some a
  /-- What is read is written by the same text again. -/
  again : (parse? a.text).map Abi.text = some a.text

theorem IsKept.survives (h : a.IsKept) : a.Survives where
  text := h.parse?_text
  blob := (ofBlob?_encode a.text).trans h.parse?_text
  again := congrArg (Option.map Abi.text) h.parse?_text

/-- **An interface that was read survives**, from a text or from a blob. -/
theorem survives_of_parse? {s : String} (h : parse? s = some a) (ha : a.HoldsIntegers) :
    a.Survives := by
  obtain ⟨l, -, hl⟩ := Option.bind_eq_some_iff.1 h
  exact (isKept_of_ofLiteral? hl ha).survives

theorem survives_of_ofBlob? {blob : Bytes} (h : ofBlob? blob = some a) (ha : a.HoldsIntegers) :
    a.Survives := by
  obtain ⟨l, -, hl⟩ := Option.bind_eq_some_iff.1 h
  exact (isKept_of_ofLiteral? hl ha).survives

end Abi

end ProofToolchain
