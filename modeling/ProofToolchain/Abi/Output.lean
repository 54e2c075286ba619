import ProofToolchain.Abi.Basic
import ProofToolchain.Error

/-!
# Decoding a program's output

A program returns scalars, one after another; its interface says what they make up. The type of
the output is read off the interface into an `OutputType`, and `OutputType.decode` consumes the
scalars along it: arrays and tuples become arrays, structs become objects by member name.

A description may be flawed. A flaw is an error only where decoding comes to it: an array of no
elements says nothing about its element type, and of two complaints the first one met in reading
order is made. Flaws are therefore part of an output type (`OutputType.malformed`).
-/

namespace ProofToolchain

/-- **What a description of a type may lack.** -/
inductive Flaw where
  /-- An array without a size. -/
  | arrayWithoutSize
  /-- A tuple without elements. -/
  | tupleWithoutElements
  /-- A struct without members. -/
  | structWithoutMembers
  /-- A struct member without a name. -/
  | memberWithoutName
  /-- A nested type without a name. -/
  | unnamedType
  deriving DecidableEq, Repr

/-- The wording of a flaw. -/
def Flaw.message : Flaw → String
  | .arrayWithoutSize => "array without size"
  | .tupleWithoutElements => "tuple without elements"
  | .structWithoutMembers => "struct without members"
  | .memberWithoutName => "struct member without name"
  | .unnamedType => "nested type without a name"

/-- **The type of an output.** -/
inductive OutputType where
  /-- A single value, by the name of its type. -/
  | scalar (name : String)
  /-- A number of values of one type. -/
  | array (size : Nat) (element : OutputType)
  /-- Values of several types. -/
  | tuple (elements : List OutputType)
  /-- Named values. -/
  | struct (members : List (String × OutputType))
  /-- A description that lacks something. -/
  | malformed (flaw : Flaw)
  deriving Repr

/-! ## Reading a type off an interface -/

namespace Json

/-- A member is smaller than its object. -/
theorem sizeOf_get?_lt (key : String) (j : Json) : sizeOf (j.get? key) < sizeOf (some j) := by
  cases j with
  | object members =>
    simp only [get?, Option.some.sizeOf_spec, object.sizeOf_spec]
    induction members with
    | nil => simp [Entries.get?]
    | cons m members ih =>
      obtain ⟨k, v⟩ := m
      unfold Entries.get?
      split
      · simp only [Option.some.sizeOf_spec, List.cons.sizeOf_spec, Prod.mk.sizeOf_spec]
        omega
      · simp only [List.cons.sizeOf_spec]
        omega
  | null =>
    simp only [get?, Option.none.sizeOf_spec, Option.some.sizeOf_spec, null.sizeOf_spec]
    omega
  | bool b =>
    simp only [get?, Option.none.sizeOf_spec, Option.some.sizeOf_spec, bool.sizeOf_spec]
    omega
  | number n =>
    simp only [get?, Option.none.sizeOf_spec, Option.some.sizeOf_spec, number.sizeOf_spec]
    omega
  | string s =>
    simp only [get?, Option.none.sizeOf_spec, Option.some.sizeOf_spec, string.sizeOf_spec]
    omega
  | array items =>
    simp only [get?, Option.none.sizeOf_spec, Option.some.sizeOf_spec, array.sizeOf_spec]
    omega

/-- An item of an array under a key is smaller than the object. -/
theorem sizeOf_item_lt {key : String} {j item : Json} {items : List Json}
    (h : (j.get? key).bind items? = some items) (hi : item ∈ items) :
    sizeOf (some item) < sizeOf (some j) := by
  obtain ⟨a, ha, hitems⟩ := Option.bind_eq_some_iff.1 h
  have hlt := sizeOf_get?_lt key j
  have hmem := List.sizeOf_lt_of_mem hi
  cases a <;> simp only [items?, Option.some.injEq, reduceCtorEq] at hitems
  subst hitems
  rw [ha] at hlt
  simp only [Option.some.sizeOf_spec, array.sizeOf_spec] at hlt ⊢
  omega

end Json

namespace OutputType

/-- **The type that a name and its components describe.** -/
def describe (name : String) (components : Option Json) : OutputType :=
  let member (key : String) : Option Json := components.bind (Json.get? key)
  if name = "array" then
    match (member "size").bind Json.nat? with
    | none => .malformed .arrayWithoutSize
    | some size =>
      match _h : components with
      | none => .malformed .arrayWithoutSize
      | some c =>
        match (c.get? "type").bind Json.string? with
        | none => .malformed .unnamedType
        | some inner => .array size (describe inner (c.get? "components"))
  else if name = "tuple" then
    match _h : components with
    | none => .malformed .tupleWithoutElements
    | some c =>
      match _hc : (c.get? "elements").bind Json.items? with
      | none => .malformed .tupleWithoutElements
      | some elements =>
        .tuple (elements.attach.map fun e =>
          match (e.1.get? "type").bind Json.string? with
          | none => .malformed .unnamedType
          | some inner => describe inner (e.1.get? "components"))
  else if name = "struct" then
    match _h : components with
    | none => .malformed .structWithoutMembers
    | some c =>
      match _hc : (c.get? "members").bind Json.items? with
      | none => .malformed .structWithoutMembers
      | some members =>
        .struct (members.attach.map fun m =>
          match (m.1.get? "name").bind Json.string? with
          | none => ("", .malformed .memberWithoutName)
          | some name =>
            match (m.1.get? "type").bind Json.string? with
            | none => (name, .malformed .unnamedType)
            | some inner => (name, describe inner (m.1.get? "components")))
  else .scalar name
termination_by components
decreasing_by
  · subst _h
    exact Json.sizeOf_get?_lt ..
  · subst _h
    exact Nat.lt_trans (Json.sizeOf_get?_lt ..) (Json.sizeOf_item_lt _hc e.2)
  · subst _h
    exact Nat.lt_trans (Json.sizeOf_get?_lt ..) (Json.sizeOf_item_lt _hc m.2)

/-- The type of an interface's output. -/
def ofAbiType (t : AbiType) : OutputType :=
  describe t.name t.components

/-! ## Decoding -/

/-- The complaint about a flawed description. -/
def malformedError (flaw : Flaw) : Error :=
  .stage .witness ("malformed abi output: " ++ flaw.message)

/-- The complaint about missing values. -/
def tooFewError : Error :=
  .stage .witness "fewer outputs than the abi describes"

/-- The complaint about `n` values that are left over. -/
def tooManyError (n : Nat) : Error :=
  .stage .witness (String.ofList (Text.decimal n) ++ " output values not described by the abi")

/-- The width in bits of an unsigned type. -/
def unsignedWidth? (name : String) : Option Nat :=
  if name = "u8" then some 8
  else if name = "u16" then some 16
  else if name = "u32" then some 32
  else if name = "u64" then some 64
  else none

/-- **A scalar.** A truth value is anything but zero. An unsigned value that fits 64 bits is
written in hexadecimal, at least as many digits as its type has; any other value stays the text it
is. -/
def decodeScalar (name value : String) : Json :=
  if name = "bool" then .bool (value != "0")
  else match unsignedWidth? name with
    | none => .string value
    | some width =>
      match Text.readUnsigned? 64 value.toList with
      | some n => .string (String.ofList ('0' :: 'x' :: Text.hexPadded (width / 4) n))
      | none => .string value

/-- The same decoding a number of times over. -/
def times (decode : List String → Except Error (Json × List String)) :
    Nat → List String → Except Error (List Json × List String)
  | 0, values => .ok ([], values)
  | n + 1, values => do
    let (item, values) ← decode values
    let (items, values) ← times decode n values
    return (item :: items, values)

mutual

/-- **Decode an output**: the value that the first scalars make up, and the scalars after it. -/
def decode : OutputType → List String → Except Error (Json × List String)
  | .scalar name, value :: values => .ok (decodeScalar name value, values)
  | .scalar _, [] => .error tooFewError
  | .array size element, values => do
    let (items, values) ← times (decode element) size values
    return (.array items, values)
  | .tuple elements, values => do
    let (items, values) ← decodeElements elements values
    return (.array items, values)
  | .struct members, values => do
    let (pairs, values) ← decodeMembers members values
    return (.ofMembers pairs, values)
  | .malformed flaw, _ => .error (malformedError flaw)

/-- The elements of a tuple. -/
def decodeElements : List OutputType → List String → Except Error (List Json × List String)
  | [], values => .ok ([], values)
  | element :: rest, values => do
    let (item, values) ← decode element values
    let (items, values) ← decodeElements rest values
    return (item :: items, values)

/-- The members of a struct. -/
def decodeMembers :
    List (String × OutputType) → List String → Except Error (List (String × Json) × List String)
  | [], values => .ok ([], values)
  | (name, member) :: rest, values => do
    let (item, values) ← decode member values
    let (pairs, values) ← decodeMembers rest values
    return ((name, item) :: pairs, values)

end

end OutputType

/-- **The output of a program** whose scalars are `raw`. Without an interface the scalars stay
texts; with one all of them must be described by it, and an interface without an output describes
none. -/
def decodeOutput (raw : List String) (abi : Option Abi) : Except Error Json :=
  match abi with
  | none => .ok (.array (raw.map .string))
  | some abi => do
    let (value, rest) ← match abi.output with
      | some type => (OutputType.ofAbiType type).decode raw
      | none => .ok (.array [], raw)
    if rest.isEmpty then return value else .error (OutputType.tooManyError rest.length)

end ProofToolchain
