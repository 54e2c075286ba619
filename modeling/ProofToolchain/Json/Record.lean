import ProofToolchain.Json.Reading

/-!
# Records in JSON texts

A record is written as an object of its fields, in any order and among members that are none of
its own, or as an array of its fields in the order in which it declares them. Which fields are
there is settled by `Literal.fields?`; what each of them must be is the record's own matter.

A member that no field asks for is skipped and not read: only its spelling counts, so it may hold
a number too large for a double or half of a character, and nest as deep as it likes. A field
written twice is an error.
-/

namespace ProofToolchain.Json

namespace Literal

/-- The members written under a name. -/
def named (name : String) (members : List (String × Literal)) : List Literal :=
  (members.filter (·.1 == name)).map (·.2)

/-- The one member of a name, if it is written at most once. -/
def single? (name : String) (members : List (String × Literal)) : Option (Option Literal) :=
  match named name members with
  | [] => some none
  | [l] => some (some l)
  | _ => none

/-- The members of an object, keys read as text. -/
def keyed? (members : List (List StringUnit × Literal)) : Option (List (String × Literal)) :=
  members.mapM fun m => (decodeUnits? m.1).map fun key => (String.ofList key, m.2)

/-- **The fields of a record** by their declared names, in the order of the names; a field that
is not written is `none`. -/
def fields? (names : List String) : Literal → Option (List (Option Literal))
  | .object members => do
    let members ← keyed? members
    names.mapM fun name => single? name members
  | .array items =>
    if names.length < items.length then none
    else some (items.map some ++ List.replicate (names.length - items.length) none)
  | _ => none

end Literal

/-! ## What a field must be -/

/-- A field that must be written. -/
def required {α : Type} (read : Literal → Option α) (field : Option Literal) : Option α :=
  field.bind read

/-- A field with a default for when it is not written. -/
def withDefault {α : Type} (default : α) (read : Literal → Option α) (field : Option Literal) :
    Option α :=
  match field with
  | none => some default
  | some l => read l

/-- A field that may be missing; `null` counts as missing. -/
def optional {α : Type} (read : Literal → Option α) (field : Option Literal) :
    Option (Option α) :=
  match field with
  | none => some none
  | some .null => some none
  | some l => (read l).map some

namespace Literal

/-- The truth value of a literal. -/
def bool? : Literal → Option Bool
  | .bool value => some value
  | _ => none

/-- The items of an array, each read by `read`. -/
def list? {α : Type} (read : Literal → Option α) : Literal → Option (List α)
  | .array items => items.mapM read
  | _ => none

/-- **A byte**: an integer from 0 to 255. -/
def byte? : Literal → Option UInt8
  | .number text =>
    match text.value? with
    | some (.integer value) =>
      if 0 ≤ value ∧ value < 256 then some (UInt8.ofNat value.toNat) else none
    | _ => none
  | _ => none

/-- **A blob**: an array of bytes. -/
def bytes? : Literal → Option Bytes :=
  list? byte?

/-- **A bare name**: a string, or an object with `null` under the name as its only member. -/
def name? : Literal → Option String
  | .string units => (decodeUnits? units).map String.ofList
  | .object [(key, .null)] => (decodeUnits? key).map String.ofList
  | _ => none

end Literal

/-- A blob as a value: an array of numbers. -/
def ofBytes (bytes : Bytes) : Json :=
  .array (bytes.map fun b => .ofNat b.toNat)

end ProofToolchain.Json
