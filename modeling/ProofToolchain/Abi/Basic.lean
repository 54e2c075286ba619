import ProofToolchain.Json.Blob
import ProofToolchain.Json.Printer
import ProofToolchain.Json.Record

/-!
# Interfaces of compiled programs

The interface of a program names the parameters of its entry point and the type it returns. A type
is a name with, for a composite, a description of what it is composed of; the description is kept
as the JSON value the compiler wrote, since programs that only pass an interface on need not
understand it.

A type may be written as an object or as an array of its fields. An input may not: its type is
written among its own members, so an input is always an object, and since any of its members could
belong to the type, all of them must be readable.
-/

namespace ProofToolchain

/-- **A type of an interface.** -/
structure AbiType where
  /-- The name: `field`, `bool`, `u8` to `u64`, `array`, `struct` or `tuple`. -/
  name : String
  /-- What a composite is composed of, as the compiler wrote it. -/
  components : Option Json := none
  deriving Repr

/-- **A parameter of the entry point.** -/
structure AbiInput where
  /-- The name. -/
  name : String
  /-- Whether the argument is public. -/
  isPublic : Bool := false
  /-- The type. -/
  type : AbiType
  deriving Repr

/-- **The interface of a program.** -/
structure Abi where
  /-- The parameters, in order. -/
  inputs : List AbiInput := []
  /-- What the entry point returns, if anything. -/
  output : Option AbiType := none
  deriving Repr, Inhabited

namespace AbiType

/-- The type of field elements. -/
def field : AbiType := ⟨"field", none⟩

/-- Whether a type is the type of field elements. -/
def isField (t : AbiType) : Bool :=
  t.name == "field" && t.components.isNone

/-- The members that write a type. -/
def members (t : AbiType) : List (String × Json) :=
  ("type", .string t.name) :: match t.components with
    | some components => [("components", components)]
    | none => []

/-- A type as a record. -/
def toJson (t : AbiType) : Json :=
  .object t.members

/-- A type from its fields, if its name is read by `name?` and its components by `components?`. -/
def ofFields? (components? : Json.Literal → Option Json) :
    List (Option Json.Literal) → Option AbiType
  | [type, components] => do
    let name ← Json.required Json.Literal.string? type
    let components ← Json.optional components? components
    return ⟨name, components⟩
  | _ => none

/-- The type that a literal writes, whose components nest less than `depth` arrays and objects. -/
def ofLiteral? (depth : Nat) (l : Json.Literal) : Option AbiType := do
  let fields ← l.fields? ["type", "components"]
  ofFields? (Json.Literal.toJson? (depth - 1)) fields

end AbiType

namespace AbiInput

/-- An input as a record; its type's members stand among its own. -/
def toJson (i : AbiInput) : Json :=
  .object (("name", .string i.name) :: ("public", .bool i.isPublic) :: i.type.members)

/-- The input that a literal writes: an object all of whose members are readable. -/
def ofLiteral? (depth : Nat) : Json.Literal → Option AbiInput
  | .object members => do
    let members ← Json.Literal.keyed? members
    let own := members.filter fun m => m.1 != "name" && m.1 != "public"
    let _ ← own.mapM fun m => m.2.toJson? (depth - 1)
    let name ← Json.required Json.Literal.string? (← Json.Literal.single? "name" members)
    let isPublic ←
      Json.withDefault false Json.Literal.bool? (← Json.Literal.single? "public" members)
    let type ← Json.Literal.single? "type" own
    let components ← Json.Literal.single? "components" own
    let type ← AbiType.ofFields? (Json.Literal.toJson? (depth - 1)) [type, components]
    return ⟨name, isPublic, type⟩
  | _ => none

end AbiInput

namespace Abi

/-- An interface as a record. -/
def toJson (a : Abi) : Json :=
  .object (("inputs", .array (a.inputs.map AbiInput.toJson)) :: match a.output with
    | some output => [("output", output.toJson)]
    | none => [])

/-- The text of an interface. -/
def text (a : Abi) : String := a.toJson.text

/-- The interface that a literal writes. -/
def ofLiteral? (l : Json.Literal) : Option Abi := do
  let fields ← l.fields? ["inputs", "output"]
  match fields with
  | [inputs, output] =>
    let inputs ←
      Json.withDefault [] (Json.Literal.list? (AbiInput.ofLiteral? (Json.maxDepth - 2))) inputs
    let output ← Json.optional (AbiType.ofLiteral? (Json.maxDepth - 1)) output
    return ⟨inputs, output⟩
  | _ => none

/-- **The interface that a JSON text spells.** -/
def parse? (text : String) : Option Abi :=
  (Json.Literal.parse? text.toList).bind ofLiteral?

/-- The interface that a blob spells. -/
def ofBlob? (blob : Bytes) : Option Abi :=
  (Json.Literal.ofBlob? blob).bind ofLiteral?

/-- **The number of values the entry point returns.** A tuple counts by its elements, the empty
one as none; any other type is one value. -/
def outputCount (a : Abi) : Nat :=
  match a.output with
  | none => 0
  | some type =>
    if type.name = "tuple" then
      ((type.components.bind (Json.get? "elements")).bind Json.items?).elim 0 List.length
    else 1

end Abi

end ProofToolchain
