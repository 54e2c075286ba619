import ProofToolchain.Error
import ProofToolchain.Floating.Reading
import ProofToolchain.Json.Printer
import ProofToolchain.Json.Record

/-!
# Arguments

A caller's arguments are data of many shapes: numbers of several widths, texts, sequences, maps
with keys of their own types. They travel to an engine as one compact JSON text, and **encoding**
them is where they can be refused: an integer must fit a 64-bit word, and a map's keys must have a
text. What has no JSON number, an infinity for instance, becomes `null`.

The encoding is canonical: members are written in key order, so it does not tell in which order a
map was filled.
-/

namespace ProofToolchain

/-- **An argument.** -/
inductive Argument where
  /-- No value. -/
  | unit
  /-- A value that might have been missing. -/
  | present (content : Argument)
  /-- A truth value. -/
  | bool (value : Bool)
  /-- An integer of any width. -/
  | integer (value : Int)
  /-- A double. -/
  | double (value : Floating.Value)
  /-- A number in single precision. -/
  | single (value : Floating.Value)
  /-- A character. -/
  | char (value : Char)
  /-- A text. -/
  | text (value : String)
  /-- A blob. -/
  | bytes (value : Bytes)
  /-- A JSON value. -/
  | json (value : Json)
  /-- An alternative, by its name. -/
  | variant (name : String)
  /-- An alternative that carries a value. -/
  | tagged (name : String) (content : Argument)
  /-- A sequence. -/
  | sequence (items : List Argument)
  /-- A map. -/
  | map (entries : List (Argument × Argument))

namespace Argument

/-- An integer as a JSON number, if a 64-bit word holds it, unsigned or signed. -/
def encodeInteger (value : Int) : Option Json :=
  if -(Text.wordLimit 63 : Int) ≤ value ∧ value < (Text.wordLimit 64 : Int) then
    some (.number (.integer value))
  else none

/-- A floating-point value as a JSON number. A number in single precision is a double too. -/
def encodeFloating : Floating.Value → Json
  | .finite x =>
    match Floating.Format.double.round? x.negative x.magnitude with
    | some y => .number (.double y)
    | none => .null
  | _ => .null

/-- A floating-point value as a key: its shortest digits in its own format, laid out as that
format is. -/
def floatingKey? (l : Floating.Layout) (f : Floating.Format) : Floating.Value → Option String
  | .finite x => some (String.ofList (l.write f x))
  | _ => none

/-- A JSON value as a key. -/
def jsonKey? : Json → Option String
  | .string value => some value
  | .bool value => some (if value then "true" else "false")
  | .number value => some (String.ofList value.chars)
  | _ => none

/-- **The text of a key**; composite values, blobs and missing values have none. -/
def key? : Argument → Option String
  | .bool value => some (if value then "true" else "false")
  | .integer value => some (String.ofList (Text.decimalInt value))
  | .double value => floatingKey? .json .double value
  | .single value => floatingKey? .jsonSingle .single value
  | .char value => some (String.ofList [value])
  | .text value => some value
  | .json value => jsonKey? value
  | .variant name => some name
  | _ => none

mutual

/-- **The JSON value of an argument**, if it has one. -/
def toJson? : Argument → Option Json
  | .unit => some .null
  | .present content => toJson? content
  | .bool value => some (.bool value)
  | .integer value => encodeInteger value
  | .double value => some (encodeFloating value)
  | .single value => some (encodeFloating value)
  | .char value => some (.string (String.ofList [value]))
  | .text value => some (.string value)
  | .bytes value => some (.ofBytes value)
  | .json value => some value
  | .variant name => some (.string name)
  | .tagged name content => (toJson? content).map fun j => .object [(name, j)]
  | .sequence items => (itemsToJson? items).map .array
  | .map entries => (entriesToJson? entries).map Json.ofMembers

/-- The values of a sequence. -/
def itemsToJson? : List Argument → Option (List Json)
  | [] => some []
  | item :: rest => do
    let j ← toJson? item
    let js ← itemsToJson? rest
    return j :: js

/-- The members of a map, as they are supplied. -/
def entriesToJson? : List (Argument × Argument) → Option (List (String × Json))
  | [] => some []
  | (key, value) :: rest => do
    let k ← key? key
    let j ← toJson? value
    let ms ← entriesToJson? rest
    return (k, j) :: ms

end

/-- **The encoding of an argument**: the compact text of its value. -/
def encode (a : Argument) : Except Error String :=
  match a.toJson? with
  | some j => .ok j.text
  | none => .error .encoding

end Argument

/-! ## Field elements -/

/-- **A value that is written as a field element**: its text is taken over as it is displayed. -/
inductive FieldElement where
  /-- An integer. -/
  | integer (value : Int)
  /-- A truth value. -/
  | bool (value : Bool)
  /-- A text. -/
  | text (value : String)
  /-- A double, displayed without an exponent. -/
  | double (value : Floating.Value)

/-- How a field element is displayed. -/
def FieldElement.display : FieldElement → String
  | .integer value => String.ofList (Text.decimalInt value)
  | .bool value => if value then "true" else "false"
  | .text value => value
  | .double (.finite x) => String.ofList (Floating.Layout.plain.write .double x)
  | .double (.infinite negative) => if negative then "-inf" else "inf"
  | .double .undefined => "NaN"

/-- A field element as a JSON value, which is a string. -/
def FieldElement.toJson (e : FieldElement) : Json :=
  .string e.display

end ProofToolchain
