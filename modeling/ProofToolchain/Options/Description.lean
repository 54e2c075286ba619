import ProofToolchain.Options.Request
import ProofToolchain.Text.Printable

/-!
# Describing options

Options are described for diagnostics, one field after another by name. A resolver and a logger
are functions, so that only whether there is one can be told. Texts are quoted with their special
characters escaped.
-/

namespace ProofToolchain

namespace Text

/-- A character inside a quoted text. Those that do not show are written by their code point. -/
def describeChar (c : Char) : List Char :=
  if c = '"' then ['\\', '"']
  else if c = '\\' then ['\\', '\\']
  else if c = '\n' then ['\\', 'n']
  else if c = '\r' then ['\\', 'r']
  else if c = '\t' then ['\\', 't']
  else if c = '\x00' then ['\\', '0']
  else if isPrintable c then [c]
  else ['\\', 'u', '\x7b'] ++ Nat.toDigits 16 c.toNat ++ ['\x7d']

/-- A text between quotes. -/
def describe (s : String) : String :=
  String.ofList ('"' :: s.toList.flatMap describeChar ++ ['"'])

end Text

/-! ## Pieces of a description -/

/-- A truth value. -/
def describeBool (b : Bool) : String := if b then "true" else "false"

/-- A value that may be missing. -/
def describeOption (value : Option String) : String :=
  match value with
  | some s => "Some(" ++ s ++ ")"
  | none => "None"

/-- Fields in braces, with their names. -/
def describeFields (fields : List (String × String)) : String :=
  String.ofList (Text.join [',', ' '] (fields.map fun f => (f.1 ++ ": " ++ f.2).toList))

/-- A named record of fields. -/
def describeRecord (name : String) (fields : List (String × String)) : String :=
  name ++ " \x7b " ++ describeFields fields ++ " \x7d"

/-- The constructor a backend is described by. -/
def Backend.describe : Backend → String
  | .ark => "Ark"
  | .bellman => "Bellman"

/-- The constructor a scheme is described by. -/
def Scheme.describe : Scheme → String
  | .g16 => "G16"
  | .gm17 => "Gm17"
  | .marlin => "Marlin"

/-- The constructor a curve is described by. -/
def Curve.describe : Curve → String
  | .bn128 => "Bn128"
  | .bls12_381 => "Bls12_381"
  | .bls12_377 => "Bls12_377"
  | .bw6_761 => "Bw6_761"

mutual

/-- A flag's value. -/
def Json.describe : Json → String
  | .null => "Null"
  | .bool b => "Bool(" ++ describeBool b ++ ")"
  | .number n => "Number(" ++ String.ofList n.chars ++ ")"
  | .string s => "String(" ++ Text.describe s ++ ")"
  | .array items => "Array [" ++ Json.describeItems items ++ "]"
  | .object members => "Object \x7b" ++ Json.describeMembers members ++ "\x7d"

/-- The items of an array. -/
def Json.describeItems : List Json → String
  | [] => ""
  | [item] => Json.describe item
  | item :: rest => Json.describe item ++ ", " ++ Json.describeItems rest

/-- The members of an object. -/
def Json.describeMembers : List (String × Json) → String
  | [] => ""
  | [(key, value)] => Text.describe key ++ ": " ++ Json.describe value
  | (key, value) :: rest =>
    Text.describe key ++ ": " ++ Json.describe value ++ ", " ++ Json.describeMembers rest

end

/-- The flags as a description. -/
def Flags.describe (f : Flags) : String :=
  describeRecord "CompileConfig" [("flags", "\x7b" ++ Json.describeMembers f.entries ++ "\x7d")]

/-- **Compile options as a description.** -/
def CompileOptions.describe (o : CompileOptions) : String :=
  describeRecord "CompileOptions"
    [("curve", describeOption (o.curve.map Curve.describe)),
      ("location", describeOption (o.location.map Text.describe)),
      ("resolver", describeOption (o.resolver.map fun _ => Text.describe "..")),
      ("config", o.flags.describe),
      ("snarkjs", describeBool o.snarkjs)]

/-- **Witness options as a description.** -/
def WitnessOptions.describe (o : WitnessOptions) : String :=
  describeRecord "ComputeWitnessOptions"
    [("snarkjs", describeBool o.snarkjs),
      ("logger", describeOption (o.logger.map fun _ => Text.describe ".."))]

/-- **A provider's options as a description.** -/
def ProviderOptions.describe (o : ProviderOptions) : String :=
  describeRecord "ProviderOptions"
    [("backend", o.backend.describe), ("scheme", o.scheme.describe), ("curve", o.curve.describe)]

end ProofToolchain
