import ProofToolchain.Json.Record

/-!
# Backends, schemes and curves

The three choices a proof is made under. Each has a fixed set of values with a lower-case name.
A name given by a user is accepted in any mixture of cases (`Choice.parse`); in a JSON record it
must be spelled exactly.

Which combinations of the three make sense is for the engine to say, not for this module.
-/

namespace ProofToolchain

/-- **A choice with named values.** -/
class Choice (α : Type) where
  /-- What is chosen. -/
  option : String
  /-- The values, the default first. -/
  values : List α
  /-- The name of a value. -/
  name : α → String

/-- **A name that is none of a choice's values.** -/
structure UnknownName where
  /-- What was to be chosen. -/
  option : String
  /-- The name as it was given. -/
  value : String
  deriving DecidableEq, Repr

/-- The wording of the error. -/
def UnknownName.message (e : UnknownName) : String :=
  "unknown " ++ e.option ++ ": " ++ e.value

namespace Choice

variable {α : Type} [Choice α]

/-- The value with exactly this name. -/
def ofName? (s : String) : Option α :=
  (values (α := α)).find? (name · == s)

/-- A text with its ASCII letters in lower case. -/
def lowerCase (s : String) : String :=
  String.ofList (s.toList.map Char.toLower)

/-- **The value that a user names**, in any mixture of cases. -/
def parse (s : String) : Except UnknownName α :=
  match ofName? (lowerCase s) with
  | some value => .ok value
  | none => .error ⟨option α, s⟩

/-- The value that a record names. -/
def read? (l : Json.Literal) : Option α :=
  l.name?.bind ofName?

end Choice

/-- **The implementation of the proof system.** -/
inductive Backend where
  /-- `ark` -/
  | ark
  /-- `bellman` -/
  | bellman
  deriving DecidableEq, Repr, Inhabited

/-- **The proof system.** -/
inductive Scheme where
  /-- `g16` -/
  | g16
  /-- `gm17` -/
  | gm17
  /-- `marlin` -/
  | marlin
  deriving DecidableEq, Repr, Inhabited

/-- **The elliptic curve** over which the program's field and the proof system are defined. -/
inductive Curve where
  /-- `bn128` -/
  | bn128
  /-- `bls12_381` -/
  | bls12_381
  /-- `bls12_377` -/
  | bls12_377
  /-- `bw6_761` -/
  | bw6_761
  deriving DecidableEq, Repr, Inhabited

/-- The name of a backend. -/
def Backend.name : Backend → String
  | .ark => "ark"
  | .bellman => "bellman"

/-- The name of a scheme. -/
def Scheme.name : Scheme → String
  | .g16 => "g16"
  | .gm17 => "gm17"
  | .marlin => "marlin"

/-- The name of a curve. -/
def Curve.name : Curve → String
  | .bn128 => "bn128"
  | .bls12_381 => "bls12_381"
  | .bls12_377 => "bls12_377"
  | .bw6_761 => "bw6_761"

instance : Choice Backend := ⟨"backend", [.ark, .bellman], Backend.name⟩

instance : Choice Scheme := ⟨"scheme", [.g16, .gm17, .marlin], Scheme.name⟩

instance : Choice Curve := ⟨"curve", [.bn128, .bls12_381, .bls12_377, .bw6_761], Curve.name⟩

/-- **The triple a provider is bound to.** -/
structure ProviderOptions where
  /-- The backend. -/
  backend : Backend := .ark
  /-- The scheme. -/
  scheme : Scheme := .g16
  /-- The curve. -/
  curve : Curve := .bn128
  deriving DecidableEq, Repr, Inhabited

namespace ProviderOptions

/-- The triple read from a record; fields that are not written take their defaults. -/
def ofLiteral? (l : Json.Literal) : Option ProviderOptions := do
  let fields ← l.fields? ["backend", "scheme", "curve"]
  match fields with
  | [backend, scheme, curve] =>
    let backend ← Json.withDefault .ark Choice.read? backend
    let scheme ← Json.withDefault .g16 Choice.read? scheme
    let curve ← Json.withDefault .bn128 Choice.read? curve
    return ⟨backend, scheme, curve⟩
  | _ => none

/-- The triple that a JSON text spells. -/
def parse? (text : String) : Option ProviderOptions :=
  (Json.Literal.parse? text.toList).bind ofLiteral?

/-- The triple as a record. -/
def toJson (o : ProviderOptions) : Json :=
  .object [("backend", .string o.backend.name), ("scheme", .string o.scheme.name),
    ("curve", .string o.curve.name)]

/-- The same triple with another backend. -/
def withBackend (o : ProviderOptions) (backend : Backend) : ProviderOptions := { o with backend }

/-- The same triple with another scheme. -/
def withScheme (o : ProviderOptions) (scheme : Scheme) : ProviderOptions := { o with scheme }

/-- The same triple with another curve. -/
def withCurve (o : ProviderOptions) (curve : Curve) : ProviderOptions := { o with curve }

end ProviderOptions

end ProofToolchain
