import ProofToolchain.Json.Literal

/-!
# JSON texts in blobs

A blob is read byte by byte: everything that gives a JSON text its structure is ASCII, and bytes
beyond that may stand in strings only. What the bytes of a string say is settled afterwards, by
joining them into characters (`joinBytes`). Bytes that are no UTF-8 leave a gap, so the string
spells nothing, which matters to those who ask for it and to nobody else: like any other value, a
string that is skipped needs no more than its quotes.
-/

namespace ProofToolchain.Json

/-- The character or the gap that bytes spell. -/
def StringUnit.ofRead : Option Char → StringUnit
  | some c => .char c
  | none => .gap

/-- The gap that is left where a character is cut short. -/
def cutShort : Text.Utf8.State → List StringUnit
  | .start => []
  | .inside .. => [.gap]

/-- **The units of a string whose characters are bytes**, joined into the characters that they
spell, given where the reader stands. An escape is no byte, so it cuts a character short. -/
def joinBytes (state : Text.Utf8.State) : List StringUnit → List StringUnit
  | [] => cutShort state
  | .char c :: rest =>
    let (read, next) := Text.Utf8.step state (UInt8.ofNat c.toNat)
    read.map .ofRead ++ joinBytes next rest
  | unit :: rest => cutShort state ++ unit :: joinBytes .start rest

/-- A token with the bytes of its string joined. -/
def Token.joined : Token → Token
  | .string units => .string (joinBytes .start units)
  | token => token

/-- The tokens of a blob. -/
def blobTokens? (blob : Bytes) : Option (List Token) :=
  (tokens? (blob.map fun b => Char.ofNat b.toNat)).map (List.map Token.joined)

/-- **The value that a blob spells.** -/
def Literal.ofBlob? (blob : Bytes) : Option Literal :=
  (blobTokens? blob).bind ofTokens?

end ProofToolchain.Json
