/-!
# Bytes and the text they hold

Blobs are lists of bytes. A text is written as its UTF-8 bytes (`encode`); reading goes through a
machine that consumes one byte at a time (`step`) and yields a character, or a **gap** where the
bytes are no UTF-8. A gap is a *maximal* ill-formed run: the longest start of a character that the
bytes agree with, or a single byte that starts none. `decode?` asks for a text without gaps, and
`decodeLossy` writes the replacement character for each of them.
-/

namespace ProofToolchain

/-- A blob: a program, a key, a proof, a file. -/
abbrev Bytes := List UInt8

namespace Text.Utf8

/-- The UTF-8 bytes of a text. -/
def encode (s : String) : Bytes :=
  s.toList.flatMap String.utf8EncodeChar

/-- **Where the reader stands**: between characters, or inside one whose first bytes are read. -/
inductive State where
  /-- Between characters. -/
  | start
  /-- Inside a character: `owed` bytes are to come after the next one, the next one must lie
  between `low` and `high`, and `value` is the number spelled so far. -/
  | inside (owed : Nat) (low high : UInt8) (value : Nat)

/-- What the first byte of a character announces; `none` when no character starts with it. -/
def State.ofFirst? (b : UInt8) : Option State :=
  if 0xC2 ≤ b ∧ b ≤ 0xDF then some (.inside 0 0x80 0xBF (b.toNat - 0xC0))
  else if b = 0xE0 then some (.inside 1 0xA0 0xBF 0)
  else if b = 0xED then some (.inside 1 0x80 0x9F 0xD)
  else if 0xE1 ≤ b ∧ b ≤ 0xEF then some (.inside 1 0x80 0xBF (b.toNat - 0xE0))
  else if b = 0xF0 then some (.inside 2 0x90 0xBF 0)
  else if 0xF1 ≤ b ∧ b ≤ 0xF3 then some (.inside 2 0x80 0xBF (b.toNat - 0xF0))
  else if b = 0xF4 then some (.inside 2 0x80 0x8F 4)
  else none

/-- A byte read between characters: what it yields, a character or a gap (`none`), and where the
reader stands then. -/
def first (b : UInt8) : List (Option Char) × State :=
  if b < 0x80 then ([some (Char.ofNat b.toNat)], .start)
  else match State.ofFirst? b with
    | some state => ([], state)
    | none => ([none], .start)

/-- **One byte.** A byte that cannot continue the character begun makes a gap of it and is read
again between characters. -/
def step (state : State) (b : UInt8) : List (Option Char) × State :=
  match state with
  | .start => first b
  | .inside owed low high value =>
    if low ≤ b ∧ b ≤ high then
      let value := value * 0x40 + (b.toNat - 0x80)
      match owed with
      | 0 => ([some (Char.ofNat value)], .start)
      | owed + 1 => ([], .inside owed 0x80 0xBF value)
    else (none :: (first b).1, (first b).2)

/-- The characters and gaps read from bytes, starting from a state. A character that the end of
the bytes cuts short is a gap. -/
def run : State → Bytes → List (Option Char)
  | .start, [] => []
  | .inside .., [] => [none]
  | state, b :: bs => (step state b).1 ++ run (step state b).2 bs

/-- The text that bytes hold, if they are well-formed UTF-8. -/
def decode? (bytes : Bytes) : Option String :=
  ((run .start bytes).mapM id).map String.ofList

/-- The text that bytes hold, with a replacement character for each gap. -/
def decodeLossy (bytes : Bytes) : String :=
  String.ofList ((run .start bytes).map (·.getD '\uFFFD'))

end Text.Utf8

/-- **A blob is text or hexadecimal digits** when it is shown: two lower-case digits a byte. -/
def Bytes.toHex (bytes : Bytes) : String :=
  String.ofList (bytes.flatMap fun b =>
    [Nat.digitChar (b.toNat / 16), Nat.digitChar (b.toNat % 16)])

/-- The value of a hexadecimal digit, upper or lower case. -/
def hexValue? (c : Char) : Option Nat :=
  if '0' ≤ c ∧ c ≤ '9' then some (c.toNat - '0'.toNat)
  else if 'a' ≤ c ∧ c ≤ 'f' then some (c.toNat - 'a'.toNat + 10)
  else if 'A' ≤ c ∧ c ≤ 'F' then some (c.toNat - 'A'.toNat + 10)
  else none

/-- The bytes that hexadecimal digits spell, two digits a byte. -/
def Bytes.ofHex? : List Char → Option Bytes
  | [] => some []
  | [_] => none
  | a :: b :: rest => do
    let high ← hexValue? a
    let low ← hexValue? b
    return UInt8.ofNat (high * 16 + low) :: (← Bytes.ofHex? rest)

end ProofToolchain
