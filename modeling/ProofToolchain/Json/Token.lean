import ProofToolchain.Text.Utf8

/-!
# The tokens of a JSON text

A JSON text is cut into brackets, separators, words, numbers and strings, with blanks between
them. Cutting judges the spelling of each token and nothing more: a number is kept as the digits
it is written with and a string as the characters and code units that its escapes stand for, so
that a value that nobody asks for need not be one that a machine can hold.
-/

namespace ProofToolchain.Json

/-- The four blanks of JSON. -/
def isBlank (c : Char) : Bool :=
  c == ' ' || c == '\t' || c == '\n' || c == '\r'

/-- **A unit of a string**: a character that stands for itself or has a short escape, a UTF-16
code unit written in hexadecimal, or bytes that are no character at all. -/
inductive StringUnit where
  /-- A character. -/
  | char (c : Char)
  /-- A code unit, which may be half of a character. -/
  | code (n : Nat)
  /-- Bytes that stand for no character, which only a text given as bytes can hold. -/
  | gap
  deriving DecidableEq, Repr

/-- **The digits of a number** as they are written. -/
structure NumberText where
  /-- Whether a minus sign stands before the number. -/
  negative : Bool
  /-- The digits before the point. -/
  whole : List Char
  /-- The digits after the point, if there is one. -/
  fraction : Option (List Char)
  /-- The exponent part, if there is one: whether it is negative, and its digits. -/
  exponent : Option (Bool × List Char)
  deriving DecidableEq, Repr

/-- **A token.** -/
inductive Token where
  /-- `[` -/
  | openArray
  /-- `]` -/
  | closeArray
  /-- `{` -/
  | openObject
  /-- `}` -/
  | closeObject
  /-- `:` -/
  | colon
  /-- `,` -/
  | comma
  /-- `null` -/
  | null
  /-- `true` or `false` -/
  | bool (value : Bool)
  /-- A number. -/
  | number (text : NumberText)
  /-- A string. -/
  | string (units : List StringUnit)
  deriving DecidableEq, Repr

/-! ## Strings -/

/-- The character that a short escape stands for. -/
def unescape? (c : Char) : Option Char :=
  match c with
  | '"' => some '"'
  | '\\' => some '\\'
  | '/' => some '/'
  | 'b' => some '\x08'
  | 'f' => some '\x0c'
  | 'n' => some '\n'
  | 'r' => some '\r'
  | 't' => some '\t'
  | _ => none

/-- The code unit that four hexadecimal digits spell. -/
def codeUnit? (a b c d : Char) : Option Nat := do
  return (((← hexValue? a) * 16 + (← hexValue? b)) * 16 + (← hexValue? c)) * 16 + (← hexValue? d)

/-- The units of a string whose opening quote is read, and the text after its closing quote. -/
def readUnits : List Char → Option (List StringUnit × List Char)
  | [] => none
  | '\\' :: 'u' :: a :: b :: c :: d :: rest => do
    let unit ← codeUnit? a b c d
    let (units, rest) ← readUnits rest
    return (.code unit :: units, rest)
  | '\\' :: e :: rest => do
    let c ← unescape? e
    let (units, rest) ← readUnits rest
    return (.char c :: units, rest)
  | c :: rest =>
    if c = '"' then some ([], rest)
    else if c.toNat < 0x20 then none
    else do
      let (units, rest) ← readUnits rest
      return (.char c :: units, rest)

/-- The characters that units spell. A code unit that is half of a character must stand next to
its other half, and there may be no gap. -/
def decodeUnits? : List StringUnit → Option (List Char)
  | [] => some []
  | .gap :: _ => none
  | .char c :: rest => (decodeUnits? rest).map (c :: ·)
  | .code high :: .code low :: rest =>
    if 0xD800 ≤ high ∧ high ≤ 0xDBFF then
      if 0xDC00 ≤ low ∧ low ≤ 0xDFFF then
        let c := Char.ofNat (0x10000 + (high - 0xD800) * 0x400 + (low - 0xDC00))
        (decodeUnits? rest).map (c :: ·)
      else none
    else if 0xDC00 ≤ high ∧ high ≤ 0xDFFF then none
    else (decodeUnits? (.code low :: rest)).map (Char.ofNat high :: ·)
  | .code unit :: rest =>
    if 0xD800 ≤ unit ∧ unit ≤ 0xDFFF then none
    else (decodeUnits? rest).map (Char.ofNat unit :: ·)

/-! ## Numbers -/

/-- A run of digits that must not be empty, and the text after it. -/
def readDigits (cs : List Char) : Option (List Char × List Char) :=
  let digits := cs.takeWhile Char.isDigit
  if digits.isEmpty then none else some (digits, cs.dropWhile Char.isDigit)

/-- The digits after a point, if a point stands here. -/
def readFraction : List Char → Option (Option (List Char) × List Char)
  | '.' :: cs => do
    let (digits, rest) ← readDigits cs
    return (some digits, rest)
  | cs => some (none, cs)

/-- The sign and digits of an exponent, if its letter stands here. -/
def readExponent (cs : List Char) : Option (Option (Bool × List Char) × List Char) :=
  match cs with
  | c :: rest =>
    if c = 'e' ∨ c = 'E' then
      let (negative, rest) := match rest with
        | '-' :: rest => (true, rest)
        | '+' :: rest => (false, rest)
        | _ => (false, rest)
      do
        let (digits, rest) ← readDigits rest
        return (some (negative, digits), rest)
    else some (none, cs)
  | [] => some (none, [])

/-- A number after its sign. A zero stands alone before the point. -/
def readNumber (negative : Bool) (cs : List Char) : Option (NumberText × List Char) := do
  let (whole, rest) ← readDigits cs
  if whole.head? = some '0' ∧ whole.length ≠ 1 then none
  else do
    let (fraction, rest) ← readFraction rest
    let (exponent, rest) ← readExponent rest
    return (⟨negative, whole, fraction, exponent⟩, rest)

/-! ## Cutting -/

/-- A word that a text starts with, and the text after it. -/
def readWord (word : List Char) (token : Token) (cs : List Char) : Option (Token × List Char) :=
  if word.isPrefixOf cs then some (token, cs.drop word.length) else none

/-- **The token that starts with `c`**, and the text after it. -/
def nextToken (c : Char) (cs : List Char) : Option (Token × List Char) :=
  match c with
  | '[' => some (.openArray, cs)
  | ']' => some (.closeArray, cs)
  | '{' => some (.openObject, cs)
  | '}' => some (.closeObject, cs)
  | ':' => some (.colon, cs)
  | ',' => some (.comma, cs)
  | 'n' => readWord ['u', 'l', 'l'] .null cs
  | 't' => readWord ['r', 'u', 'e'] (.bool true) cs
  | 'f' => readWord ['a', 'l', 's', 'e'] (.bool false) cs
  | '"' => (readUnits cs).map fun (units, rest) => (.string units, rest)
  | '-' => (readNumber true cs).map fun (n, rest) => (.number n, rest)
  | _ =>
    if c.isDigit then (readNumber false (c :: cs)).map fun (n, rest) => (.number n, rest)
    else none

/-! ### Each token takes at least one character -/

theorem readUnits_length {cs rest : List Char} {units : List StringUnit}
    (h : readUnits cs = some (units, rest)) : rest.length < cs.length := by
  fun_induction readUnits cs generalizing units rest with
  | case1 => simp at h
  | case2 a b c d tail ih =>
    simp only [Option.bind_eq_bind, Option.bind_eq_some_iff, Option.pure_def,
      Option.some.injEq, Prod.mk.injEq] at h
    obtain ⟨_, _, ⟨us, r⟩, hr, _, rfl⟩ := h
    have := ih hr
    simp only [List.length_cons]
    omega
  | case3 e tail _ ih =>
    simp only [Option.bind_eq_bind, Option.bind_eq_some_iff, Option.pure_def,
      Option.some.injEq, Prod.mk.injEq] at h
    obtain ⟨_, _, ⟨us, r⟩, hr, _, rfl⟩ := h
    have := ih hr
    simp only [List.length_cons]
    omega
  | case4 => simp_all
  | case5 => simp at h
  | case6 c tail _ _ _ _ ih =>
    simp only [Option.bind_eq_bind, Option.bind_eq_some_iff, Option.pure_def,
      Option.some.injEq, Prod.mk.injEq] at h
    obtain ⟨⟨us, r⟩, hr, _, rfl⟩ := h
    have := ih hr
    simp only [List.length_cons]
    omega

theorem readDigits_length {cs digits rest : List Char} (h : readDigits cs = some (digits, rest)) :
    rest.length < cs.length := by
  have hcs := congrArg List.length (List.takeWhile_append_dropWhile (p := Char.isDigit) (l := cs))
  unfold readDigits at h
  dsimp only at h
  split at h
  · simp at h
  · next hne =>
    simp only [Option.some.injEq, Prod.mk.injEq] at h
    rw [List.length_append] at hcs
    have hpos : 0 < (cs.takeWhile Char.isDigit).length := by
      refine List.length_pos_iff.2 fun h0 => hne ?_
      rw [h0]; rfl
    rw [← h.2]
    omega

theorem readFraction_length {cs rest : List Char} {fraction : Option (List Char)}
    (h : readFraction cs = some (fraction, rest)) : rest.length ≤ cs.length := by
  unfold readFraction at h
  split at h
  · simp only [Option.bind_eq_bind, Option.bind_eq_some_iff, Option.pure_def,
      Option.some.injEq, Prod.mk.injEq] at h
    obtain ⟨⟨ds, r⟩, hr, _, rfl⟩ := h
    have := readDigits_length hr
    simp only [List.length_cons]
    omega
  · simp only [Option.some.injEq, Prod.mk.injEq] at h
    exact h.2 ▸ Nat.le_refl _

theorem readExponent_length {cs rest : List Char} {exponent : Option (Bool × List Char)}
    (h : readExponent cs = some (exponent, rest)) : rest.length ≤ cs.length := by
  unfold readExponent at h
  split at h
  · split at h
    · simp only [Option.bind_eq_bind, Option.bind_eq_some_iff, Option.pure_def,
        Option.some.injEq, Prod.mk.injEq] at h
      obtain ⟨⟨ds, r⟩, hr, _, rfl⟩ := h
      have := readDigits_length hr
      split at this <;> simp_all <;> omega
    · simp only [Option.some.injEq, Prod.mk.injEq] at h
      exact h.2 ▸ Nat.le_refl _
  · simp only [Option.some.injEq, Prod.mk.injEq] at h
    exact h.2 ▸ Nat.le_refl _

theorem readNumber_length {negative : Bool} {cs rest : List Char} {number : NumberText}
    (h : readNumber negative cs = some (number, rest)) : rest.length < cs.length := by
  unfold readNumber at h
  simp only [Option.bind_eq_bind, Option.bind_eq_some_iff] at h
  obtain ⟨⟨whole, r₁⟩, h₁, h⟩ := h
  split at h
  · simp at h
  · simp only [Option.bind_eq_some_iff, Option.pure_def, Option.some.injEq, Prod.mk.injEq] at h
    obtain ⟨⟨_, r₂⟩, h₂, ⟨_, r₃⟩, h₃, _, rfl⟩ := h
    have := readDigits_length h₁
    have := readFraction_length h₂
    have := readExponent_length h₃
    simp only at *
    omega

theorem readWord_length {word cs rest : List Char} {t token : Token}
    (h : readWord word t cs = some (token, rest)) : rest.length ≤ cs.length := by
  unfold readWord at h
  split at h
  · simp only [Option.some.injEq, Prod.mk.injEq] at h
    rw [← h.2, List.length_drop]
    omega
  · simp at h

theorem nextToken_length {c : Char} {cs rest : List Char} {token : Token}
    (h : nextToken c cs = some (token, rest)) : rest.length ≤ cs.length := by
  unfold nextToken at h
  split at h
  all_goals try
    (simp only [Option.some.injEq, Prod.mk.injEq] at h; exact h.2 ▸ Nat.le_refl _)
  · exact readWord_length h
  · exact readWord_length h
  · exact readWord_length h
  · obtain ⟨⟨us, r⟩, hr, heq⟩ := Option.map_eq_some_iff.1 h
    have := readUnits_length hr
    simp only [Prod.mk.injEq] at heq
    rw [← heq.2]
    omega
  · obtain ⟨⟨n, r⟩, hr, heq⟩ := Option.map_eq_some_iff.1 h
    have := readNumber_length hr
    simp only [Prod.mk.injEq] at heq
    rw [← heq.2]
    omega
  · split at h
    · obtain ⟨⟨n, r⟩, hr, heq⟩ := Option.map_eq_some_iff.1 h
      have := readNumber_length hr
      simp only [Prod.mk.injEq, List.length_cons] at heq this
      rw [← heq.2]
      omega
    · simp at h

/-- **The tokens of a text**; `none` where something is not spelled as a token. -/
def tokens? : List Char → Option (List Token)
  | [] => some []
  | c :: cs =>
    if isBlank c then tokens? cs
    else match _h : nextToken c cs with
      | none => none
      | some (token, rest) => (tokens? rest).map (token :: ·)
termination_by cs => cs.length
decreasing_by
  · simp
  · have := nextToken_length _h
    simp only [List.length_cons]
    omega

end ProofToolchain.Json
