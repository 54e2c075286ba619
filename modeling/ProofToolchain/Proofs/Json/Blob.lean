import ProofToolchain.Json.Blob
import ProofToolchain.Proofs.Json.Readers
import ProofToolchain.Proofs.Json.RoundTrip
import ProofToolchain.Proofs.Text.Decoding

/-!
# A blob is read as the text it holds

A JSON text may be handed over as characters or as the bytes they are written with, and bytes are
read without making characters of them first. Both come to the same for every text, whether it
spells a value or not (`Literal.ofBlob?_encode`).

To a reader of bytes a text looks like another text, where several characters stand for each one
beyond ASCII (`bytewise`). None of them is ASCII, while all that gives a JSON text its structure is.
So whatever a reader finds in a text it finds in the text as its bytes look, which is what
`ReadsBytewise` says of one reader. The look of a text keeps all that numbers and words are made of,
so only the reader of strings needs a proof of its own. Strings come out as their bytes look, and
joining the bytes gives them back (`joinBytes_bytewise`).
-/

namespace ProofToolchain.Json

open Text.Utf8

/-! ## A text as its bytes look -/

/-- The characters that the bytes of a character look like, one by one. -/
def bytesOf (c : Char) : List Char :=
  (String.utf8EncodeChar c).map charOf

/-- **A text as its bytes look.** -/
def bytewise (cs : List Char) : List Char :=
  cs.flatMap bytesOf

@[simp] theorem bytewise_nil : bytewise [] = [] := rfl

@[simp] theorem bytewise_cons (c : Char) (cs : List Char) :
    bytewise (c :: cs) = bytesOf c ++ bytewise cs := rfl

theorem bytesOf_of_isAscii {c : Char} (h : IsAscii c) : bytesOf c = [c] := by
  rw [bytesOf, utf8EncodeChar_of_isAscii h, List.map_singleton, charOf_byteOf h]

theorem bytewise_cons_of_isAscii {c : Char} (h : IsAscii c) (cs : List Char) :
    bytewise (c :: cs) = c :: bytewise cs := by
  rw [bytewise_cons, bytesOf_of_isAscii h, List.singleton_append]

/-- No byte of a character beyond ASCII looks like an ASCII character. -/
theorem exists_bytesOf {c : Char} (h : ¬ IsAscii c) :
    ∃ d ds, bytesOf c = d :: ds ∧ ∀ x ∈ d :: ds, ¬ IsAscii x := by
  obtain ⟨b, bs, hbytes, -, hcontinues, hfirst⟩ := exists_utf8EncodeChar c
  refine ⟨charOf b, bs.map charOf, by rw [bytesOf, hbytes, List.map_cons], ?_⟩
  intro x hx
  rcases List.mem_cons.1 hx with rfl | hx
  · exact not_isAscii_charOf (hfirst.resolve_left h)
  · obtain ⟨y, hy, rfl⟩ := List.mem_map.1 hx
    exact not_isAscii_charOf (continues_iff.1 (hcontinues y hy)).1

/-- **An ASCII character is seen where it stands**, and nowhere else. -/
theorem keeps_bytewise {c : Char} (h : IsAscii c) : Keeps bytewise c := by
  intro cs ds
  constructor
  · intro heq
    cases cs with
    | nil => cases heq
    | cons x cs =>
      by_cases hx : IsAscii x
      · rw [bytewise_cons_of_isAscii hx] at heq
        obtain ⟨rfl, hrest⟩ := List.cons.inj heq
        exact ⟨cs, rfl, hrest⟩
      · obtain ⟨d, ds', hbytes, hnot⟩ := exists_bytesOf hx
        rw [bytewise_cons, hbytes, List.cons_append] at heq
        obtain ⟨rfl, -⟩ := List.cons.inj heq
        exact absurd h (hnot d List.mem_cons_self)
  · rintro ⟨rest, rfl, rfl⟩
    exact bytewise_cons_of_isAscii h rest

/-- So is an ASCII word. -/
theorem bytewise_eq_append_iff {word : List Char} (h : ∀ c ∈ word, IsAscii c)
    {cs ds : List Char} :
    bytewise cs = word ++ ds ↔ ∃ rest, cs = word ++ rest ∧ bytewise rest = ds :=
  Keeps.eq_append_iff fun c hc => keeps_bytewise (h c hc)

/-! ## Readers -/

/-- **A reader reads bytewise** if it finds in a text as its bytes look what it finds in the text,
up to how that looks. This is to follow one change of texts (`Follows`). -/
def ReadsBytewise {α : Type} (look : α → α) (read : List Char → Option (α × List Char)) : Prop :=
  ∀ cs, read (bytewise cs) = (read cs).map (Prod.map look bytewise)

/-! ### Numbers and words -/

/-- What comes before an ASCII character is ASCII. -/
theorem isAscii_of_le {c d : Char} (h : c ≤ d) (hd : IsAscii d) : IsAscii c :=
  Nat.lt_of_le_of_lt (UInt32.le_iff_toNat_le.1 h) hd

theorem isAscii_of_isDigit {c : Char} (h : c.isDigit = true) : IsAscii c := by
  simp only [Char.isDigit, Bool.and_eq_true, decide_eq_true_eq] at h
  exact isAscii_of_le (d := '9') h.2 (by decide)

theorem isAscii_of_isAlpha {c : Char} (h : c.isAlpha = true) : IsAscii c := by
  simp only [Char.isAlpha, Char.isUpper, Char.isLower, Bool.or_eq_true, Bool.and_eq_true,
    decide_eq_true_eq] at h
  rcases h with h | h
  · exact isAscii_of_le (d := 'Z') h.2 (by decide)
  · exact isAscii_of_le (d := 'z') h.2 (by decide)

/-- The look of a text keeps what numbers and words are made of. -/
theorem keepsInner_bytewise : KeepsInner bytewise := by
  refine fun c hc => keeps_bytewise ?_
  simp only [isInner, Char.isAlphanum, Bool.or_eq_true, beq_iff_eq] at hc
  obtain ((((halpha | hdigit) | rfl) | rfl) | rfl) := hc
  · exact isAscii_of_isAlpha halpha
  · exact isAscii_of_isDigit hdigit
  all_goals decide

/-! ### Strings -/

/-- The units that a unit looks like in bytes. -/
def StringUnit.bytewise : StringUnit → List StringUnit
  | .char c => (bytesOf c).map .char
  | unit => [unit]

theorem StringUnit.bytewise_of_isAscii {c : Char} (h : IsAscii c) :
    StringUnit.bytewise (.char c) = [.char c] := by
  rw [StringUnit.bytewise, bytesOf_of_isAscii h, List.map_singleton]

theorem isAscii_of_hexValue? {c : Char} {n : Nat} (h : hexValue? c = some n) : IsAscii c := by
  unfold hexValue? at h
  split_ifs at h with h1 h2 h3
  · exact isAscii_of_le h1.2 (by decide)
  · exact isAscii_of_le h2.2 (by decide)
  · exact isAscii_of_le h3.2 (by decide)

theorem isAscii_of_codeUnit? {a b c d : Char} {n : Nat} (h : codeUnit? a b c d = some n) :
    ∀ x ∈ [a, b, c, d], IsAscii x := by
  simp only [codeUnit?, Option.bind_eq_bind, Option.bind_eq_some_iff] at h
  obtain ⟨_, ha, _, hb, _, hc, _, hd, -⟩ := h
  simp only [List.forall_mem_cons]
  exact ⟨isAscii_of_hexValue? ha, isAscii_of_hexValue? hb, isAscii_of_hexValue? hc,
    isAscii_of_hexValue? hd, nofun⟩

/-- Short escapes are ASCII, and what they stand for is too. -/
theorem isAscii_of_unescape? {e c : Char} (h : unescape? e = some c) : IsAscii e ∧ IsAscii c := by
  unfold unescape? at h
  split at h <;> cases h <;> decide

/-- Characters that are written as they are. -/
def IsPlain (c : Char) : Prop := c ≠ '"' ∧ c ≠ '\\' ∧ ¬ c.toNat < 0x20

/-- Several of them. -/
theorem readUnits_append_of_isPlain {ds : List Char} (h : ∀ d ∈ ds, IsPlain d)
    (rest : List Char) :
    readUnits (ds ++ rest) = (readUnits rest).map (Prod.map (ds.map .char ++ ·) id) := by
  induction ds with
  | nil =>
    rw [List.nil_append]
    cases readUnits rest <;> rfl
  | cons d ds ih =>
    obtain ⟨hquote, hslash, hcontrol⟩ := h d List.mem_cons_self
    rw [List.cons_append, readUnits_plain hquote hslash hcontrol,
      ih fun e he => h e (List.mem_cons_of_mem d he)]
    cases readUnits rest <;> rfl

theorem isPlain_of_not_isAscii {c : Char} (h : ¬ IsAscii c) : IsPlain c := by
  refine ⟨?_, ?_, fun hlt => h (hlt.trans (by decide))⟩ <;> rintro rfl <;> exact h (by decide)

/-- The bytes of a plain character look plain. -/
theorem isPlain_of_mem_bytesOf {c d : Char} (h : IsPlain c) (hd : d ∈ bytesOf c) : IsPlain d := by
  by_cases hc : IsAscii c
  · rw [bytesOf_of_isAscii hc] at hd
    rwa [List.mem_singleton.1 hd]
  · obtain ⟨x, xs, hbytes, hnot⟩ := exists_bytesOf hc
    exact isPlain_of_not_isAscii (hnot d (hbytes ▸ hd))

/-- A text starts with the character it looks to start with, or with one beyond ASCII. -/
theorem exists_bytewise_cons (c : Char) (cs : List Char) :
    ∃ d ds, bytewise (c :: cs) = d :: ds ∧ (d = c ∨ ¬ IsAscii d) := by
  by_cases hc : IsAscii c
  · exact ⟨c, _, bytewise_cons_of_isAscii hc cs, .inl rfl⟩
  · obtain ⟨d, ds, hbytes, hnot⟩ := exists_bytesOf hc
    exact ⟨d, ds ++ bytewise cs, by rw [bytewise_cons, hbytes, List.cons_append],
      .inr (hnot d List.mem_cons_self)⟩

/-- Where the digits of a code unit are missing, they are missing in the bytes. -/
theorem readUnits_code_bytewise_eq_none {cs : List Char}
    (h : ∀ a b c d rest, cs = a :: b :: c :: d :: rest → codeUnit? a b c d = none) :
    readUnits ('\\' :: 'u' :: bytewise cs) = none := by
  refine readUnits_code_eq_none fun a b c d rest heq => ?_
  by_contra hne
  obtain ⟨n, hn⟩ := Option.ne_none_iff_exists'.1 hne
  obtain ⟨rest, htext, -⟩ := (bytewise_eq_append_iff (isAscii_of_codeUnit? hn)).1 heq
  rw [h a b c d rest htext] at hn
  cases hn

/-- Where an escape stands for nothing, it stands for nothing in the bytes. -/
theorem readUnits_short_bytewise_eq_none {e : Char} (h : unescape? e = none) (hu : e ≠ 'u')
    (cs : List Char) : readUnits ('\\' :: bytewise (e :: cs)) = none := by
  obtain ⟨d, ds, hbytes, hd⟩ := exists_bytewise_cons e cs
  rw [hbytes]
  rcases hd with rfl | hd
  · exact readUnits_short_eq_none h hu ds
  · refine readUnits_short_eq_none ?_ (by rintro rfl; exact hd (by decide)) ds
    cases hsome : unescape? d with
    | none => rfl
    | some c => exact absurd (isAscii_of_unescape? hsome).1 hd

/-- **A string is read bytewise**: its units are those that the text has, as their bytes look. -/
theorem readsBytewise_readUnits : ReadsBytewise (List.flatMap StringUnit.bytewise) readUnits := by
  intro cs
  induction cs using readUnits.induct with
  | case1 => rfl
  | case2 a b c d rest ih =>
    rw [bytewise_cons_of_isAscii (by decide), bytewise_cons_of_isAscii (by decide)]
    cases hunit : codeUnit? a b c d with
    | some n =>
      have hdigits : bytewise (a :: b :: c :: d :: rest) = a :: b :: c :: d :: bytewise rest :=
        (bytewise_eq_append_iff (isAscii_of_codeUnit? hunit)).2 ⟨rest, rfl, rfl⟩
      rw [hdigits, readUnits_code hunit, readUnits_code hunit, ih]
      cases readUnits rest <;> rfl
    | none =>
      have hnone : ∀ a' b' c' d' rest', a :: b :: c :: d :: rest = a' :: b' :: c' :: d' :: rest' →
          codeUnit? a' b' c' d' = none := by
        rintro _ _ _ _ _ ⟨⟩
        exact hunit
      rw [readUnits_code_bytewise_eq_none hnone, readUnits_code_eq_none hnone]
      rfl
  | case3 e rest hdigits ih =>
    rw [bytewise_cons_of_isAscii (by decide)]
    by_cases hu : e = 'u'
    · subst hu
      have hnone : ∀ a b c d rest', rest = a :: b :: c :: d :: rest' → codeUnit? a b c d = none :=
        fun a b c d rest' heq => (hdigits a b c d rest' rfl heq).elim
      rw [bytewise_cons_of_isAscii (by decide), readUnits_code_bytewise_eq_none hnone,
        readUnits_code_eq_none hnone]
      rfl
    · cases hc : unescape? e with
      | some c =>
        obtain ⟨he, hascii⟩ := isAscii_of_unescape? hc
        rw [bytewise_cons_of_isAscii he, readUnits_short hc hu, readUnits_short hc hu, ih]
        cases readUnits rest with
        | none => rfl
        | some found =>
          simp [withUnit, StringUnit.bytewise_of_isAscii hascii]
      | none =>
        rw [readUnits_short_bytewise_eq_none hc hu, readUnits_short_eq_none hc hu]
        rfl
  | case4 rest =>
    rw [bytewise_cons_of_isAscii (by decide), readUnits_quote, readUnits_quote]
    rfl
  | case5 c rest _ _ _ hcontrol =>
    rw [bytewise_cons_of_isAscii (hcontrol.trans (by decide)), readUnits_control hcontrol,
      readUnits_control hcontrol]
    rfl
  | case6 c rest _ hescape hquote hcontrol ih =>
    by_cases hslash : c = '\\'
    · -- a backslash that stands last
      subst hslash
      cases rest with
      | nil => rfl
      | cons e rest => exact (hescape e rest rfl rfl).elim
    · have hbytes : ∀ d ∈ bytesOf c, IsPlain d :=
        fun d => isPlain_of_mem_bytesOf ⟨hquote, hslash, hcontrol⟩
      rw [bytewise_cons, readUnits_append_of_isPlain hbytes, ih,
        readUnits_plain hquote hslash hcontrol]
      cases readUnits rest <;> rfl

/-! ### Tokens -/

/-- A token with its string as its bytes look. -/
def Token.bytewise : Token → Token
  | .string units => .string (units.flatMap StringUnit.bytewise)
  | token => token

/-- **A token is read bytewise.** -/
theorem readsBytewise_nextToken (c : Char) : ReadsBytewise Token.bytewise (nextToken c) := by
  have hlook : Token.withLook (List.flatMap StringUnit.bytewise) = Token.bytewise := by
    funext token
    cases token <;> rfl
  intro cs
  rw [← hlook]
  exact nextToken_change keepsInner_bytewise fun _ => readsBytewise_readUnits cs

/-- No token starts with a character beyond ASCII. -/
theorem nextToken_of_not_isAscii {c : Char} (h : ¬ IsAscii c) (cs : List Char) :
    nextToken c cs = none := by
  unfold nextToken
  split
  all_goals first | exact absurd (by decide) h | skip
  exact if_neg fun hdigit => h (isAscii_of_isDigit hdigit)

theorem isAscii_of_isBlank {c : Char} (h : isBlank c = true) : IsAscii c := by
  simp only [isBlank, Bool.or_eq_true, beq_iff_eq] at h
  rcases h with ((rfl | rfl) | rfl) | rfl <;> decide

theorem tokens?_of_not_isAscii {c : Char} (h : ¬ IsAscii c) (cs : List Char) :
    tokens? (c :: cs) = none := by
  have hblank : isBlank c = false := by
    rw [← Bool.not_eq_true]
    exact fun hblank => h (isAscii_of_isBlank hblank)
  rw [tokens?_of_not_isBlank hblank, nextToken_of_not_isAscii h]
  rfl

/-- **A text is cut bytewise** into its tokens. -/
theorem tokens?_bytewise (cs : List Char) :
    tokens? (bytewise cs) = (tokens? cs).map (List.map Token.bytewise) := by
  induction cs using tokens?.induct with
  | case1 => simp [tokens?]
  | case2 c cs hblank ih =>
    rw [bytewise_cons_of_isAscii (isAscii_of_isBlank hblank), tokens?_of_isBlank hblank, ih,
      tokens?_of_isBlank hblank]
  | case3 c cs hblank hnone =>
    rw [Bool.not_eq_true] at hblank
    rw [tokens?_of_not_isBlank hblank, hnone]
    by_cases hc : IsAscii c
    · rw [bytewise_cons_of_isAscii hc, tokens?_of_not_isBlank hblank,
        readsBytewise_nextToken c, hnone]
      rfl
    · obtain ⟨d, ds, hbytes, hnot⟩ := exists_bytesOf hc
      rw [bytewise_cons, hbytes, List.cons_append,
        tokens?_of_not_isAscii (hnot d List.mem_cons_self)]
      rfl
  | case4 c cs hblank token rest hnext ih =>
    rw [Bool.not_eq_true] at hblank
    have hc : IsAscii c := by
      by_contra hc
      rw [nextToken_of_not_isAscii hc] at hnext
      cases hnext
    rw [bytewise_cons_of_isAscii hc, tokens?_of_not_isBlank hblank, readsBytewise_nextToken c,
      tokens?_of_not_isBlank hblank, hnext]
    show (tokens? (bytewise rest)).map (token.bytewise :: ·)
      = ((tokens? rest).map (token :: ·)).map (List.map Token.bytewise)
    rw [ih]
    cases tokens? rest <;> rfl

/-! ## Joining the bytes -/

/-- A byte that stands alone is that byte again. -/
theorem ofNat_toNat_charOf (b : UInt8) : UInt8.ofNat (charOf b).toNat = b := by
  rw [toNat_charOf, UInt8.ofNat_toNat]

/-- **Bytes in a string** are joined as they are read anywhere. -/
theorem joinBytes_map_charOf (state : State) (bytes : Bytes) (units : List StringUnit) :
    joinBytes state (bytes.map (fun b => .char (charOf b)) ++ units)
      = (feed state bytes).1.map .ofRead ++ joinBytes (feed state bytes).2 units := by
  induction bytes generalizing state with
  | nil => rfl
  | cons b bytes ih =>
    rw [List.map_cons, List.cons_append, joinBytes, ofNat_toNat_charOf]
    dsimp only
    rw [ih, feed, List.map_append, List.append_assoc]

/-- **The units of a string come back** when their bytes are joined. -/
theorem joinBytes_bytewise (units : List StringUnit) :
    joinBytes .start (units.flatMap StringUnit.bytewise) = units := by
  induction units with
  | nil => rfl
  | cons unit units ih =>
    rw [List.flatMap_cons]
    cases unit with
    | char c =>
      rw [StringUnit.bytewise, bytesOf, List.map_map]
      refine (joinBytes_map_charOf .start _ _).trans ?_
      rw [feed_utf8EncodeChar, ih]
      rfl
    | code n => exact congrArg _ ih
    | gap => exact congrArg _ ih

theorem joined_bytewise (token : Token) : token.bytewise.joined = token := by
  cases token with
  | string units => exact congrArg Token.string (joinBytes_bytewise units)
  | _ => rfl

/-! ## Blobs -/

/-- **A blob is cut into the tokens of the text it holds.** -/
theorem blobTokens?_encode (s : String) : blobTokens? (encode s) = tokens? s.toList := by
  have hlook : (encode s).map (fun b => Char.ofNat b.toNat) = bytewise s.toList :=
    List.map_flatMap
  have hjoined : List.map Token.joined ∘ List.map Token.bytewise = id := by
    rw [List.map_comp_map, show Token.joined ∘ Token.bytewise = id from funext joined_bytewise,
      List.map_id_fun]
  rw [blobTokens?, hlook, tokens?_bytewise, Option.map_map, hjoined, Option.map_id_fun, id]

/-- **A blob spells what the text it holds spells.** -/
theorem Literal.ofBlob?_encode (s : String) : ofBlob? (encode s) = parse? s.toList := by
  rw [ofBlob?, blobTokens?_encode, parse?]

end ProofToolchain.Json
