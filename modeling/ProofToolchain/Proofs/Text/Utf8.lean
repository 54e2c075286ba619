import Mathlib
import ProofToolchain.Proofs.Text.Occurrence
import ProofToolchain.Text.Utf8

/-!
# ASCII in bytes that may be no text

Bytes are read leniently: where they are no UTF-8, a replacement character stands in the text.
Such a text says less than the bytes, but it is faithful about ASCII. An ASCII byte is that
character wherever it stands, also where it cuts another character short (`step_of_ascii`), and no
other byte is ever read as ASCII (`yieldsNoAscii_step`). The latter holds because of the bounds
that the reader keeps on the next byte: they leave room for no short character in a long form, and
for no number that is not a character (`State.IsSound`). So an ASCII word occurs in the text
exactly if its bytes occur among the bytes (`infix_decodeLossy_iff`).
-/

namespace ProofToolchain.Text.Utf8

/-- **An ASCII character.** -/
def IsAscii (c : Char) : Prop := c.toNat < 0x80

instance : DecidablePred IsAscii := fun c => inferInstanceAs (Decidable (c.toNat < 0x80))

/-- The replacement character is not an ASCII character. -/
theorem not_isAscii_replacement : ¬ IsAscii '\uFFFD' := by
  decide

/-- **A state is sound** if the numbers it may still lead to are those of characters but not of
ASCII. -/
def State.IsSound : State → Prop
  | .start => True
  | .inside owed low high value =>
    let least := (value * 0x40 + (low.toNat - 0x80)) * 0x40 ^ owed
    let limit := (value * 0x40 + (high.toNat - 0x80) + 1) * 0x40 ^ owed
    0x80 ≤ low.toNat ∧ 0x80 ≤ least
      ∧ (limit ≤ 0xD800 ∨ 0xE000 ≤ least ∧ limit ≤ 0x110000)

theorem isSound_start : State.start.IsSound := trivial

/-! ## One byte -/

section Byte

variable {state : State} {owed value : Nat} {low high b : UInt8}

/-- The first byte of a character leads to a sound state inside it. -/
theorem isSound_of_ofFirst? (h : State.ofFirst? b = some state) :
    state.IsSound ∧ state ≠ .start := by
  unfold State.ofFirst? at h
  simp only [UInt8.le_iff_toNat_le, ← UInt8.toNat_inj] at h
  -- each range of first bytes comes with its own bounds on the next byte
  split_ifs at h <;> cases h <;> refine ⟨?_, nofun⟩
  all_goals
    simp only [State.IsSound, UInt8.reduceToNat] at *
    omega

/-- The last byte of a character gives one beyond ASCII. -/
theorem not_isAscii_of_isSound (h : (State.inside 0 low high value).IsSound) (hlow : low ≤ b)
    (hhigh : b ≤ high) : ¬ IsAscii (Char.ofNat (value * 0x40 + (b.toNat - 0x80))) := by
  obtain ⟨hcontinues, hleast, hlimit⟩ := h
  rw [UInt8.le_iff_toNat_le] at hlow hhigh
  simp only [pow_zero, mul_one] at hleast hlimit
  have hvalid : (value * 0x40 + (b.toNat - 0x80)).isValidChar := by
    rcases hlimit with hlimit | ⟨hleast, hlimit⟩
    · exact .inl (by omega)
    · exact .inr ⟨by omega, by omega⟩
  unfold IsAscii
  rw [Char.toNat_ofNat, if_pos hvalid]
  omega

/-- A byte before the last leads on to a sound state. -/
theorem isSound_of_inside (h : (State.inside (owed + 1) low high value).IsSound) (hlow : low ≤ b)
    (hhigh : b ≤ high) :
    (State.inside owed 0x80 0xBF (value * 0x40 + (b.toNat - 0x80))).IsSound := by
  obtain ⟨hcontinues, hleast, hlimit⟩ := h
  rw [UInt8.le_iff_toNat_le] at hlow hhigh
  simp only [pow_succ', ← mul_assoc] at hleast hlimit
  -- the numbers that are left are some of those there were
  have hgrows : (value * 0x40 + (low.toNat - 0x80)) * 0x40 * 0x40 ^ owed
      ≤ ((value * 0x40 + (b.toNat - 0x80)) * 0x40 + 0) * 0x40 ^ owed :=
    Nat.mul_le_mul_right _ (by omega)
  have hshrinks : ((value * 0x40 + (b.toNat - 0x80)) * 0x40 + 0x3F + 1) * 0x40 ^ owed
      ≤ (value * 0x40 + (high.toNat - 0x80) + 1) * 0x40 * 0x40 ^ owed :=
    Nat.mul_le_mul_right _ (by omega)
  refine ⟨le_rfl, hleast.trans hgrows, ?_⟩
  rcases hlimit with hlimit | ⟨hleast, hlimit⟩
  · exact .inl (hshrinks.trans hlimit)
  · exact .inr ⟨hleast.trans hgrows, hshrinks.trans hlimit⟩

/-- A byte that cannot continue the character begun is read again, after a gap. -/
theorem step_of_not_continues (h : ¬ (low ≤ b ∧ b ≤ high)) :
    step (.inside owed low high value) b = (none :: (first b).1, (first b).2) :=
  if_neg h

/-- **An ASCII byte is an ASCII character**, after a gap if it cuts another character short. -/
theorem step_of_ascii (h : state.IsSound) (hb : b.toNat < 0x80) :
    step state b = (run state [] ++ [some (Char.ofNat b.toNat)], .start) := by
  have hfirst : first b = ([some (Char.ofNat b.toNat)], .start) :=
    if_pos (UInt8.lt_iff_toNat_lt.2 hb)
  cases state with
  | start => exact hfirst
  | inside owed low high value =>
    obtain ⟨hcontinues, -⟩ := h
    rw [step_of_not_continues, hfirst]
    · rfl
    · rintro ⟨hlow, -⟩
      rw [UInt8.le_iff_toNat_le] at hlow
      omega

/-- **What a byte yields is not ASCII**, and where it yields nothing the reader stands inside a
character after it. -/
def YieldsNoAscii (outcome : List (Option Char) × State) : Prop :=
  outcome.2.IsSound ∧ (∀ x ∈ outcome.1, ¬ IsAscii (x.getD '\uFFFD'))
    ∧ (outcome.1 = [] → outcome.2 ≠ .start)

theorem yieldsNoAscii_first (hb : 0x80 ≤ b.toNat) : YieldsNoAscii (first b) := by
  have hnot : ¬ b < 0x80 := fun hlt => Nat.not_lt.2 hb (UInt8.lt_iff_toNat_lt.1 hlt)
  unfold first
  rw [if_neg hnot]
  cases hstate : State.ofFirst? b with
  | none => exact ⟨trivial, by simpa using not_isAscii_replacement, nofun⟩
  | some state =>
    obtain ⟨hsound, hinside⟩ := isSound_of_ofFirst? hstate
    exact ⟨hsound, nofun, fun _ => hinside⟩

/-- **No other byte is read as ASCII.** -/
theorem yieldsNoAscii_step (h : state.IsSound) (hb : 0x80 ≤ b.toNat) :
    YieldsNoAscii (step state b) := by
  cases state with
  | start => exact yieldsNoAscii_first hb
  | inside owed low high value =>
    by_cases hrange : low ≤ b ∧ b ≤ high
    · obtain ⟨hlow, hhigh⟩ := hrange
      cases owed with
      | zero =>
        have hstep : step (.inside 0 low high value) b
            = ([some (Char.ofNat (value * 0x40 + (b.toNat - 0x80)))], .start) :=
          if_pos ⟨hlow, hhigh⟩
        rw [hstep]
        exact ⟨trivial, by simpa using not_isAscii_of_isSound h hlow hhigh, nofun⟩
      | succ owed =>
        have hstep : step (.inside (owed + 1) low high value) b
            = ([], .inside owed 0x80 0xBF (value * 0x40 + (b.toNat - 0x80))) :=
          if_pos ⟨hlow, hhigh⟩
        rw [hstep]
        exact ⟨isSound_of_inside h hlow hhigh, nofun, fun _ => nofun⟩
    · obtain ⟨hsound, hout, -⟩ := yieldsNoAscii_first hb
      rw [step_of_not_continues hrange]
      refine ⟨hsound, ?_, nofun⟩
      rintro x (_ | ⟨_, hx⟩)
      · exact not_isAscii_replacement
      · exact hout x hx

end Byte

/-! ## Words -/

/-- The characters that bytes are read as from a state, gaps being replaced. -/
def lossy (state : State) (bytes : Bytes) : List Char :=
  (run state bytes).map (·.getD '\uFFFD')

theorem lossy_cons (state : State) (b : UInt8) (bytes : Bytes) :
    lossy state (b :: bytes)
      = (step state b).1.map (·.getD '\uFFFD') ++ lossy (step state b).2 bytes := by
  unfold lossy
  rw [← List.map_append]
  cases state <;> rfl

/-- After an ASCII byte the reader stands between characters, whatever it stood in before. -/
theorem lossy_cons_of_ascii {state : State} {b : UInt8} (h : state.IsSound)
    (hb : b.toNat < 0x80) (bytes : Bytes) :
    lossy state (b :: bytes) = lossy state [] ++ Char.ofNat b.toNat :: lossy .start bytes := by
  rw [lossy_cons, step_of_ascii h hb, List.map_append, List.append_assoc]
  rfl

/-- What is left of a character that is cut short is not ASCII. -/
theorem not_isAscii_of_mem_lossy_nil {state : State} {c : Char} (h : c ∈ lossy state []) :
    ¬ IsAscii c := by
  cases state with
  | start => cases h
  | inside owed low high value => exact List.mem_singleton.1 h ▸ not_isAscii_replacement

/-- A character that the bytes cut short is a gap. -/
theorem lossy_nil_of_ne_start {state : State} (h : state ≠ .start) :
    lossy state [] = ['\uFFFD'] := by
  cases state with
  | start => exact absurd rfl h
  | inside owed low high value => rfl

/-- Where no ASCII byte comes between characters, the text goes on with a character beyond ASCII. -/
theorem exists_lossy_cons {state : State} {bytes : Bytes} (h : state.IsSound)
    (hnext : state = .start → ∃ b rest, bytes = b :: rest ∧ 0x80 ≤ b.toNat) :
    ∃ c rest, lossy state bytes = c :: rest ∧ ¬ IsAscii c := by
  induction bytes generalizing state with
  | nil =>
    rw [lossy_nil_of_ne_start fun hstart => by simpa using hnext hstart]
    exact ⟨_, _, rfl, not_isAscii_replacement⟩
  | cons b bytes ih =>
    by_cases hb : b.toNat < 0x80
    · have hinside : state ≠ .start := by
        intro hstart
        obtain ⟨_, _, hbytes, hhigh⟩ := hnext hstart
        obtain ⟨rfl, -⟩ := List.cons.inj hbytes
        omega
      rw [lossy_cons_of_ascii h hb, lossy_nil_of_ne_start hinside]
      exact ⟨_, _, rfl, not_isAscii_replacement⟩
    · obtain ⟨hsound, hout, hempty⟩ := yieldsNoAscii_step h (Nat.le_of_not_lt hb)
      rw [lossy_cons]
      cases hstep : (step state b).1 with
      | nil => exact ih hsound fun hstart => absurd hstart (hempty hstep)
      | cons x xs => exact ⟨_, _, rfl, hout x (hstep ▸ List.mem_cons_self)⟩

/-- The byte of an ASCII character. -/
def byteOf (c : Char) : UInt8 := UInt8.ofNat c.toNat

theorem toNat_byteOf {c : Char} (h : IsAscii c) : (byteOf c).toNat = c.toNat :=
  UInt8.toNat_ofNat_of_lt' (h.trans (by decide))

/-- A character is read off a byte if the byte is its own. -/
theorem eq_ofNat_iff {c : Char} {b : UInt8} (h : IsAscii c) :
    c = Char.ofNat b.toNat ↔ byteOf c = b := by
  have hvalid : b.toNat.isValidChar := .inl (by have := b.toNat_lt; omega)
  rw [← UInt8.toNat_inj, toNat_byteOf h, ← Char.toNat_inj, Char.toNat_ofNat, if_pos hvalid]

/-- An ASCII character is written with the byte of its number. -/
theorem utf8EncodeChar_of_isAscii {c : Char} (h : IsAscii c) :
    String.utf8EncodeChar c = [byteOf c] := by
  have hsize : c.utf8Size = 1 := by
    rw [Char.utf8Size_eq_one_iff, UInt32.le_iff_toNat_le]
    exact Nat.le_of_lt_succ h
  exact String.utf8EncodeChar_eq_singleton hsize

/-- A text of ASCII characters is written with one byte for each. -/
theorem encode_of_isAscii {word : String} (h : ∀ c ∈ word.toList, IsAscii c) :
    encode word = word.toList.map byteOf := by
  unfold encode
  generalize word.toList = cs at h ⊢
  induction cs with
  | nil => rfl
  | cons c cs ih =>
    rw [List.flatMap_cons, utf8EncodeChar_of_isAscii (h c List.mem_cons_self), List.map_cons,
      ih fun d hd => h d (List.mem_cons_of_mem c hd)]
    rfl

section Word

variable {word : List Char}

/-- **A word is read between characters** if its bytes come first. -/
theorem prefix_lossy_iff (h : ∀ c ∈ word, IsAscii c) (bytes : Bytes) :
    word <+: lossy .start bytes ↔ word.map byteOf <+: bytes := by
  induction word generalizing bytes with
  | nil => simp
  | cons c word ih =>
    have hc := h c List.mem_cons_self
    cases bytes with
    | nil => simp [lossy, run]
    | cons b bytes =>
      rw [List.map_cons, List.cons_prefix_cons]
      by_cases hb : b.toNat < 0x80
      · have hlossy : lossy .start (b :: bytes) = Char.ofNat b.toNat :: lossy .start bytes :=
          lossy_cons_of_ascii isSound_start hb bytes
        rw [hlossy, List.cons_prefix_cons, eq_ofNat_iff hc,
          ih fun d hd => h d (List.mem_cons_of_mem c hd)]
      · have hbyte : byteOf c ≠ b := by
          rintro rfl
          exact hb (toNat_byteOf hc ▸ hc)
        obtain ⟨d, rest, hlossy, hd⟩ := exists_lossy_cons isSound_start
          fun _ => ⟨b, bytes, rfl, Nat.le_of_not_lt hb⟩
        have hdc : c ≠ d := fun hcd => hd (hcd ▸ hc)
        rw [hlossy, List.cons_prefix_cons]
        simp [hbyte, hdc]

/-- **A word occurs in the text where its bytes occur**, whatever is read before. -/
theorem infix_lossy_iff (hword : word ≠ []) (h : ∀ c ∈ word, IsAscii c) {state : State}
    (hstate : state.IsSound) (bytes : Bytes) :
    word <:+: lossy state bytes ↔ word.map byteOf <:+: bytes := by
  have hbytes : word.map byteOf ≠ [] := by simpa using hword
  have hforeign : ∀ c, ¬ IsAscii c → c ∉ word := fun c hc hmem => hc (h c hmem)
  induction bytes generalizing state with
  | nil =>
    have hgap := infix_append_of_disjoint hword
      (fun c hc => hforeign c (not_isAscii_of_mem_lossy_nil (hc : c ∈ lossy state []))) []
    rw [List.append_nil] at hgap
    rw [hgap]
    simp [hword, hbytes]
  | cons b bytes ih =>
    by_cases hb : b.toNat < 0x80
    · have hfirst : word <+: Char.ofNat b.toNat :: lossy .start bytes
          ↔ word.map byteOf <+: b :: bytes := by
        rw [← prefix_lossy_iff h, lossy_cons_of_ascii isSound_start hb]
        rfl
      have hrest : word <:+: lossy .start bytes ↔ word.map byteOf <:+: bytes := ih isSound_start
      rw [lossy_cons_of_ascii hstate hb, infix_append_of_disjoint hword
        (fun c hc => hforeign c (not_isAscii_of_mem_lossy_nil hc)), List.infix_cons_iff,
        List.infix_cons_iff, hfirst, hrest]
    · obtain ⟨hsound, hout, -⟩ := yieldsNoAscii_step hstate (Nat.le_of_not_lt hb)
      have hchars : ∀ c ∈ (step state b).1.map (·.getD '\uFFFD'), c ∉ word := by
        intro c hc
        obtain ⟨x, hx, rfl⟩ := List.mem_map.1 hc
        exact hforeign _ (hout x hx)
      have hbyte : ∀ a ∈ [b], a ∉ word.map byteOf := by
        intro a ha hmem
        obtain rfl := List.mem_singleton.1 ha
        obtain ⟨c, hc, rfl⟩ := List.mem_map.1 hmem
        exact hb (toNat_byteOf (h c hc) ▸ h c hc)
      have hrest : word <:+: lossy (step state b).2 bytes ↔ word.map byteOf <:+: bytes := ih hsound
      rw [lossy_cons, infix_append_of_disjoint hword hchars, hrest,
        ← infix_append_of_disjoint hbytes hbyte bytes]
      rfl

/-- **An ASCII word occurs in the text of some bytes** if and only if it occurs in the bytes. -/
theorem infix_decodeLossy_iff (hword : word ≠ []) (h : ∀ c ∈ word, IsAscii c) (bytes : Bytes) :
    word <:+: (decodeLossy bytes).toList ↔ encode (String.ofList word) <:+: bytes := by
  have hencode : encode (String.ofList word) = word.map byteOf := by
    rw [encode_of_isAscii (by rwa [String.toList_ofList]), String.toList_ofList]
  rw [hencode]
  show word <:+: (String.ofList (lossy .start bytes)).toList ↔ _
  rw [String.toList_ofList]
  exact infix_lossy_iff hword h isSound_start bytes

end Word

end ProofToolchain.Text.Utf8
