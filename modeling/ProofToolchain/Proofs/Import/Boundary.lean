import Mathlib
import ProofToolchain.Proofs.Import.Splice
import ProofToolchain.Proofs.Text.Decoding

/-!
# Positions in the bytes of a text

A text is cut at byte positions, and not every position will do: a cut inside a character leaves
two halves that are no text. `isBoundary` tells the positions where a text may be cut by the one
byte that stands there, and `slice?` cuts only at those. That this is the right test rests on how
characters are written: the first byte of a character never looks like a later one
(`exists_utf8EncodeChar`), so a byte that looks like a first one starts a character
(`exists_append_of_isBoundary`).

`Remains` relates a position to the characters that are left there. A reader of bytes is followed
with it: going past some characters adds their size to the position (`Remains.advance`), and what
it reads on the way is the characters themselves, as far as they are ASCII, and nothing ASCII
otherwise (`Remains.at?_eq_or`).
-/

namespace ProofToolchain.Import

open Text.Utf8

/-! ## The bytes of a character -/

/-- Each byte of a character after the first one continues it. -/
theorem exists_continues {c : Char} (cs : List Char) {k : Nat} (hpos : 0 < k)
    (hlt : k < c.utf8Size) :
    ∃ b, (encodeChars (c :: cs))[k]? = some b ∧ continues b = true := by
  obtain ⟨b, bs, hbytes, -, hcontinues, -⟩ := exists_utf8EncodeChar c
  obtain ⟨k, rfl⟩ := Nat.exists_eq_add_one.2 hpos
  have hk : k < bs.length := by
    rw [← String.length_utf8EncodeChar, hbytes, List.length_cons] at hlt
    exact Nat.lt_of_succ_lt_succ hlt
  refine ⟨bs[k], ?_, hcontinues _ (List.getElem_mem hk)⟩
  rw [encodeChars_cons, hbytes, List.cons_append, List.getElem?_cons_succ,
    List.getElem?_append_left hk, List.getElem?_eq_getElem hk]

/-! ## The characters that are left -/

/-- **What is left of some bytes at a position** is the bytes of some characters. -/
structure Remains (bytes : Bytes) (i : Nat) (cs : List Char) : Prop where
  /-- The position is one of the bytes, or the one after them. -/
  within : i ≤ bytes.length
  /-- The bytes from there on. -/
  drop_eq : bytes.drop i = encodeChars cs

/-- The character at a position, if the byte there stands alone. -/
def at? (bytes : Bytes) (i : Nat) : Option Char := (bytes[i]?).map charOf

theorem lt_length_of_at? {bytes : Bytes} {i : Nat} {c : Char} (h : at? bytes i = some c) :
    i < bytes.length := by
  obtain ⟨b, hb, -⟩ := Option.map_eq_some_iff.1 h
  exact (List.getElem?_eq_some_iff.1 hb).1

theorem length_le_of_at? {bytes : Bytes} {i : Nat} (h : at? bytes i = none) :
    bytes.length ≤ i :=
  List.getElem?_eq_none_iff.1 (Option.map_eq_none_iff.1 h)

/-- **Whether a text may be cut at a position**: at its end, and before a byte that continues no
character. -/
def isBoundary (bytes : Bytes) (i : Nat) : Bool :=
  match bytes[i]? with
  | some b => !continues b
  | none => i == bytes.length

/-- **The text between two positions**, if it may be cut there. -/
def slice? (bytes : Bytes) (start stop : Nat) : Option String :=
  if start ≤ stop ∧ isBoundary bytes start ∧ isBoundary bytes stop then
    decode? ((bytes.take stop).drop start)
  else none

/-- All of a text is left at its start. -/
theorem remains_zero (source : String) : Remains (encode source) 0 source.toList :=
  ⟨Nat.zero_le _, rfl⟩

namespace Remains

variable {bytes : Bytes} {i : Nat} {c : Char} {text rest cs : List Char}

/-- A position and the size of what is left there make up the whole. -/
theorem add_byteSize (h : Remains bytes i cs) : i + byteSize cs = bytes.length := by
  have hlength := congrArg List.length h.drop_eq
  rw [List.length_drop, length_encodeChars] at hlength
  have hwithin := h.within
  omega

/-- **Going past some characters** adds their size to the position. -/
theorem advance (h : Remains bytes i (text ++ rest)) :
    Remains bytes (i + byteSize text) rest := by
  refine ⟨?_, ?_⟩
  · rw [← h.add_byteSize, byteSize_append]
    omega
  · rw [← List.drop_drop, h.drop_eq, encodeChars_append, ← length_encodeChars, List.drop_left]

/-- The byte at a position is one of what is left there. -/
theorem getElem? (h : Remains bytes i cs) (k : Nat) : bytes[i + k]? = (encodeChars cs)[k]? := by
  rw [← h.drop_eq, List.getElem?_drop]

/-- Nothing is left at the end alone. -/
theorem at?_nil (h : Remains bytes i []) : at? bytes i = none := by
  have hbyte := h.getElem? 0
  simp only [Nat.add_zero, encodeChars_nil, List.getElem?_nil] at hbyte
  rw [at?, hbyte]
  rfl

/-- **What stands at a position** is the next character if that is an ASCII character, and nothing
ASCII if it is not. -/
theorem at?_eq_or (h : Remains bytes i (c :: cs)) :
    ∃ d, at? bytes i = some d ∧ (IsAscii c ∧ d = c ∨ ¬ IsAscii c ∧ ¬ IsAscii d) := by
  obtain ⟨b, bs, hbytes, -, -, hhigh⟩ := exists_utf8EncodeChar c
  have hbyte : bytes[i]? = some b := by
    rw [← Nat.add_zero i, h.getElem? 0, encodeChars_cons, hbytes]
    rfl
  refine ⟨charOf b, by rw [at?, hbyte, Option.map_some], ?_⟩
  by_cases hc : IsAscii c
  · rw [utf8EncodeChar_of_isAscii hc] at hbytes
    obtain ⟨rfl, -⟩ := List.cons.inj hbytes
    exact .inl ⟨hc, charOf_byteOf hc⟩
  · exact .inr ⟨hc, not_isAscii_charOf (hhigh.resolve_left hc)⟩

/-- An ASCII character stands there itself. -/
theorem at?_of_isAscii (h : Remains bytes i (c :: cs)) (hc : IsAscii c) : at? bytes i = some c := by
  obtain ⟨d, hd, ⟨-, rfl⟩ | ⟨hnot, -⟩⟩ := h.at?_eq_or
  · exact hd
  · exact absurd hc hnot

/-- **An ASCII character is found where it is**, and nowhere else. -/
theorem at?_eq_some_iff (h : Remains bytes i cs) {a : Char} (ha : IsAscii a) :
    at? bytes i = some a ↔ cs.head? = some a := by
  cases cs with
  | nil => simp [h.at?_nil]
  | cons c cs =>
    obtain ⟨d, hd, ⟨-, rfl⟩ | ⟨hc, hnot⟩⟩ := h.at?_eq_or
    · rw [hd, List.head?_cons]
    · have hda : d ≠ a := fun hda => hnot (hda ▸ ha)
      have hca : c ≠ a := fun hca => hc (hca ▸ ha)
      simp [hd, hda, hca]

/-- The bytes of a character after its first one are beyond ASCII. -/
theorem at?_inside (h : Remains bytes i (c :: cs)) {k : Nat} (hpos : 0 < k)
    (hlt : k < c.utf8Size) : ∃ d, at? bytes (i + k) = some d ∧ ¬ IsAscii d := by
  obtain ⟨b, hb, hcontinues⟩ := exists_continues cs hpos hlt
  have hhigh := (continues_iff.1 hcontinues).1
  exact ⟨charOf b, by rw [at?, h.getElem?, hb, Option.map_some], not_isAscii_charOf hhigh⟩

/-- **A reader that goes past every byte beyond ASCII**, one at a time, comes from inside a
character to its end. -/
theorem pass {α : Type} (f : Nat → α)
    (hf : ∀ j d, at? bytes j = some d → ¬ IsAscii d → f j = f (j + 1))
    (h : Remains bytes i (c :: cs)) : f (i + 1) = f (i + c.utf8Size) := by
  have hpass : ∀ k, 0 < k → k ≤ c.utf8Size → f (i + 1) = f (i + k) := by
    intro k hpos hle
    induction k, hpos using Nat.le_induction with
    | base => rfl
    | succ k hpos ih =>
      obtain ⟨d, hd, hnot⟩ := h.at?_inside hpos hle
      rw [ih (Nat.le_of_lt hle), hf _ d hd hnot]
      rfl
  exact hpass _ c.utf8Size_pos le_rfl

/-- A text may be cut where characters are left. -/
theorem isBoundary (h : Remains bytes i cs) : isBoundary bytes i = true := by
  have hbyte : bytes[i]? = (encodeChars cs)[0]? := h.getElem? 0
  unfold Import.isBoundary
  rw [hbyte]
  cases cs with
  | nil => simpa [byteSize] using h.add_byteSize
  | cons c cs =>
    obtain ⟨b, bs, hbytes, hfirst, -⟩ := exists_utf8EncodeChar c
    simp [hbytes, hfirst]

/-- The bytes between two positions are those of what was gone past. -/
theorem bytes_eq (h : Remains bytes i (text ++ rest)) :
    (bytes.take (i + byteSize text)).drop i = encodeChars text := by
  rw [List.drop_take, h.drop_eq, Nat.add_sub_cancel_left, encodeChars_append,
    ← length_encodeChars, List.take_left]

/-- **The text between two positions** is what was gone past. -/
theorem slice?_eq (h : Remains bytes i (text ++ rest)) :
    slice? bytes i (i + byteSize text) = some (String.ofList text) := by
  have hencode : encodeChars text = encode (String.ofList text) := by
    rw [encode_eq, String.toList_ofList]
  rw [slice?, if_pos ⟨Nat.le_add_right _ _, h.isBoundary, h.advance.isBoundary⟩, h.bytes_eq,
    hencode, decode?_encode]

end Remains

/-! ## The positions at which a text may be cut -/

/-- Whether a text may be cut depends on nothing that comes before. -/
theorem isBoundary_append (cs ds : List Char) (k : Nat) :
    isBoundary (encodeChars (cs ++ ds)) (byteSize cs + k) = isBoundary (encodeChars ds) k := by
  have hbyte : (encodeChars (cs ++ ds))[byteSize cs + k]? = (encodeChars ds)[k]? := by
    rw [encodeChars_append, ← length_encodeChars, List.getElem?_append_right (Nat.le_add_right _ _),
      Nat.add_sub_cancel_left]
  unfold isBoundary
  rw [hbyte]
  cases (encodeChars ds)[k]? with
  | some b => rfl
  | none => simp

/-- A text may not be cut inside a character. -/
theorem isBoundary_inside {c : Char} {cs : List Char} {k : Nat} (hpos : 0 < k)
    (hlt : k < c.utf8Size) : isBoundary (encodeChars (c :: cs)) k = false := by
  obtain ⟨b, hb, hcontinues⟩ := exists_continues cs hpos hlt
  rw [isBoundary, hb]
  simpa using hcontinues

/-- **A position at which a text may be cut** stands between two parts of it. -/
theorem exists_append_of_isBoundary {cs : List Char} {i : Nat}
    (h : isBoundary (encodeChars cs) i = true) : ∃ a b, cs = a ++ b ∧ byteSize a = i := by
  induction cs generalizing i with
  | nil =>
    have hi : i = 0 := by simpa [isBoundary] using h
    exact ⟨[], [], rfl, hi.symm⟩
  | cons c cs ih =>
    rcases Nat.eq_zero_or_pos i with rfl | hpos
    · exact ⟨[], c :: cs, rfl, rfl⟩
    · have hge : c.utf8Size ≤ i := by
        by_contra hlt
        rw [isBoundary_inside hpos (Nat.lt_of_not_le hlt)] at h
        cases h
      obtain ⟨k, rfl⟩ := Nat.exists_eq_add_of_le hge
      obtain ⟨a, b, rfl, rfl⟩ := ih (isBoundary_append [c] cs k ▸ h)
      exact ⟨c :: a, b, rfl, rfl⟩

/-- **A text is cut out between any two such positions**, and its bytes are the bytes there. -/
theorem exists_slice? {source : String} {i j : Nat} (hi : isBoundary (encode source) i = true)
    (hj : isBoundary (encode source) j = true) (hij : i ≤ j) :
    ∃ text, slice? (encode source) i j = some text
      ∧ encode text = ((encode source).take j).drop i := by
  obtain ⟨a, b, hab, rfl⟩ := exists_append_of_isBoundary hi
  obtain ⟨k, rfl⟩ := Nat.exists_eq_add_of_le hij
  rw [encode_eq, hab, isBoundary_append] at hj
  obtain ⟨text, rest, rfl, rfl⟩ := exists_append_of_isBoundary hj
  have hsource : Remains (encode source) 0 (a ++ (text ++ rest)) := hab ▸ remains_zero source
  have hrest : Remains (encode source) (byteSize a) (text ++ rest) := by
    simpa using hsource.advance
  refine ⟨String.ofList text, hrest.slice?_eq, ?_⟩
  rw [hrest.bytes_eq, encode_eq, String.toList_ofList]

end ProofToolchain.Import
