import Mathlib
import ProofToolchain.Proofs.Text.Utf8

/-!
# Reading what was written

A text that is written as bytes is read back (`decode?_encode`). The reader is fed one character
after another, and after each it has read just that character and stands between characters again
(`feed_utf8EncodeChar`). A character is written with one to four bytes. The first byte announces how
many are owed and keeps the next one within bounds; that the second byte of a character lies within
them is what there is to show, and the bytes after it have no bounds of their own.

A reader that looks at single bytes can tell a character beyond ASCII from others all the same: none
of its bytes is ASCII, and only the bytes after the first one look like those that continue a
character (`exists_utf8EncodeChar`).
-/

namespace ProofToolchain.Text.Utf8

/-- **What is read of some bytes**, and where the reader stands after them. -/
def feed : State → Bytes → List (Option Char) × State
  | state, [] => ([], state)
  | state, b :: bs =>
    ((step state b).1 ++ (feed (step state b).2 bs).1, (feed (step state b).2 bs).2)

/-- Bytes are read up to where they are cut, and on from there. -/
theorem run_append (state : State) (a b : Bytes) :
    run state (a ++ b) = (feed state a).1 ++ run (feed state a).2 b := by
  induction a generalizing state with
  | nil => rfl
  | cons x a ih =>
    have hrun : run state (x :: a ++ b) = (step state x).1 ++ run (step state x).2 (a ++ b) := by
      cases state <;> rfl
    rw [hrun, ih, feed, List.append_assoc]

/-- A number that a byte holds. -/
theorem toNat_ofNat_of_lt {n : Nat} (h : n < 0x100) : (UInt8.ofNat n).toNat = n := by
  rw [UInt8.toNat_ofNat']
  exact Nat.mod_eq_of_lt h

/-! ## The bytes of a character -/

/-- Whether a byte continues a character, so that it cannot be the first one of any. -/
def continues (b : UInt8) : Bool := 0x80 ≤ b && b < 0xC0

theorem continues_iff {b : UInt8} : continues b = true ↔ 0x80 ≤ b.toNat ∧ b.toNat < 0xC0 := by
  simp [continues, UInt8.le_iff_toNat_le, UInt8.lt_iff_toNat_lt]

/-- **The bytes of a character**: only those after the first one continue it, and those of a
character beyond ASCII are beyond ASCII too. -/
theorem exists_utf8EncodeChar (c : Char) :
    ∃ b bs, String.utf8EncodeChar c = b :: bs ∧ continues b = false
      ∧ (∀ x ∈ bs, continues x = true) ∧ (IsAscii c ∨ 0x80 ≤ b.toNat) := by
  have hbyte : ∀ n < 0x100, (UInt8.ofNat n).toNat = n := fun n => toNat_ofNat_of_lt
  simp only [← Bool.not_eq_true, continues_iff]
  unfold String.utf8EncodeChar IsAscii
  rw [show c.val.toNat = c.toNat from rfl]
  have hlimit : c.toNat < 0x110000 := by
    have hvalid : c.toNat < 0xD800 ∨ 0xDFFF < c.toNat ∧ c.toNat < 0x110000 := c.valid
    omega
  dsimp only
  split_ifs with h1 h2 h3
  all_goals refine ⟨_, _, rfl, ?_⟩
  all_goals
    simp only [List.not_mem_nil, false_implies, implies_true, List.forall_mem_cons, and_true,
      true_and]
    repeat rw [hbyte _ (by omega)]
    omega

/-- The character that a byte would be if it stood alone. -/
def charOf (b : UInt8) : Char := Char.ofNat b.toNat

theorem toNat_charOf (b : UInt8) : (charOf b).toNat = b.toNat := by
  have hvalid : b.toNat.isValidChar := .inl (b.toNat_lt.trans (by decide))
  rw [charOf, Char.toNat_ofNat, if_pos hvalid]

theorem charOf_byteOf {c : Char} (h : IsAscii c) : charOf (byteOf c) = c :=
  ((eq_ofNat_iff h).2 rfl).symm

/-- A byte that continues a character is not an ASCII character. -/
theorem not_isAscii_charOf {b : UInt8} (h : 0x80 ≤ b.toNat) : ¬ IsAscii (charOf b) := by
  rw [IsAscii, toNat_charOf]
  omega

/-! ## One character -/

section Inside

variable {owed value n : Nat} {low high : UInt8} (hlow : low.toNat ≤ n + 0x80)
  (hhigh : n + 0x80 ≤ high.toNat)

include hlow hhigh

/-- A byte within the bounds goes on with the character. -/
theorem within_bounds :
    (low ≤ UInt8.ofNat (n + 0x80) ∧ UInt8.ofNat (n + 0x80) ≤ high)
      ∧ (UInt8.ofNat (n + 0x80)).toNat - 0x80 = n := by
  have hbyte : (UInt8.ofNat (n + 0x80)).toNat = n + 0x80 :=
    toNat_ofNat_of_lt (Nat.lt_of_le_of_lt hhigh high.toNat_lt)
  rw [UInt8.le_iff_toNat_le, UInt8.le_iff_toNat_le, hbyte, Nat.add_sub_cancel]
  exact ⟨⟨hlow, hhigh⟩, rfl⟩

/-- The last byte completes the character. -/
theorem step_last :
    step (.inside 0 low high value) (UInt8.ofNat (n + 0x80))
      = ([some (Char.ofNat (value * 0x40 + n))], .start) := by
  obtain ⟨hrange, hvalue⟩ := within_bounds hlow hhigh
  refine (if_pos hrange).trans ?_
  rw [hvalue]

/-- A byte before the last leaves one less owed, and no bounds of its own on the next. -/
theorem step_more :
    step (.inside (owed + 1) low high value) (UInt8.ofNat (n + 0x80))
      = ([], .inside owed 0x80 0xBF (value * 0x40 + n)) := by
  obtain ⟨hrange, hvalue⟩ := within_bounds hlow hhigh
  refine (if_pos hrange).trans ?_
  rw [hvalue]

end Inside

/-- Any byte that continues a character lies within the bounds that are none. -/
theorem within_any (v : Nat) :
    (0x80 : UInt8).toNat ≤ v % 0x40 + 0x80 ∧ v % 0x40 + 0x80 ≤ (0xBF : UInt8).toNat := by
  simp only [UInt8.reduceToNat]
  omega

/-- What a first byte announces, by its number. -/
theorem ofFirst?_ofNat {n : Nat} (hlt : n < 0x100) :
    State.ofFirst? (UInt8.ofNat n) =
      if 0xC2 ≤ n ∧ n ≤ 0xDF then some (.inside 0 0x80 0xBF (n - 0xC0))
      else if n = 0xE0 then some (.inside 1 0xA0 0xBF 0)
      else if n = 0xED then some (.inside 1 0x80 0x9F 0xD)
      else if 0xE1 ≤ n ∧ n ≤ 0xEF then some (.inside 1 0x80 0xBF (n - 0xE0))
      else if n = 0xF0 then some (.inside 2 0x90 0xBF 0)
      else if 0xF1 ≤ n ∧ n ≤ 0xF3 then some (.inside 2 0x80 0xBF (n - 0xF0))
      else if n = 0xF4 then some (.inside 2 0x80 0x8F 4)
      else none := by
  simp only [State.ofFirst?, UInt8.le_iff_toNat_le, ← UInt8.toNat_inj, toNat_ofNat_of_lt hlt]
  rfl

/-- A first byte beyond ASCII leads into its character. -/
theorem step_first {n : Nat} (h : 0x80 ≤ n) (hlt : n < 0x100) {state : State}
    (hfirst : State.ofFirst? (UInt8.ofNat n) = some state) :
    step .start (UInt8.ofNat n) = ([], state) := by
  have hascii : ¬ UInt8.ofNat n < 0x80 := by
    rw [UInt8.lt_iff_toNat_lt, toNat_ofNat_of_lt hlt]
    exact Nat.not_lt.2 h
  show first _ = _
  unfold first
  rw [if_neg hascii, hfirst]

/-- **A character of two bytes.** -/
theorem feed_two {v : Nat} (hlow : 0x80 ≤ v) (hhigh : v ≤ 0x7FF) :
    feed .start [UInt8.ofNat (v / 0x40 % 0x20 + 0xC0), UInt8.ofNat (v % 0x40 + 0x80)]
      = ([some (Char.ofNat v)], .start) := by
  have hfirst : State.ofFirst? (UInt8.ofNat (v / 0x40 % 0x20 + 0xC0))
      = some (.inside 0 0x80 0xBF (v / 0x40)) := by
    rw [ofFirst?_ofNat (by omega), if_pos (by omega), Nat.add_sub_cancel,
      Nat.mod_eq_of_lt (by omega)]
  have hlast : step (.inside 0 0x80 0xBF (v / 0x40)) _ = _ :=
    step_last (within_any v).1 (within_any v).2
  rw [Nat.div_add_mod'] at hlast
  simp only [feed, step_first (by omega) (by omega) hfirst, hlast, List.nil_append,
    List.append_nil]

/-- The second of three bytes lies within the bounds that the first one sets. -/
theorem ofFirst?_of_three {v : Nat} (hlow : 0x800 ≤ v) (hhigh : v ≤ 0xFFFF)
    (hvalid : v < 0xD800 ∨ 0xE000 ≤ v) :
    ∃ low high, State.ofFirst? (UInt8.ofNat (v / 0x1000 % 0x10 + 0xE0))
        = some (.inside 1 low high (v / 0x1000))
      ∧ low.toNat ≤ v / 0x40 % 0x40 + 0x80 ∧ v / 0x40 % 0x40 + 0x80 ≤ high.toNat := by
  rw [ofFirst?_ofNat (by omega), if_neg (by omega)]
  split_ifs with h1 h2 h3
  · refine ⟨0xA0, 0xBF, ?_, ?_, ?_⟩ <;> simp <;> omega
  · refine ⟨0x80, 0x9F, ?_, ?_, ?_⟩ <;> simp <;> omega
  · refine ⟨0x80, 0xBF, ?_, ?_, ?_⟩ <;> simp <;> omega
  all_goals omega

/-- **A character of three bytes**, which is no half of a code point. -/
theorem feed_three {v : Nat} (hlow : 0x800 ≤ v) (hhigh : v ≤ 0xFFFF)
    (hvalid : v < 0xD800 ∨ 0xE000 ≤ v) :
    feed .start [UInt8.ofNat (v / 0x1000 % 0x10 + 0xE0), UInt8.ofNat (v / 0x40 % 0x40 + 0x80),
        UInt8.ofNat (v % 0x40 + 0x80)]
      = ([some (Char.ofNat v)], .start) := by
  obtain ⟨low, high, hfirst, hsecond⟩ := ofFirst?_of_three hlow hhigh hvalid
  have hmore : step (.inside 1 low high (v / 0x1000)) _ = _ := step_more hsecond.1 hsecond.2
  have hlast : step (.inside 0 0x80 0xBF (v / 0x1000 * 0x40 + v / 0x40 % 0x40)) _ = _ :=
    step_last (within_any v).1 (within_any v).2
  have hv : (v / 0x1000 * 0x40 + v / 0x40 % 0x40) * 0x40 + v % 0x40 = v := by omega
  rw [hv] at hlast
  simp only [feed, step_first (by omega) (by omega) hfirst, hmore, hlast, List.nil_append,
    List.append_nil]

/-- The second of four bytes, likewise. -/
theorem ofFirst?_of_four {v : Nat} (hlow : 0x10000 ≤ v) (hhigh : v < 0x110000) :
    ∃ low high, State.ofFirst? (UInt8.ofNat (v / 0x40000 % 8 + 0xF0))
        = some (.inside 2 low high (v / 0x40000))
      ∧ low.toNat ≤ v / 0x1000 % 0x40 + 0x80 ∧ v / 0x1000 % 0x40 + 0x80 ≤ high.toNat := by
  rw [ofFirst?_ofNat (by omega), if_neg (by omega), if_neg (by omega), if_neg (by omega),
    if_neg (by omega)]
  split_ifs with h1 h2 h3
  · refine ⟨0x90, 0xBF, ?_, ?_, ?_⟩ <;> simp <;> omega
  · refine ⟨0x80, 0xBF, ?_, ?_, ?_⟩ <;> simp <;> omega
  · refine ⟨0x80, 0x8F, ?_, ?_, ?_⟩ <;> simp <;> omega
  · omega

/-- **A character of four bytes.** -/
theorem feed_four {v : Nat} (hlow : 0x10000 ≤ v) (hhigh : v < 0x110000) :
    feed .start [UInt8.ofNat (v / 0x40000 % 8 + 0xF0), UInt8.ofNat (v / 0x1000 % 0x40 + 0x80),
        UInt8.ofNat (v / 0x40 % 0x40 + 0x80), UInt8.ofNat (v % 0x40 + 0x80)]
      = ([some (Char.ofNat v)], .start) := by
  obtain ⟨low, high, hfirst, hsecond⟩ := ofFirst?_of_four hlow hhigh
  have hmore : step (.inside 2 low high (v / 0x40000)) _ = _ := step_more hsecond.1 hsecond.2
  have hthird : step (.inside 1 0x80 0xBF (v / 0x40000 * 0x40 + v / 0x1000 % 0x40)) _ = _ :=
    step_more (within_any (v / 0x40)).1 (within_any (v / 0x40)).2
  have hlast : step (.inside 0 0x80 0xBF
      ((v / 0x40000 * 0x40 + v / 0x1000 % 0x40) * 0x40 + v / 0x40 % 0x40)) _ = _ :=
    step_last (within_any v).1 (within_any v).2
  have hv : ((v / 0x40000 * 0x40 + v / 0x1000 % 0x40) * 0x40 + v / 0x40 % 0x40) * 0x40 + v % 0x40
      = v := by omega
  rw [hv] at hlast
  simp only [feed, step_first (by omega) (by omega) hfirst, hmore, hthird, hlast,
    List.nil_append, List.append_nil]

/-- **A character is read back from its bytes.** -/
theorem feed_utf8EncodeChar (c : Char) :
    feed .start (String.utf8EncodeChar c) = ([some c], .start) := by
  have hvalid : c.toNat < 0xD800 ∨ 0xDFFF < c.toNat ∧ c.toNat < 0x110000 := c.valid
  have hread : feed .start (String.utf8EncodeChar c) = ([some (Char.ofNat c.toNat)], .start) := by
    unfold String.utf8EncodeChar
    rw [show c.val.toNat = c.toNat from rfl]
    dsimp only
    split_ifs with h1 h2 h3
    · have hbyte : (UInt8.ofNat c.toNat).toNat = c.toNat := toNat_ofNat_of_lt (by omega)
      have hascii : UInt8.ofNat c.toNat < 0x80 := by
        rw [UInt8.lt_iff_toNat_lt, hbyte]
        exact Nat.lt_succ_of_le h1
      simp [feed, step, first, hascii, hbyte]
    · exact feed_two (by omega) h2
    · exact feed_three (by omega) h3 (by omega)
    · exact feed_four (by omega) (by omega)
  rw [hread, Char.ofNat_toNat]

/-! ## A text -/

/-- **A text is read back from its bytes**, before whatever comes after them. -/
theorem run_flatMap_utf8EncodeChar (cs : List Char) (bytes : Bytes) :
    run .start (cs.flatMap String.utf8EncodeChar ++ bytes) = cs.map some ++ run .start bytes := by
  induction cs with
  | nil => rfl
  | cons c cs ih =>
    rw [List.flatMap_cons, List.append_assoc, run_append, feed_utf8EncodeChar, ih]
    rfl

/-- **A text that was written is read back.** -/
theorem decode?_encode (s : String) : decode? (encode s) = some s := by
  have hrun := run_flatMap_utf8EncodeChar s.toList []
  rw [List.append_nil] at hrun
  unfold decode? encode
  rw [hrun, show run .start [] = [] from rfl, List.append_nil]
  have hall : (s.toList.map some).mapM id = some s.toList := by
    induction s.toList with
    | nil => rfl
    | cons c cs ih => simp [List.mapM_cons, ih]
  rw [hall, Option.map_some, String.ofList_toList]

/-- Different texts have different bytes. -/
theorem encode_injective : Function.Injective encode := by
  intro s t h
  have hread := congrArg decode? h
  rwa [decode?_encode, decode?_encode, Option.some_inj] at hread

end ProofToolchain.Text.Utf8
