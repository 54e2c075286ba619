import ProofToolchain.Proofs.Text.Decoding

/-!
# The order of texts is the order of their bytes

Texts are compared character by character, and so by code points. Whoever holds the bytes of two
texts compares those, and comes to the same (`Text.Utf8.encode_lt_encode`).

The bytes of a character are its number in digits of six bits, the highest first, and the first
byte also tells how many there are, a longer character having the larger one. So of two characters
the smaller one has the smaller byte where their bytes first differ, which is before either of them
ends (`utf8EncodeChar_append_lt`): whatever comes after them does not matter.
-/

namespace ProofToolchain.Text.Utf8

theorem ofNat_lt_ofNat_iff {m n : Nat} (hm : m < 0x100) (hn : n < 0x100) :
    UInt8.ofNat m < UInt8.ofNat n ↔ m < n := by
  rw [UInt8.lt_iff_toNat_lt, UInt8.toNat_ofNat', UInt8.toNat_ofNat', Nat.mod_eq_of_lt hm,
    Nat.mod_eq_of_lt hn]

theorem ofNat_eq_ofNat_iff {m n : Nat} (hm : m < 0x100) (hn : n < 0x100) :
    UInt8.ofNat m = UInt8.ofNat n ↔ m = n := by
  rw [← UInt8.toNat_inj, UInt8.toNat_ofNat', UInt8.toNat_ofNat', Nat.mod_eq_of_lt hm,
    Nat.mod_eq_of_lt hn]

/-- Two bytes decide, or what comes after them does. -/
theorem ofNat_cons_lt_ofNat_cons_iff {m n : Nat} (hm : m < 0x100) (hn : n < 0x100)
    {bytes others : Bytes} :
    UInt8.ofNat m :: bytes < UInt8.ofNat n :: others ↔ m < n ∨ m = n ∧ bytes < others := by
  rw [List.cons_lt_cons_iff, ofNat_lt_ofNat_iff hm hn, ofNat_eq_ofNat_iff hm hn]

/-- **A smaller character has smaller bytes**, whatever comes after it. -/
theorem utf8EncodeChar_append_lt {c d : Char} (h : c < d) (bytes others : Bytes) :
    String.utf8EncodeChar c ++ bytes < String.utf8EncodeChar d ++ others := by
  have hlt : c.val.toNat < d.val.toNat := UInt32.lt_iff_toNat_lt.1 h
  have hlimit : d.val.toNat < 0x110000 := by
    have hvalid : d.val.toNat < 0xD800 ∨ 0xDFFF < d.val.toNat ∧ d.val.toNat < 0x110000 := d.valid
    omega
  unfold String.utf8EncodeChar
  generalize c.val.toNat = m at hlt ⊢
  generalize d.val.toNat = n at hlt hlimit ⊢
  -- the digits from the last one up: the first that differs is the one that counts
  have hunits : m / 64 < n / 64 ∨ m / 64 = n / 64 ∧ m % 64 < n % 64 := by omega
  have hmiddle : m / 64 < n / 64 →
      m / 4096 < n / 4096 ∨ m / 4096 = n / 4096 ∧ m / 64 % 64 < n / 64 % 64 := by omega
  have hhigh : m / 4096 < n / 4096 →
      m / 262144 < n / 262144 ∨ m / 262144 = n / 262144 ∧ m / 4096 % 64 < n / 4096 % 64 := by omega
  have hfirst : m / 262144 % 8 = m / 262144 ∧ n / 262144 % 8 = n / 262144 := by omega
  dsimp only
  split_ifs
  all_goals
    simp only [List.cons_append, List.nil_append]
    repeat rw [ofNat_cons_lt_ofNat_cons_iff (by omega) (by omega)]
    omega

/-- The bytes of a text are those of its characters, one after another. -/
theorem flatMap_utf8EncodeChar_lt {cs ds : List Char} (h : cs < ds) :
    cs.flatMap String.utf8EncodeChar < ds.flatMap String.utf8EncodeChar := by
  induction h with
  | @nil d ds =>
    obtain ⟨b, bs, hbytes, -⟩ := exists_utf8EncodeChar d
    rw [List.flatMap_nil, List.flatMap_cons, hbytes]
    exact List.nil_lt_cons _ _
  | rel hlt => exact utf8EncodeChar_append_lt hlt _ _
  | cons _ ih => exact List.append_left_lt ih

/-- **A text that comes before another has bytes that come before its bytes.** -/
theorem encode_lt_encode {s t : String} (h : s < t) : encode s < encode t :=
  flatMap_utf8EncodeChar_lt (String.lt_iff_toList_lt.1 h)

end ProofToolchain.Text.Utf8
