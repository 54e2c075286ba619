import Mathlib
import ProofToolchain.Proofs.Import.Bytewise

/-!
# Cutting a text at its imports

The bytes that an import says its path occupies can be relied on (`scan_spliceable`). They are the
path, between two quotes; the imports come one after another, each behind the closing quote of the
one before; and none of these positions lies inside a character. So a text can be put together
anew by cutting it at them, whichever paths are changed, and no cut is refused (`splice?`).

The spans are those of the pieces of the text. A piece with an import starts with its keyword and
ends with its closing quote (`Piece.IsLed`), which keeps the spans of two pieces apart.
-/

namespace ProofToolchain.Import

open Text.Utf8

/-- **An import's bytes are its path**, between two quotes, in a text that may be cut on both sides
of it. -/
structure IsQuoted (bytes : Bytes) (i : Import) : Prop where
  /-- The path lies within the bytes. -/
  within : i.start ≤ i.stop ∧ i.stop < bytes.length
  /-- The text may be cut before the path and after it. -/
  boundaries : isBoundary bytes i.start = true ∧ isBoundary bytes i.stop = true
  /-- The byte before the path is a quote. -/
  opening : 0 < i.start ∧ bytes[i.start - 1]? = some (byteOf '"')
  /-- The byte after the path is a quote. -/
  closing : bytes[i.stop]? = some (byteOf '"')
  /-- The text between the quotes is the path. -/
  path : slice? bytes i.start i.stop = some i.path

/-- **The text with some paths changed**, cut at the positions of the changes; `none` if one of the
cuts is refused. Bytes before `copied` are dealt with already. -/
def splice? (bytes : Bytes) (copied : Nat) : List (Import × Option String) → Option String
  | [] => slice? bytes copied bytes.length
  | (_, none) :: rest => splice? bytes copied rest
  | (i, some target) :: rest => do
    let kept ← slice? bytes copied i.start
    let after ← splice? bytes i.stop rest
    return kept ++ target ++ after

/-! ## The spans of pieces -/

/-- A piece with an import holds more than a quote before the path, and the quote comes last. -/
def Piece.IsLed : Piece → Prop
  | .plain _ => True
  | .importing lead _ => ∃ head, head ≠ [] ∧ lead = head ++ ['"']

theorem isLed_afterKeyword {word : List Char} (h : word ≠ []) (rest : List Char) :
    (afterKeyword word rest).1.IsLed := by
  unfold afterKeyword
  split
  · dsimp only
    split
    · exact ⟨_, by simp [h], rfl⟩
    · trivial
  · trivial

theorem isLed_next (c : Char) (cs : List Char) : (next c cs).1.IsLed := by
  unfold next
  split_ifs
  · trivial
  · trivial
  · trivial
  · dsimp only
    split_ifs
    · exact isLed_afterKeyword (List.cons_ne_nil _ _) _
    · trivial
  · trivial

theorem isLed_of_mem_pieces {cs : List Char} {p : Piece} (h : p ∈ pieces cs) : p.IsLed := by
  fun_induction pieces cs with
  | case1 => cases h
  | case2 c cs ih =>
    rcases List.mem_cons.1 h with rfl | h
    · exact isLed_next c cs
    · exact ih h

/-- **An import stands between its quotes**, wherever the pieces start. -/
theorem exists_of_mem_ofPieces {ps : List Piece} (h : ∀ p ∈ ps, p.IsLed) {offset : Nat}
    {i : Import} (hi : i ∈ ofPieces offset ps) :
    ∃ before after, ps.flatMap Piece.text = before ++ '"' :: (i.path.toList ++ '"' :: after)
      ∧ i.start = offset + byteSize before + 1 ∧ i.stop = i.start + byteSize i.path.toList := by
  induction ps generalizing offset with
  | nil => cases hi
  | cons p ps ih =>
    have hrest : ∀ q ∈ ps, q.IsLed := fun q hq => h q (List.mem_cons_of_mem p hq)
    rw [ofPieces_cons] at hi
    rcases List.mem_append.1 hi with hfirst | hi
    · cases p with
      | plain text => cases hfirst
      | importing lead path =>
        obtain ⟨head, -, rfl⟩ := h _ List.mem_cons_self
        obtain rfl := List.mem_singleton.1 hfirst
        refine ⟨head, ps.flatMap Piece.text, ?_, ?_, ?_⟩
        · simp [Piece.text]
        · simp only [byteSize_append, ← Nat.add_assoc]
          rfl
        · simp
    · obtain ⟨before, after, htext, hstart, hstop⟩ := ih hrest hi
      refine ⟨p.text ++ before, after, ?_, ?_, hstop⟩
      · rw [List.flatMap_cons, htext, List.append_assoc]
      · rw [hstart, byteSize_append, Nat.add_assoc offset]

/-- **The imports of pieces come one after another**, each behind the closing quote of the one
before, and the first one behind where the pieces start. -/
theorem separated_ofPieces {ps : List Piece} (h : ∀ p ∈ ps, p.IsLed) (offset : Nat) :
    (ofPieces offset ps).Pairwise (fun a b => a.stop + 1 < b.start)
      ∧ ∀ i ∈ ofPieces offset ps, offset + 1 < i.start := by
  induction ps generalizing offset with
  | nil => exact ⟨.nil, nofun⟩
  | cons p ps ih =>
    obtain ⟨hseparated, hbehind⟩ := ih (fun q hq => h q (List.mem_cons_of_mem p hq))
      (offset + byteSize p.text)
    cases p with
    | plain text =>
      refine ⟨hseparated, fun i hi => ?_⟩
      have := hbehind i hi
      omega
    | importing lead path =>
      obtain ⟨head, hhead, rfl⟩ := h _ List.mem_cons_self
      obtain ⟨c, head, rfl⟩ := List.exists_cons_of_ne_nil hhead
      have hpos : 0 < byteSize (c :: head) :=
        Nat.lt_of_lt_of_le c.utf8Size_pos (Nat.le_add_right _ _)
      have hquote : byteSize ['"'] = 1 := rfl
      simp only [ofPieces, Piece.text, byteSize_append, hquote, List.pairwise_cons,
        List.forall_mem_cons] at hbehind ⊢
      refine ⟨⟨fun i hi => ?_, ?_⟩, ?_, fun i hi => ?_⟩
      · have := hbehind i hi
        omega
      · simpa only [Piece.text, byteSize_append, hquote, Nat.add_assoc] using hseparated
      · omega
      · have := hbehind i hi
        omega

/-! ## The imports of a text -/

/-- **The bytes of an import are its path**, between two quotes. -/
theorem isQuoted_of_mem_scan {source : String} {i : Import} (hi : i ∈ scan source) :
    IsQuoted (encode source) i := by
  obtain ⟨before, after, htext, hstart, hstop⟩ :=
    exists_of_mem_ofPieces (fun _ => isLed_of_mem_pieces) hi
  rw [flatMap_text_pieces] at htext
  rw [Nat.zero_add] at hstart
  have hsource : Remains (encode source) 0 (before ++ '"' :: (i.path.toList ++ '"' :: after)) :=
    htext ▸ remains_zero source
  -- the quote before the path, the path and the quote after it come one after another
  have hopening : Remains (encode source) (byteSize before)
      (['"'] ++ (i.path.toList ++ '"' :: after)) := by
    simpa using hsource.advance
  have hpath : Remains (encode source) i.start (i.path.toList ++ '"' :: after) := by
    rw [hstart]
    exact hopening.advance
  have hclosing : Remains (encode source) i.stop ('"' :: after) := by
    rw [hstop]
    exact hpath.advance
  have hquote : ∀ {j : Nat} {cs : List Char}, Remains (encode source) j ('"' :: cs) →
      (encode source)[j]? = some (byteOf '"') := by
    intro j cs h
    obtain ⟨b, hb, hchar⟩ := Option.map_eq_some_iff.1 (h.at?_of_isAscii (by decide))
    rw [hb, (eq_ofNat_iff (by decide)).1 hchar.symm]
  refine ⟨⟨?_, ?_⟩, ⟨hpath.isBoundary, hclosing.isBoundary⟩, ⟨?_, ?_⟩, hquote hclosing, ?_⟩
  · rw [hstop]
    exact Nat.le_add_right _ _
  · exact lt_length_of_at? (hclosing.at?_of_isAscii (by decide))
  · rw [hstart]
    exact Nat.succ_pos _
  · rw [hstart, Nat.add_sub_cancel]
    exact hquote hopening
  · rw [hstop, hpath.slice?_eq, String.ofList_toList]

/-- The imports of a text come one after another. -/
theorem separated_scan (source : String) :
    (scan source).Pairwise (fun a b => a.stop + 1 < b.start) :=
  (separated_ofPieces (fun _ => isLed_of_mem_pieces) 0).1

/-- **No cut is refused** where every change lies behind the one before, at positions where the
text may be cut. -/
theorem exists_splice? {source : String} {changes : List (Import × Option String)}
    (hquoted : ∀ x ∈ changes, IsQuoted (encode source) x.1)
    (hseparated : (changes.map Prod.fst).Pairwise (fun a b => a.stop + 1 < b.start)) {copied : Nat}
    (hcopied : isBoundary (encode source) copied = true) (hlength : copied ≤ (encode source).length)
    (hbehind : ∀ x ∈ changes, copied ≤ x.1.start) :
    ∃ text, splice? (encode source) copied changes = some text
      ∧ encode text = spliced (encode source) copied changes := by
  induction changes generalizing copied with
  | nil =>
    have hend : isBoundary (encode source) (encode source).length = true := by
      simp [isBoundary]
    obtain ⟨text, hslice, htext⟩ := exists_slice? hcopied hend hlength
    exact ⟨text, hslice, by rw [htext, List.take_length]; rfl⟩
  | cons x changes ih =>
    obtain ⟨hq, hquoted'⟩ := List.forall_mem_cons.1 hquoted
    obtain ⟨hi, hbehind'⟩ := List.forall_mem_cons.1 hbehind
    obtain ⟨hnext, hseparated'⟩ := List.pairwise_cons.1 hseparated
    obtain ⟨i, _ | target⟩ := x
    · exact ih hquoted' hseparated' hcopied hlength hbehind'
    · have hafter : ∀ x ∈ changes, i.stop ≤ x.1.start := by
        intro x hx
        have hlt : i.stop + 1 < x.1.start := hnext _ (List.mem_map_of_mem hx)
        omega
      obtain ⟨kept, hslice, hkept⟩ := exists_slice? hcopied hq.boundaries.1 hi
      obtain ⟨after, hsplice, htext⟩ :=
        ih hquoted' hseparated' hq.boundaries.2 hq.within.2.le hafter
      refine ⟨kept ++ target ++ after, ?_, ?_⟩
      · rw [splice?, hslice, hsplice]
        rfl
      · rw [encode_append, encode_append, hkept, htext, spliced]

/-- **What is found in a text can be relied on to cut it.** The loop over its bytes ends, whatever
the text holds, with the imports that its pieces hold, and is refused nothing that it takes out of
the text. Each import gives the bytes of its path, which stand between two quotes, and starts
behind the closing quote of the one before. So the text is put together anew with any of the paths
changed, no cut being refused, and nothing but those paths is different then. -/
theorem scan_spliceable (source : String) :
    scanBytes? (encode source) 0 = some (scan source)
      ∧ (∀ i ∈ scan source, IsQuoted (encode source) i)
      ∧ (scan source).Pairwise (fun a b => a.stop + 1 < b.start)
      ∧ (∀ target : Import → Option String, ∃ text,
          splice? (encode source) 0 ((scan source).map fun i => (i, target i)) = some text
            ∧ encode text
              = spliced (encode source) 0 ((scan source).map fun i => (i, target i)))
      ∧ ∀ t : String → Option String,
          splice? (encode source) 0 ((scan source).map fun i => (i, t i.path))
            = some (retarget t source) := by
  have hsplice : ∀ target : Import → Option String, ∃ text,
      splice? (encode source) 0 ((scan source).map fun i => (i, target i)) = some text
        ∧ encode text = spliced (encode source) 0 ((scan source).map fun i => (i, target i)) := by
    intro target
    refine exists_splice? ?_ ?_ (remains_zero source).isBoundary (Nat.zero_le _)
      fun x _ => Nat.zero_le _
    · intro x hx
      obtain ⟨i, hi, rfl⟩ := List.mem_map.1 hx
      exact isQuoted_of_mem_scan hi
    · rw [List.map_map]
      exact (List.map_id (scan source)).symm ▸ separated_scan source
  refine ⟨scanBytes?_encode source, fun i => isQuoted_of_mem_scan, separated_scan source, hsplice,
    fun t => ?_⟩
  obtain ⟨text, htext, hencode⟩ := hsplice fun i => t i.path
  have hread := decode?_encode text
  rw [hencode, ← encode_retarget, decode?_encode] at hread
  rw [htext, hread]

/-- A text with a backslash before a character of two bytes, another import, and a literal that
ends with the text. -/
def escapedPaths : String := "import \"\\é\"; import \"a\"; \"é\\"

/-- **A cut text**: its first path is three bytes, a backslash and the character after it, and the
second one is changed. -/
theorem scan_spliceable_escapedPaths :
    scan escapedPaths = [⟨"\\é", 8, 11⟩, ⟨"a", 22, 23⟩]
      ∧ slice? (encode escapedPaths) 8 11 = some "\\é"
      ∧ slice? (encode escapedPaths) 8 10 = none
      ∧ splice? (encode escapedPaths) 0 [(⟨"\\é", 8, 11⟩, none), (⟨"a", 22, 23⟩, some "./src_1")]
        = some "import \"\\é\"; import \"./src_1\"; \"é\\" := by
  have hscan : scan escapedPaths = [⟨"\\é", 8, 11⟩, ⟨"a", 22, 23⟩] := by cbv
  obtain ⟨-, hquoted, -, -, hsplice⟩ := scan_spliceable escapedPaths
  have hfirst := hquoted ⟨"\\é", 8, 11⟩ (by rw [hscan]; exact List.mem_cons_self)
  have hchanged := hsplice fun path => if path = "a" then some "./src_1" else none
  rw [hscan] at hchanged
  refine ⟨hscan, hfirst.path, by cbv, hchanged.trans (congrArg some ?_)⟩
  cbv

end ProofToolchain.Import
