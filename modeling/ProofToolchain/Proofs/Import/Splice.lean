import ProofToolchain.Proofs.Import.Reread
import ProofToolchain.Text.Utf8

/-!
# Changed paths, byte by byte

An import carries the bytes its path occupies, so paths can be changed without cutting the text
into pieces: copy the bytes up to the path, write the other path, and go on after the old one
(`spliced`). This touches nothing but the paths that change, since all other bytes are copied in
order, and it is what `retarget` does (`encode_retarget`).
-/

namespace ProofToolchain.Import

open Text.Utf8

/-- **The bytes of a text with some paths changed**, given how many bytes are dealt with already.
Each change is copied up to and then skipped; an import without a change is copied like any other
text. -/
def spliced (bytes : Bytes) (copied : Nat) : List (Import × Option String) → Bytes
  | [] => bytes.drop copied
  | (_, none) :: rest => spliced bytes copied rest
  | (i, some target) :: rest =>
    (bytes.take i.start).drop copied ++ encode target ++ spliced bytes i.stop rest

/-- The UTF-8 bytes of some characters. -/
def encodeChars (cs : List Char) : Bytes :=
  cs.flatMap String.utf8EncodeChar

theorem encode_eq (s : String) : encode s = encodeChars s.toList := rfl

@[simp] theorem encodeChars_nil : encodeChars [] = [] := rfl

@[simp] theorem encodeChars_cons (c : Char) (cs : List Char) :
    encodeChars (c :: cs) = String.utf8EncodeChar c ++ encodeChars cs := rfl

@[simp] theorem encodeChars_append (cs ds : List Char) :
    encodeChars (cs ++ ds) = encodeChars cs ++ encodeChars ds := by
  rw [encodeChars, List.flatMap_append]
  rfl

/-- The bytes of two texts put together. -/
theorem encode_append (s t : String) : encode (s ++ t) = encode s ++ encode t := by
  rw [encode_eq, String.toList_append, encodeChars_append, ← encode_eq, ← encode_eq]

/-- Positions count the bytes before them. -/
@[simp] theorem length_encodeChars (cs : List Char) : (encodeChars cs).length = byteSize cs := by
  induction cs with
  | nil => rfl
  | cons c cs ih =>
    rw [encodeChars_cons, List.length_append, String.length_utf8EncodeChar, ih]
    rfl

/-- Bytes that are passed are not copied again. -/
theorem drop_encodeChars_append {cs : List Char} {copied : Nat} (h : copied ≤ byteSize cs)
    (bytes : Bytes) :
    (encodeChars cs ++ bytes).drop copied = (encodeChars cs).drop copied ++ bytes :=
  List.drop_append_of_le_length (by rwa [length_encodeChars])

section Steps

variable {before rest : List Char} {copied : Nat} (h : copied ≤ byteSize before)
  {changes : List (Import × Option String)} {out : Bytes}
include h

/-- **Text that stays** is copied along with the text before it. -/
theorem spliced_kept {text : List Char}
    (hrest : spliced (encodeChars (before ++ text ++ rest)) copied changes
      = (encodeChars (before ++ text)).drop copied ++ out) :
    spliced (encodeChars (before ++ (text ++ rest))) copied changes
      = (encodeChars before).drop copied ++ (encodeChars text ++ out) := by
  rw [List.append_assoc, encodeChars_append before text, drop_encodeChars_append h] at hrest
  rw [hrest, List.append_assoc]

/-- **A path that changes** is copied up to and then passed. -/
theorem spliced_changed {lead path : List Char} {name target : String}
    (hrest : spliced (encodeChars (before ++ lead ++ path ++ rest))
      (byteSize (before ++ lead ++ path)) changes = out) :
    spliced (encodeChars (before ++ lead ++ path ++ rest)) copied
        ((⟨name, byteSize (before ++ lead), byteSize (before ++ lead ++ path)⟩, some target)
          :: changes)
      = (encodeChars before).drop copied ++ encodeChars lead ++ encode target ++ out := by
  have hcopy : ((encodeChars (before ++ lead ++ path ++ rest)).take
        (byteSize (before ++ lead))).drop copied
      = (encodeChars before).drop copied ++ encodeChars lead := by
    rw [List.append_assoc, encodeChars_append, ← length_encodeChars, List.take_left,
      encodeChars_append, drop_encodeChars_append h]
  rw [spliced, hcopy, hrest]

end Steps

/-- **The pieces that are left**, spliced after the text before them. -/
theorem spliced_ofPieces (t : String → Option String) (ps : List Piece) (before : List Char)
    {copied : Nat} (h : copied ≤ byteSize before) :
    spliced (encodeChars (before ++ ps.flatMap Piece.text)) copied
        ((ofPieces (byteSize before) ps).map fun i => (i, t i.path))
      = (encodeChars before).drop copied
        ++ encodeChars ((ps.map (Piece.withPath t)).flatMap Piece.text) := by
  induction ps generalizing before copied with
  | nil => simp [ofPieces, spliced]
  | cons p ps ih =>
    have hpassed : copied ≤ byteSize (before ++ p.text) := by
      rw [byteSize_append]
      exact Nat.le_trans h (Nat.le_add_right _ _)
    have hkept := spliced_kept h (ih (before ++ p.text) hpassed)
    cases p with
    | plain text => simpa [ofPieces, Piece.withPath] using hkept
    | importing lead path =>
      cases htarget : t (String.ofList path) with
      | none => simpa [ofPieces, spliced, Piece.withPath, htarget] using hkept
      | some target =>
        -- what is left goes on behind the old path, with the closing quote
        have hpath : byteSize (before ++ lead ++ path)
            ≤ byteSize (before ++ lead ++ path ++ ['"']) := by
          rw [byteSize_append _ ['"']]
          exact Nat.le_add_right _ _
        have hquote : (encodeChars (before ++ lead ++ path ++ ['"'])).drop
            (byteSize (before ++ lead ++ path)) = encodeChars ['"'] := by
          rw [encodeChars_append, ← length_encodeChars, List.drop_left]
        have hrest := ih (before ++ lead ++ path ++ ['"']) hpath
        rw [hquote, List.append_assoc _ ['"']] at hrest
        have hchanged : spliced _ copied ((⟨String.ofList path, _, _⟩, some target) :: _) = _ :=
          spliced_changed h hrest
        simpa [ofPieces, Piece.text, Piece.withPath, htarget, encode_eq, Nat.add_assoc]
          using hchanged

/-- **Changing the paths of a text changes no other byte of it.** -/
theorem encode_retarget (t : String → Option String) (source : String) :
    encode (retarget t source)
      = spliced (encode source) 0 ((scan source).map fun i => (i, t i.path)) := by
  have h := spliced_ofPieces t (pieces source.toList) [] (Nat.le_refl 0)
  rw [List.nil_append, flatMap_text_pieces] at h
  rw [retarget, encode, String.toList_ofList]
  exact h.symm

end ProofToolchain.Import
