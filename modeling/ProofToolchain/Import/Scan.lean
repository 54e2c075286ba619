import ProofToolchain.Import.Piece

/-!
# Where the imports stand

`scan` lists the imports of a program text in the order in which they are written, each with the
bytes its path occupies in the text's UTF-8 form. The spans come from the pieces of the text: a
piece advances the position by its size in bytes, and a path starts where the lead of its piece
ends.
-/

namespace ProofToolchain

/-- **One import of a program text.** -/
structure Import where
  /-- The path between the quotes, escapes as they are written. -/
  path : String
  /-- The byte at which the path starts. -/
  start : Nat
  /-- The byte after the path, which is the closing quote. -/
  stop : Nat
  deriving DecidableEq, Repr

namespace Import

/-- The number of bytes of a text in UTF-8. -/
def byteSize : List Char → Nat
  | [] => 0
  | c :: cs => c.utf8Size + byteSize cs

@[simp] theorem byteSize_append (a b : List Char) :
    byteSize (a ++ b) = byteSize a + byteSize b := by
  induction a with
  | nil => simp [byteSize]
  | cons c a ih => simp [byteSize, ih, Nat.add_assoc]

/-- The size of a text is what its string takes in memory. -/
theorem byteSize_toList (s : String) : byteSize s.toList = s.utf8ByteSize := by
  have h : ∀ cs : List Char, byteSize cs = (String.ofList cs).utf8ByteSize := by
    intro cs
    induction cs with
    | nil => rfl
    | cons c cs ih =>
      have hc : String.ofList (c :: cs) = String.singleton c ++ String.ofList cs := by
        rw [String.singleton_eq_ofList, ← String.ofList_append]
        rfl
      rw [hc, String.utf8ByteSize_append, String.utf8ByteSize_singleton, byteSize, ih]
  rw [h, String.ofList_toList]

/-- The imports of a list of pieces whose first one stands at byte `offset`. -/
def ofPieces (offset : Nat) : List Piece → List Import
  | [] => []
  | piece :: rest =>
    let after := ofPieces (offset + byteSize piece.text) rest
    match piece with
    | .plain _ => after
    | .importing lead path =>
      let start := offset + byteSize lead
      ⟨String.ofList path, start, start + byteSize path⟩ :: after

/-- **The imports of a program text**, in the order in which they are written. -/
def scan (source : String) : List Import :=
  ofPieces 0 (pieces source.toList)

/-- The paths of the imports are the paths of the pieces, wherever these stand. -/
theorem map_path_ofPieces (offset : Nat) (ps : List Piece) :
    (ofPieces offset ps).map (·.path) = (ps.filterMap Piece.path?).map String.ofList := by
  induction ps generalizing offset with
  | nil => rfl
  | cons p ps ih => cases p <;> simp [ofPieces, List.filterMap_cons, Piece.path?, ih]

end Import

end ProofToolchain
