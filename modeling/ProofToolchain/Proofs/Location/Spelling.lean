import ProofToolchain.Proofs.Location.Canonical

/-!
# The spelling of an importing file

A relative import path is put behind the directory of the importing file, and that is cut off its
location as it is written, before anything is collapsed. Where a location ends in a name, that
makes no difference: what comes before the name leads to one place in every spelling
(`EndsInName.directoryOf_canonicalChars`), and the path leads on from there (`placeOf_beside`). So
an import leads to one location from all spellings of a file (`Spells.join_eq`).

It would make one for a location that ends in a directory. From `a/..` the path `./b` leads to
`a/b.zok`, but the canonical spelling of `a/..` is `.zok`, from which it leads to `b.zok`.
-/

namespace ProofToolchain.Location

/-- **An import path as it reads from the root**: behind the directory of the importing file, if it
is relative. Nothing is collapsed. -/
def beside (current path : List Char) : List Char :=
  if isRelative path then
    match directory? current with
    | some dir => dir ++ '/' :: path
    | none => path
  else path

/-- An import refers to what it reads as. -/
theorem joinChars_eq (current path : List Char) :
    joinChars current path = canonicalChars (beside current path) := by
  unfold joinChars beside
  split
  · cases directory? current <;> rfl
  · rfl

/-- **An import leads to a canonical location.** -/
theorem isCanonical_join (current path : Location) : IsCanonical (join current path).toList := by
  rw [toList_join, joinChars_eq]
  exact isCanonical_canonicalChars _

/-- A slash stands between segments. -/
theorem segments_append_slash (path rest : List Char) :
    segments (path ++ '/' :: rest) = segments path ++ segments rest :=
  Text.split_append_sep (p := (· == '/')) rfl path rest

/-- The directory of a path has all its segments but the last one, if there are any. -/
theorem segments_directory? (path : List Char) :
    directory? path = none ∧ (segments path).dropLast = []
      ∨ ∃ dir, directory? path = some dir ∧ segments dir = (segments path).dropLast := by
  have hlength : (segments path).dropLast.length = (segments path).length - 1 :=
    List.length_dropLast
  unfold directory?
  dsimp only
  split
  · next hle => exact .inl ⟨rfl, List.length_eq_zero_iff.1 (by omega)⟩
  · next hlt =>
    have hne : (segments path).dropLast ≠ [] := by
      intro hnil
      rw [hnil, List.length_nil] at hlength
      omega
    refine .inr ⟨_, rfl, Text.split_join hne fun n hn => ?_⟩
    exact slash_not_mem_of_mem_segments (List.dropLast_subset _ hn)

/-- A relative path is read after the segments of the directory. -/
theorem segments_beside {path : List Char} (h : isRelative path = true) (current : List Char) :
    segments (beside current path) = (segments current).dropLast ++ segments path := by
  rw [beside, if_pos h]
  rcases segments_directory? current with ⟨hnone, hempty⟩ | ⟨dir, hdir, hsegments⟩
  · rw [hnone, hempty, List.nil_append]
  · rw [hdir, ← hsegments]
    exact segments_append_slash dir path

/-- **A relative path leads on from the directory of the importing file.** -/
theorem placeOf_beside {path : List Char} (h : isRelative path = true) (current : List Char) :
    placeOf (beside current path) = (directoryOf current).along (segments path) := by
  rw [placeOf, segments_beside h, Place.along_append]
  rfl

/-- The place that a path leads to is all that its canonical spelling depends on. -/
theorem canonicalChars_eq_of_placeOf {path other : List Char} (h : placeOf path = placeOf other) :
    canonicalChars path = canonicalChars other := by
  rw [canonicalChars, canonicalChars, walk_segments, walk_segments, h]

/-- The directory of the importing file is all that an import depends on. -/
theorem joinChars_eq_of_directoryOf {current other : List Char}
    (h : directoryOf current = directoryOf other) (path : List Char) :
    joinChars current path = joinChars other path := by
  rw [joinChars_eq, joinChars_eq]
  cases hrelative : isRelative path with
  | true =>
    refine canonicalChars_eq_of_placeOf ?_
    rw [placeOf_beside hrelative, placeOf_beside hrelative, h]
  | false => simp [beside, hrelative]

/-- **The directory of a file stays where it is** when the file is spelled canonically. -/
theorem EndsInName.directoryOf_canonicalChars {path : List Char} (h : EndsInName path) :
    directoryOf (canonicalChars path) = directoryOf path := by
  rw [directoryOf, h.segments_canonicalChars, List.dropLast_concat, Place.along_names]
  rfl

/-- An import path that ends in a name does so behind any directory. -/
theorem EndsInName.beside {path : List Char} (h : EndsInName path) (current : List Char) :
    EndsInName (beside current path) := by
  cases hrelative : isRelative path with
  | true =>
    rw [EndsInName, lastSegment, segments_beside hrelative, segments_eq path,
      ← List.append_assoc, List.getLastD_concat]
    exact h
  | false => simpa [Location.beside, hrelative] using h

/-! ## Spellings -/

/-- **A spelling of a location**: it ends in a name, and the location is its canonical spelling. -/
def Spells (spelling location : Location) : Prop :=
  EndsInName spelling.toList ∧ canonical spelling = location

/-- A canonical location is a spelling of itself. -/
theorem spells_self {location : Location} (h : IsCanonical location.toList) :
    Spells location location :=
  ⟨h.endsInName, by rw [← String.toList_inj, toList_canonical, h.canonicalChars_eq]⟩

/-- **An import leads to one location from every spelling of a file.** -/
theorem Spells.join_eq {spelling location : Location} (h : Spells spelling location)
    (path : Location) : join spelling path = join location path := by
  obtain ⟨hname, rfl⟩ := h
  rw [← String.toList_inj, toList_join, toList_join, toList_canonical]
  exact (joinChars_eq_of_directoryOf hname.directoryOf_canonicalChars _).symm

/-- From a location that ends in a directory an import may lead elsewhere. -/
example : join "a/.." "./b" = "a/b.zok" ∧ join (canonical "a/..") "./b" = "b.zok" := by decide

/-- An import path as it reads from the root is a spelling of the location it leads to. -/
theorem spells_beside {path : Location} (h : EndsInName path.toList) (current : Location) :
    Spells (String.ofList (beside current.toList path.toList)) (join current path) := by
  refine ⟨?_, ?_⟩
  · rw [String.toList_ofList]
    exact h.beside current.toList
  · rw [← String.toList_inj, toList_canonical, String.toList_ofList, toList_join, joinChars_eq]

end ProofToolchain.Location
