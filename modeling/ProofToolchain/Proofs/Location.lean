import ProofToolchain.Location

/-!
# Paths that lead to one file

A canonical location says which file is meant, and many paths say it: with and without the
extension, through `.` and through directories that are left again. For a file of the directory
itself they are told apart by what remains of their segments, which is the file's name alone, with
or without its extension (`Location.canonicalChars_eq_iff`).
-/

namespace ProofToolchain

namespace Text

/-- Two pieces put together have the separator between them. -/
theorem mem_join_cons_cons (c : Char) (v w : List Char) (ws : List (List Char)) :
    c ∈ join [c] (v :: w :: ws) := by
  simp [join]

end Text

namespace Location

/-- **A file name without a directory** is rendered from that name, or from that name without its
extension. -/
theorem render_eq_iff {name : List Char} {names : List (List Char)} (hname : name ≠ [])
    (hdot : '.' ∉ name) (hslash : '/' ∉ name) :
    render names = name ++ ['.', 'z', 'o', 'k']
      ↔ names = [name] ∨ names = [name ++ ['.', 'z', 'o', 'k']] := by
  have hbare : hasExtension name = false := by simp [hasExtension, hdot]
  have hfull : hasExtension (name ++ ['.', 'z', 'o', 'k']) = true := by
    rw [hasExtension, Bool.and_eq_true, bne_iff_ne]
    refine ⟨by simp, fun h => ?_⟩
    have h := congrArg List.length h
    rw [List.length_append] at h
    exact absurd h (by simp [parent])
  constructor
  · intro h
    match names with
    | [] =>
      have h : [] ++ ['.', 'z', 'o', 'k'] = name ++ ['.', 'z', 'o', 'k'] := h
      exact absurd (List.append_cancel_right h).symm hname
    | [w] =>
      unfold render at h
      cases hext : hasExtension w with
      | true =>
        rw [show [w].getLast?.any hasExtension = true from hext, if_pos rfl] at h
        exact .inr (by rw [← h]; rfl)
      | false =>
        rw [show [w].getLast?.any hasExtension = false from hext, if_neg (by simp)] at h
        exact .inl (by rw [← List.append_cancel_right h]; rfl)
    | v :: w :: ws =>
      -- a path with a directory in it has a slash, and this name has none
      have hin : '/' ∈ render (v :: w :: ws) := by
        have hjoin := Text.mem_join_cons_cons '/' v w ws
        unfold render
        split
        · exact hjoin
        · exact List.mem_append_left _ hjoin
      rw [h, List.mem_append] at hin
      exact absurd (hin.resolve_left hslash) (by decide)
  · rintro (rfl | rfl)
    · simp [render, hbare, Text.join]
    · simp [render, hfull, Text.join]

/-- **The paths that lead to a file of the directory**: what remains of their segments is its name,
with or without its extension. -/
theorem canonicalChars_eq_iff {path name : List Char} (hname : name ≠ []) (hdot : '.' ∉ name)
    (hslash : '/' ∉ name) :
    canonicalChars path = name ++ ['.', 'z', 'o', 'k']
      ↔ walk (segments path) = [name]
        ∨ walk (segments path) = [name ++ ['.', 'z', 'o', 'k']] :=
  render_eq_iff hname hdot hslash

/-- A path without directories is the file itself. -/
theorem canonicalChars_of_name {name : List Char} (hname : name ≠ []) (hdot : '.' ∉ name)
    (hslash : '/' ∉ name) :
    canonicalChars (['.', '/'] ++ name) = name ++ ['.', 'z', 'o', 'k'] := by
  have hsegments : segments (['.', '/'] ++ name) = [here, name] := by
    have hone : Text.split (· == '/') name = [name] :=
      Text.split_of_forall_neg fun c hc => by simpa using fun h : c = '/' => hslash (h ▸ hc)
    have hsplit := Text.split_append_sep (p := (· == '/')) (c := '/') rfl ['.'] name
    rwa [hone] at hsplit
  refine (canonicalChars_eq_iff hname hdot hslash).2 (.inl ?_)
  have hhere : name ≠ here := fun h => hdot (h ▸ List.mem_singleton_self '.')
  have hparent : name ≠ parent := fun h => hdot (h ▸ List.mem_cons_self)
  rw [hsegments]
  simp [walk, enter, hname, hhere, hparent]

/-- A path written in a file that stands in no directory is read as it is. -/
theorem joinChars_of_directory?_eq_none {current : List Char} (h : directory? current = none)
    (path : List Char) : joinChars current path = canonicalChars path := by
  simp [joinChars, h]

end Location

end ProofToolchain
