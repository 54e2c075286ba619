import Mathlib.Data.List.Basic
import ProofToolchain.Proofs.Location

/-!
# Where a path leads

A path is walked one segment at a time, and where the walk stands is a **place**: so many
directories above the start, and then down through directories that have names (`Place`). A name
leads into the directory of that name, and `..` to the directory around, which from the start or
above it is one directory further up. Empty segments and `.` lead nowhere.

The canonical spelling of a path says where it leads and nothing else. It has one `..` for each
directory above the start and then the names, so it can be walked again to the same place
(`Place.along_names`), and the last name has its extension. What that makes of the spellings of a
file is `canonical_form`: they have one form, which is its own canonical spelling, and two of them
have the same one exactly when they denote the same file.

A path may end in a directory, as `..` and `a/.` do. Its canonical spelling has the form all the
same, but there is no file that the path itself denotes.
-/

namespace ProofToolchain

namespace Text

/-- No piece of a text holds the separator. -/
theorem not_mem_of_mem_split {c : Char} {cs w : List Char} (h : w ∈ split (· == c) cs) :
    c ∉ w := by
  induction cs generalizing w with
  | nil => simp [List.mem_singleton.1 h]
  | cons d cs ih =>
    obtain ⟨v, vs, hsplit⟩ := List.exists_cons_of_ne_nil (split_ne_nil (· == c) cs)
    rw [hsplit] at ih
    cases hd : d == c with
    | true =>
      rw [split_cons_of_pos (p := (· == c)) hd, hsplit] at h
      rcases List.mem_cons.1 h with rfl | h
      · exact List.not_mem_nil
      · exact ih h
    | false =>
      rw [split_cons_of_neg (p := (· == c)) hd hsplit] at h
      rcases List.mem_cons.1 h with rfl | h
      · have hne : c ≠ d := fun hc => by simp [hc] at hd
        simpa [hne] using ih List.mem_cons_self
      · exact ih (List.mem_cons_of_mem v h)

end Text

namespace Location

/-! ## Names and places -/

/-- **An ordinary name** in a path: it is not empty, is neither the directory itself nor its parent,
and holds no slash. -/
def IsName (segment : List Char) : Prop :=
  segment ≠ [] ∧ segment ≠ here ∧ segment ≠ parent ∧ '/' ∉ segment

instance (segment : List Char) : Decidable (IsName segment) :=
  inferInstanceAs (Decidable (_ ∧ _ ∧ _ ∧ _))

/-- **Where a walk stands.** -/
@[ext] structure Place where
  /-- How many directories above the start. -/
  up : Nat
  /-- The directories from there down, the outermost one first. -/
  down : List (List Char)
  /-- They have names. -/
  isName : ∀ name ∈ down, IsName name
  deriving DecidableEq

namespace Place

/-- The directory so many directories above the start. -/
def above (n : Nat) : Place := ⟨n, [], nofun⟩

/-- Where a walk starts. -/
def start : Place := above 0

/-- The directory of some name in a directory. -/
def inner (p : Place) (name : List Char) (h : IsName name) : Place where
  up := p.up
  down := p.down ++ [name]
  isName n hn := by
    rcases List.mem_append.1 hn with hn | hn
    · exact p.isName n hn
    · rwa [List.mem_singleton.1 hn]

/-- The directory around a directory. -/
def outer (p : Place) : Place :=
  if p.down = [] then above (p.up + 1)
  else ⟨p.up, p.down.dropLast, fun name h => p.isName name (List.dropLast_subset _ h)⟩

/-- **One segment walked.** -/
def into (p : Place) (segment : List Char) : Place :=
  if h : IsName segment then p.inner segment h
  else if segment = parent then p.outer
  else p

/-- **A path walked from a place.** -/
def along (p : Place) (segments : List (List Char)) : Place :=
  segments.foldl into p

/-- The segments that lead to a place. -/
def names (p : Place) : List (List Char) :=
  List.replicate p.up parent ++ p.down

@[simp] theorem along_nil (p : Place) : p.along [] = p := rfl

@[simp] theorem along_cons (p : Place) (segment : List Char) (segments : List (List Char)) :
    p.along (segment :: segments) = (p.into segment).along segments := rfl

@[simp] theorem along_append (p : Place) (first second : List (List Char)) :
    p.along (first ++ second) = (p.along first).along second :=
  List.foldl_append

theorem into_of_isName (p : Place) {name : List Char} (h : IsName name) :
    p.into name = p.inner name h := by
  rw [into, dif_pos h]

theorem into_parent (p : Place) : p.into parent = p.outer := by
  rw [into, dif_neg (by decide), if_pos rfl]

@[simp] theorem names_above (n : Nat) : (above n).names = List.replicate n parent :=
  List.append_nil _

@[simp] theorem names_inner (p : Place) {name : List Char} (h : IsName name) :
    (p.inner name h).names = p.names ++ [name] := by
  simp [names, inner]

theorem outer_above (n : Nat) : (above n).outer = above (n + 1) := rfl

/-- **A place is above the start, or a name leads to it** from the directory around it. -/
theorem eq_above_or_exists_name (p : Place) :
    (∃ n, p = above n) ∨ ∃ name, IsName name ∧ p.names = p.outer.names ++ [name] := by
  rcases List.eq_nil_or_concat' p.down with hdown | ⟨down, name, hdown⟩
  · exact .inl ⟨p.up, Place.ext rfl hdown⟩
  · refine .inr ⟨name, p.isName name (by simp [hdown]), ?_⟩
    simp [outer, hdown, names]

/-- No segment that leads to a place holds a slash. -/
theorem slash_not_mem {p : Place} {segment : List Char} (h : segment ∈ p.names) :
    '/' ∉ segment := by
  rcases List.mem_append.1 h with h | h
  · rw [List.eq_of_mem_replicate h]
    decide
  · exact (p.isName segment h).2.2.2

/-- From a place at or above the start, `..` leads further up. -/
theorem along_replicate_parent (n : Nat) : start.along (List.replicate n parent) = above n := by
  induction n with
  | zero => rfl
  | succ n ih =>
    rw [List.replicate_succ', along_append, ih, along_cons, into_parent]
    rfl

/-- Names lead down. -/
theorem along_of_isName {names : List (List Char)} (h : ∀ name ∈ names, IsName name) (p : Place) :
    (p.along names).up = p.up ∧ (p.along names).down = p.down ++ names := by
  induction names generalizing p with
  | nil => simp
  | cons name names ih =>
    rw [along_cons, into_of_isName p (h name List.mem_cons_self)]
    obtain ⟨hup, hdown⟩ := ih (fun n hn => h n (List.mem_cons_of_mem name hn)) (p.inner name _)
    rw [hdown]
    exact ⟨hup, List.append_assoc p.down [name] names⟩

/-- **The segments of a place lead there.** -/
theorem along_names (p : Place) : start.along p.names = p := by
  obtain ⟨hup, hdown⟩ := along_of_isName p.isName (above p.up)
  rw [names, along_append, along_replicate_parent]
  exact Place.ext hup hdown

/-- Places are told apart by their segments. -/
theorem names_injective {p q : Place} (h : p.names = q.names) : p = q := by
  rw [← along_names p, h, along_names]

/-- **A segment moves the stack of a walk as it moves the place.** -/
theorem enter_names (p : Place) {segment : List Char} (h : '/' ∉ segment) :
    enter p.names.reverse segment = (p.into segment).names.reverse := by
  unfold enter
  by_cases hname : IsName segment
  · rw [into_of_isName p hname, names_inner, if_neg (not_or.2 ⟨hname.1, hname.2.1⟩),
      if_neg hname.2.2.1, List.reverse_concat]
  · by_cases hparent : segment = parent
    · subst hparent
      rw [into_parent, if_neg (by decide), if_pos rfl]
      rcases p.eq_above_or_exists_name with ⟨n, rfl⟩ | ⟨name, hname, hnames⟩
      · -- the stack holds nothing but `..`, and gets one more
        rw [outer_above, names_above, names_above, List.reverse_replicate, List.reverse_replicate]
        cases n <;> rfl
      · -- the name on top of the stack is taken back
        rw [hnames, List.reverse_concat]
        exact if_neg hname.2.2.1
    · have hnone : segment = [] ∨ segment = here :=
        Decidable.byContradiction fun hsome =>
          hname ⟨(not_or.1 hsome).1, (not_or.1 hsome).2, hparent, h⟩
      rw [into, dif_neg hname, if_pos hnone, if_neg hparent]

end Place

/-! ## The place of a path -/

/-- **The place that a path leads to.** -/
def placeOf (path : List Char) : Place :=
  Place.start.along (segments path)

/-- No segment of a path holds a slash. -/
theorem slash_not_mem_of_mem_segments {path segment : List Char} (h : segment ∈ segments path) :
    '/' ∉ segment :=
  Text.not_mem_of_mem_split h

/-- **What remains of the segments of a path** leads where the path leads. -/
theorem walk_segments (path : List Char) : walk (segments path) = (placeOf path).names := by
  have hfold : ∀ (names : List (List Char)) (p : Place), (∀ n ∈ names, '/' ∉ n) →
      names.foldl enter p.names.reverse = (p.along names).names.reverse := by
    intro names
    induction names with
    | nil => exact fun _ _ => rfl
    | cons name names ih =>
      intro p h
      rw [List.foldl_cons, Place.enter_names p (h name List.mem_cons_self), Place.along_cons]
      exact ih _ fun n hn => h n (List.mem_cons_of_mem name hn)
  have hwalk := hfold (segments path) Place.start fun _ => slash_not_mem_of_mem_segments
  rw [walk, placeOf, ← List.reverse_reverse (Place.along _ _).names, ← hwalk]
  rfl

end Location

end ProofToolchain
