import ProofToolchain.Proofs.Location.Place

/-!
# Canonical spellings

The canonical spelling of a path is read off the place that the path leads to: one `..` for each
directory above the start, then the names, the last one with its extension. A place without a name
gets one all the same, which is the extension alone at the start and `...zok` above it.

So canonical spellings are known by their form (`IsCanonical`), and being put together from the
segments of a place they lead there again, which makes them their own canonical spelling
(`IsCanonical.canonicalChars_eq`). A path whose last segment is a name denotes a file, and its
canonical spelling holds no more and no less than that (`fileOf`). The three facts together are
`canonical_form`.
-/

namespace ProofToolchain

namespace Text

/-- **Pieces without the separator are cut again** where they were put together. -/
theorem split_join {c : Char} {ws : List (List Char)} (hne : ws ≠ []) (h : ∀ w ∈ ws, c ∉ w) :
    split (· == c) (join [c] ws) = ws := by
  have hone : ∀ w : List Char, c ∉ w → split (· == c) w = [w] := fun w hw =>
    split_of_forall_neg fun d hd => by simpa using fun hdc : d = c => hw (hdc ▸ hd)
  induction ws with
  | nil => exact absurd rfl hne
  | cons w ws ih =>
    have hw := hone w (h w List.mem_cons_self)
    cases ws with
    | nil => exact hw
    | cons v vs =>
      have hrest := ih (List.cons_ne_nil v vs) fun u hu => h u (List.mem_cons_of_mem w hu)
      have hsep : (c == c) = true := beq_self_eq_true c
      have hjoin : join [c] (w :: v :: vs) = w ++ c :: join [c] (v :: vs) := by simp [join]
      rw [hjoin, split_append_sep (p := (· == c)) hsep, hw, hrest]
      rfl

/-- What is added to the last piece is added to the text. -/
theorem join_concat_append (sep : List Char) (ws : List (List Char)) (w v : List Char) :
    join sep (ws ++ [w]) ++ v = join sep (ws ++ [w ++ v]) := by
  induction ws with
  | nil => rfl
  | cons u us ih =>
    have hcons : ∀ x : List Char,
        join sep (u :: (us ++ [x])) = u ++ sep ++ join sep (us ++ [x]) := by
      intro x
      obtain ⟨y, ys, hys⟩ := List.exists_cons_of_ne_nil (List.append_ne_nil_of_right_ne_nil us
        (List.cons_ne_nil x []))
      rw [hys, join]
      exact List.cons_ne_nil y ys
    rw [List.cons_append, List.cons_append, hcons, hcons, List.append_assoc, ih]

end Text

namespace Location

/-! ## The last segment -/

/-- The file name that a last segment stands for. -/
def named (segment : List Char) : List Char :=
  if hasExtension segment then segment else segment ++ ['.', 'z', 'o', 'k']

/-- A name has an extension if there is a dot in it. -/
theorem hasExtension_iff {name : List Char} (h : IsName name) :
    hasExtension name = true ↔ '.' ∈ name := by
  simp [hasExtension, h.2.2.1]

/-- **A file name is a name with a dot**, whatever segment it comes from. -/
theorem isName_named {segment : List Char} (hslash : '/' ∉ segment) (hhere : segment ≠ here) :
    IsName (named segment) ∧ '.' ∈ named segment := by
  unfold named
  split
  · next h =>
    obtain ⟨hdot, hparent⟩ : '.' ∈ segment ∧ segment ≠ parent := by simpa [hasExtension] using h
    exact ⟨⟨List.ne_nil_of_mem hdot, hhere, hparent, hslash⟩, hdot⟩
  · have hlong : ∀ other : List Char, other.length ≤ 2 →
        segment ++ ['.', 'z', 'o', 'k'] ≠ other := by
      rintro _ hother rfl
      simp only [List.length_append, List.length_cons] at hother
      omega
    refine ⟨⟨by simp, hlong here (by decide), hlong parent (by decide), ?_⟩, by simp⟩
    simpa using hslash

/-- Of no segments the last one is taken to be empty. -/
theorem getLastD_eq_nil_or_mem (names : List (List Char)) :
    names.getLastD [] = [] ∨ names.getLastD [] ∈ names := by
  rcases List.eq_nil_or_concat' names with rfl | ⟨before, last, rfl⟩
  · exact .inl rfl
  · exact .inr (by simp)

/-- **The text of a canonical spelling**: the segments before the last one, and its file name. -/
theorem render_eq_join (names : List (List Char)) :
    render names = Text.join ['/'] (names.dropLast ++ [named (names.getLastD [])]) := by
  rcases List.eq_nil_or_concat' names with rfl | ⟨before, last, rfl⟩
  · rfl
  · rw [List.dropLast_concat, List.getLastD_concat, render, List.getLast?_concat, named]
    simp only [Option.any_some]
    split
    · rfl
    · exact Text.join_concat_append ['/'] before last _

/-- **A canonical spelling is cut again into what it was put together from.** -/
theorem segments_render {names : List (List Char)} (h : ∀ n ∈ names, '/' ∉ n)
    (hhere : names.getLastD [] ≠ here) :
    segments (render names) = names.dropLast ++ [named (names.getLastD [])] := by
  have hlast : '/' ∉ names.getLastD [] := by
    rcases getLastD_eq_nil_or_mem names with hnil | hmem
    · rw [hnil]
      exact List.not_mem_nil
    · exact h _ hmem
  rw [render_eq_join]
  refine Text.split_join (List.concat_ne_nil _ _) ?_
  intro n hn
  rcases List.mem_append.1 hn with hn | hn
  · exact h n (List.dropLast_subset names hn)
  · rw [List.mem_singleton.1 hn]
    exact (isName_named hlast hhere).1.2.2.2

/-! ## The form of canonical spellings -/

/-- **A canonical spelling**: some `..`, ordinary names, and one more name with a dot in it. -/
def IsCanonical (path : List Char) : Prop :=
  ∃ (dir : Place) (name : List Char), IsName name ∧ '.' ∈ name ∧ segments path = dir.names ++ [name]

/-- The segments that lead to a place, but for the last one, lead to a place. -/
theorem Place.exists_names_eq_dropLast (p : Place) : ∃ q : Place, q.names = p.names.dropLast := by
  rcases p.eq_above_or_exists_name with ⟨n, rfl⟩ | ⟨name, -, hnames⟩
  · exact ⟨above (n - 1), by rw [names_above, names_above, List.dropLast_replicate]⟩
  · exact ⟨p.outer, by rw [hnames, List.dropLast_concat]⟩

/-- The last segment that leads to a place holds no slash and is not the place itself. -/
theorem Place.getLastD_names (p : Place) :
    '/' ∉ p.names.getLastD [] ∧ p.names.getLastD [] ≠ here := by
  rcases getLastD_eq_nil_or_mem p.names with hnil | hmem
  · rw [hnil]
    exact ⟨List.not_mem_nil, by decide⟩
  · refine ⟨slash_not_mem hmem, ?_⟩
    rcases List.mem_append.1 hmem with h | h
    · rw [List.eq_of_mem_replicate h]
      decide
    · exact (p.isName _ h).2.1

/-- The segments of a canonical spelling, from the place that the path leads to. -/
theorem segments_canonicalChars (path : List Char) :
    segments (canonicalChars path)
      = (placeOf path).names.dropLast ++ [named ((placeOf path).names.getLastD [])] := by
  rw [canonicalChars, walk_segments]
  exact segments_render (fun _ => Place.slash_not_mem) (placeOf path).getLastD_names.2

/-- **Every canonical spelling has the form.** -/
theorem isCanonical_canonicalChars (path : List Char) : IsCanonical (canonicalChars path) := by
  obtain ⟨dir, hdir⟩ := (placeOf path).exists_names_eq_dropLast
  obtain ⟨hslash, hhere⟩ := (placeOf path).getLastD_names
  obtain ⟨hname, hdot⟩ := isName_named hslash hhere
  exact ⟨dir, _, hname, hdot, by rw [segments_canonicalChars, hdir]⟩

/-- A path is its segments with slashes between them. -/
theorem join_segments (path : List Char) : Text.join ['/'] (segments path) = path :=
  Text.join_split '/' path

/-- Paths with the same segments are the same. -/
theorem segments_injective {path other : List Char} (h : segments path = segments other) :
    path = other := by
  rw [← join_segments path, h, join_segments]

/-! ## The file that a path denotes -/

/-- The last segment of a path. -/
def lastSegment (path : List Char) : List Char :=
  (segments path).getLastD []

/-- **A path that ends in a name**, and not in a directory: its last segment is neither empty nor
`.` nor `..`, and holds no slash as no segment does. -/
def EndsInName (path : List Char) : Prop :=
  IsName (lastSegment path)

instance (path : List Char) : Decidable (EndsInName path) :=
  inferInstanceAs (Decidable (IsName _))

/-- The place of the directory that a path names its file in. -/
def directoryOf (path : List Char) : Place :=
  Place.start.along (segments path).dropLast

/-- **A file**: a name in a directory. -/
structure File where
  /-- Where the directory is. -/
  directory : Place
  /-- The name of the file. -/
  name : List Char
  deriving DecidableEq

/-- **The file that a path denotes.** Its directory is where the path leads before the last segment,
and a last segment without a dot stands for the name with the extension. -/
def fileOf (path : List Char) : File where
  directory := directoryOf path
  name := if '.' ∈ lastSegment path then lastSegment path
    else lastSegment path ++ ['.', 'z', 'o', 'k']

/-- A path has a last segment. -/
theorem segments_eq (path : List Char) :
    segments path = (segments path).dropLast ++ [lastSegment path] := by
  have hne : segments path ≠ [] := Text.split_ne_nil _ _
  rw [lastSegment, List.getLastD_eq_getLast?, List.getLast?_eq_some_getLast hne]
  exact (List.dropLast_concat_getLast hne).symm

/-- A path that ends in a name leads into the directory of that name. -/
theorem placeOf_eq {path : List Char} (h : IsName (lastSegment path)) :
    placeOf path = (directoryOf path).inner (lastSegment path) h := by
  rw [placeOf, segments_eq, Place.along_append, Place.along_cons, Place.into_of_isName _ h,
    Place.along_nil]
  rfl

/-- **The canonical spelling of a path that ends in a name** is cut into the segments that lead to
the directory, and the name of the file. -/
theorem EndsInName.segments_canonicalChars {path : List Char} (h : EndsInName path) :
    segments (canonicalChars path) = (fileOf path).directory.names ++ [(fileOf path).name] := by
  have hname : IsName (lastSegment path) := h
  rw [Location.segments_canonicalChars, placeOf_eq hname, Place.names_inner, List.dropLast_concat,
    List.getLastD_concat, named, fileOf]
  simp only [hasExtension_iff hname]

/-- **Two paths have one canonical spelling if they denote one file**, and only then. -/
theorem EndsInName.canonicalChars_eq_iff_fileOf {path other : List Char} (h : EndsInName path)
    (hother : EndsInName other) :
    canonicalChars path = canonicalChars other ↔ fileOf path = fileOf other := by
  constructor
  · intro heq
    have hsegments := congrArg segments heq
    rw [h.segments_canonicalChars, hother.segments_canonicalChars] at hsegments
    obtain ⟨hnames, hlast⟩ := List.append_inj' hsegments rfl
    have hdirectory := Place.names_injective hnames
    have hname := List.head_eq_of_cons_eq hlast
    show File.mk (fileOf path).directory (fileOf path).name = _
    rw [hdirectory, hname]
  · intro heq
    refine segments_injective ?_
    rw [h.segments_canonicalChars, hother.segments_canonicalChars, heq]

/-! ## Canonical spellings stay as they are -/

/-- A path with a name after the segments that lead to a place denotes the file there, if the name
has a dot. -/
theorem fileOf_of_segments {path name : List Char} {dir : Place}
    (h : segments path = dir.names ++ [name]) (hdot : '.' ∈ name) : fileOf path = ⟨dir, name⟩ := by
  have hlast : lastSegment path = name := by rw [lastSegment, h, List.getLastD_concat]
  have hdirectory : directoryOf path = dir := by
    rw [directoryOf, h, List.dropLast_concat, Place.along_names]
  rw [fileOf, hlast, hdirectory, if_pos hdot]

/-- A canonical spelling ends in a name. -/
theorem IsCanonical.endsInName {path : List Char} (h : IsCanonical path) : EndsInName path := by
  obtain ⟨dir, name, hname, -, hsegments⟩ := h
  rwa [EndsInName, lastSegment, hsegments, List.getLastD_concat]

/-- **What has the form is its own canonical spelling.** -/
theorem IsCanonical.canonicalChars_eq {path : List Char} (h : IsCanonical path) :
    canonicalChars path = path := by
  have hends := h.endsInName
  obtain ⟨dir, name, -, hdot, hsegments⟩ := h
  refine segments_injective ?_
  rw [hends.segments_canonicalChars, fileOf_of_segments hsegments hdot, hsegments]

/-- **Canonical spellings.** They all have one form, some `..` and at least one ordinary name, the
last of them with a dot; a canonical spelling is its own; and two locations that end in a name are
spelled alike exactly when they denote the same file. -/
theorem canonical_form (location : Location) :
    (∃ up names, segments (canonical location).toList = List.replicate up parent ++ names
        ∧ (∀ name ∈ names, IsName name) ∧ ∃ last, names.getLast? = some last ∧ '.' ∈ last)
      ∧ canonical (canonical location) = canonical location
      ∧ ∀ other : Location, EndsInName location.toList → EndsInName other.toList →
          (canonical location = canonical other
            ↔ fileOf location.toList = fileOf other.toList) := by
  have hform := isCanonical_canonicalChars location.toList
  refine ⟨?_, ?_, fun other h hother => ?_⟩
  · obtain ⟨dir, name, hname, hdot, hsegments⟩ := hform
    refine ⟨dir.up, dir.down ++ [name], ?_, (dir.inner name hname).isName, name, by simp, hdot⟩
    rw [toList_canonical, hsegments, Place.names, List.append_assoc]
  · rw [← String.toList_inj, toList_canonical, toList_canonical]
    exact hform.canonicalChars_eq
  · rw [← String.toList_inj, toList_canonical, toList_canonical]
    exact h.canonicalChars_eq_iff_fileOf hother

/-- Two spellings of a file above the start, which have one canonical spelling. -/
theorem canonical_form_climbing :
    EndsInName "a/../.././b//c".toList ∧ EndsInName "../b/d/../c.zok".toList
      ∧ canonical "a/../.././b//c" = "../b/c.zok"
      ∧ canonical "a/../.././b//c" = canonical "../b/d/../c.zok" := by
  have hfirst : EndsInName "a/../.././b//c".toList := by decide
  have hsecond : EndsInName "../b/d/../c.zok".toList := by decide
  obtain ⟨-, -, hfile⟩ := canonical_form "a/../.././b//c"
  exact ⟨hfirst, hsecond, by decide, (hfile _ hfirst hsecond).2 (by decide)⟩

end Location

end ProofToolchain
