import Mathlib.Data.List.Induction
import ProofToolchain.Import.Resolver
import ProofToolchain.Proofs.Location.Spelling

/-!
# Sources looked up by location

A store answers an import with the source that was added last for the file the import refers to,
under whatever spelling either of them is written (`SourceStore.resolve_lastWins`). It answers with
the canonical location, and that can be imported from any file as it stands, unless it leads above
the root: then it starts with `../`, and every file reads it from its own directory.

Whoever follows imports from source to source asks the next question from the location that the
last answer gave. Nothing would change if some other spelling of that location were used, at any
step of the way (`SourceStore.chain_iff`).
-/

namespace ProofToolchain

namespace Location

/-- No canonical location starts in its own directory, so it is read from the directory of a file
only if it leads above the root. -/
theorem IsCanonical.isRelative_iff {path : List Char} (h : IsCanonical path) :
    isRelative path = true ↔ ['.', '.', '/'] <+: path := by
  have hnot : ¬ ['.', '/'] <+: path := by
    rintro ⟨rest, rfl⟩
    obtain ⟨dir, name, hname, -, hsegments⟩ := h
    have hsplit : segments (['.', '/'] ++ rest) = here :: segments rest :=
      segments_append_slash here rest
    have hmem : here ∈ (dir.inner name hname).names := by
      rw [Place.names_inner, ← hsegments, hsplit]
      exact List.mem_cons_self
    rcases List.mem_append.1 hmem with hup | hdown
    · exact absurd (List.eq_of_mem_replicate hup) (by decide)
    · exact ((dir.inner name hname).isName here hdown).2.1 rfl
  rw [isRelative, Bool.or_eq_true, List.isPrefixOf_iff_prefix, List.isPrefixOf_iff_prefix]
  exact or_iff_right hnot

end Location

namespace SourceStore

variable {store : SourceStore} {current path location : Location} {unit : SourceUnit}

/-! ## The last source of a location -/

/-- **The source that was added last** under some spelling of a canonical location. -/
def LastAt (store : SourceStore) (location : Location) (source : String) : Prop :=
  ∃ before u after, store.units = before ++ u :: after
    ∧ Location.canonical u.location = location ∧ u.source = source
    ∧ ∀ later ∈ after, Location.canonical later.location ≠ location

/-- Nothing was added last to a store without sources. -/
theorem not_lastAt_nil {source : String} : ¬ LastAt ⟨[]⟩ location source := by
  rintro ⟨before, u, after, hunits, -⟩
  exact absurd hunits.symm (by simp)

/-- **One more source** is the last one of its own location, and of no other. -/
theorem lastAt_concat_iff {units : List SourceUnit} {u : SourceUnit} {source : String} :
    LastAt ⟨units ++ [u]⟩ location source
      ↔ (Location.canonical u.location = location ∧ u.source = source)
        ∨ (Location.canonical u.location ≠ location ∧ LastAt ⟨units⟩ location source) := by
  constructor
  · rintro ⟨before, v, after, hunits, hlocation, hsource, hafter⟩
    dsimp only at hunits
    rcases List.eq_nil_or_concat' after with rfl | ⟨after, w, rfl⟩
    · obtain ⟨-, hlast⟩ := List.append_inj' hunits rfl
      obtain rfl := List.singleton_inj.1 hlast
      exact .inl ⟨hlocation, hsource⟩
    · have hsplit : units ++ [u] = (before ++ v :: after) ++ [w] := by simpa using hunits
      obtain ⟨rfl, hlast⟩ := List.append_inj' hsplit rfl
      obtain rfl := List.singleton_inj.1 hlast
      exact .inr ⟨hafter u (by simp), before, v, after, rfl, hlocation, hsource,
        fun later hlater => hafter later (by simp [hlater])⟩
  · rintro (⟨hlocation, hsource⟩ | ⟨hne, before, v, after, hunits, hlocation, hsource, hafter⟩)
    · exact ⟨units, u, [], rfl, hlocation, hsource, nofun⟩
    · refine ⟨before, v, after ++ [u], ?_, hlocation, hsource, fun later hlater => ?_⟩
      · simpa using congrArg (· ++ [u]) hunits
      · rcases List.mem_append.1 hlater with hlater | hlater
        · exact hafter later hlater
        · exact List.mem_singleton.1 hlater ▸ hne

/-- **Adding goes by insertion**: the last addition is looked up first. -/
theorem find?_concat (units : List SourceUnit) (u : SourceUnit) (location : Location) :
    find? ⟨units ++ [u]⟩ location
      = if Location.canonical u.location = location then some u.source
        else find? ⟨units⟩ location := by
  unfold find? sources
  rw [List.foldl_append, List.foldl_cons, List.foldl_nil, withSource]
  split
  · next heq => rw [← heq, Entries.get?_set_self]
  · next hne => rw [Entries.get?_set_of_ne (Ne.symm hne)]

/-- Looking a location up finds what was added last. -/
theorem find?_eq_some_iff {source : String} :
    store.find? location = some source ↔ store.LastAt location source := by
  obtain ⟨units⟩ := store
  -- From the end: what is looked up first is what was added last.
  induction units using List.reverseRecOn with
  | nil => simp [find?, sources, not_lastAt_nil]
  | append_singleton units u ih =>
    rw [find?_concat, lastAt_concat_iff, ← ih]
    by_cases hlocation : Location.canonical u.location = location <;> simp [hlocation]

/-- Nothing is found where nothing was added. -/
theorem find?_eq_none_iff :
    store.find? location = none
      ↔ ∀ u ∈ store.units, Location.canonical u.location ≠ location := by
  obtain ⟨units⟩ := store
  induction units using List.reverseRecOn with
  | nil => simp [find?, sources]
  | append_singleton units u ih =>
    rw [find?_concat]
    by_cases hlocation : Location.canonical u.location = location
    · simp [hlocation]
    · simpa [hlocation, or_imp, forall_and] using ih

/-- A store finds a source at the location that the import refers to. -/
theorem resolve_eq_found_iff :
    store.resolve current path = .found unit
      ↔ unit.location = Location.join current path
        ∧ store.find? (Location.join current path) = some unit.source := by
  obtain ⟨location, source⟩ := unit
  unfold resolve
  dsimp only
  cases store.find? (Location.join current path) with
  | none => simp
  | some found => simp [eq_comm]

/-- A store knows no import that refers to a location without a source. -/
theorem resolve_eq_absent_iff :
    store.resolve current path = .absent ↔ store.find? (Location.join current path) = none := by
  unfold resolve
  dsimp only
  cases store.find? (Location.join current path) <;> simp

/-- **A store finds or does not find**, and does nothing else. -/
theorem exists_found_or_absent (store : SourceStore) (current path : Location) :
    (∃ unit, store.resolve current path = .found unit) ∨ store.resolve current path = .absent := by
  cases hfind : store.find? (Location.join current path) with
  | none => exact .inr (resolve_eq_absent_iff.2 hfind)
  | some source => exact .inl ⟨⟨_, source⟩, resolve_eq_found_iff.2 ⟨rfl, hfind⟩⟩

/-- The answer of a store depends on the location that the import refers to, and on nothing else. -/
theorem resolve_eq_of_join_eq {other next : Location}
    (h : Location.join other next = Location.join current path) :
    store.resolve other next = store.resolve current path := by
  unfold resolve
  rw [h]

/-- **The last source wins.** An import is answered with the location it refers to and the source
that was added last under any spelling of that, and with nothing if there is none. The location is
canonical, and it can be imported itself from any file, with the same answer, unless it starts with
`../` and so is relative. -/
theorem resolve_lastWins (store : SourceStore) (current path : Location) :
    (∀ unit, store.resolve current path = .found unit
        ↔ unit.location = Location.join current path ∧ store.LastAt unit.location unit.source)
      ∧ (store.resolve current path = .absent
        ↔ ∀ u ∈ store.units, Location.canonical u.location ≠ Location.join current path)
      ∧ Location.canonical (Location.join current path) = Location.join current path
      ∧ (Location.isRelative (Location.join current path).toList = true
        ↔ ['.', '.', '/'] <+: (Location.join current path).toList)
      ∧ (¬ ['.', '.', '/'] <+: (Location.join current path).toList →
          ∀ other, store.resolve other (Location.join current path)
            = store.resolve current path) := by
  have hcanonical := Location.isCanonical_join current path
  have hself := (Location.spells_self hcanonical).2
  refine ⟨fun unit => ?_, ?_, hself, hcanonical.isRelative_iff, fun hparent other => ?_⟩
  · rw [resolve_eq_found_iff, ← find?_eq_some_iff]
    refine and_congr_right fun hlocation => ?_
    rw [hlocation]
  · rw [resolve_eq_absent_iff, find?_eq_none_iff]
  · refine resolve_eq_of_join_eq ?_
    have hrelative : Location.isRelative (Location.join current path).toList = false := by
      rw [← Bool.not_eq_true, hcanonical.isRelative_iff]
      exact hparent
    rw [Location.join_of_not_isRelative hrelative, hself]

/-- A source that was added twice, under two spellings of its location. -/
def twiceAdded : SourceStore :=
  ⟨[⟨"lib/math.zok", "old"⟩, ⟨"main", "import \"./lib/math\";"⟩, ⟨"./lib//sub/../math", "new"⟩]⟩

/-- **The later one is found**, from beside it and by its own location. -/
theorem resolve_lastWins_twiceAdded :
    twiceAdded.resolve "lib/main.zok" "./math" = .found ⟨"lib/math.zok", "new"⟩
      ∧ ¬ ['.', '.', '/'] <+: "lib/math.zok".toList
      ∧ twiceAdded.resolve "any/other/file" "lib/math.zok" = .found ⟨"lib/math.zok", "new"⟩ := by
  have hjoin : Location.join "lib/main.zok" "./math" = "lib/math.zok" := by decide
  have hparent : ¬ ['.', '.', '/'] <+: "lib/math.zok".toList := by decide
  obtain ⟨hfound, -, -, -, hown⟩ := resolve_lastWins twiceAdded "lib/main.zok" "./math"
  have hlast : twiceAdded.LastAt "lib/math.zok" "new" :=
    ⟨[⟨"lib/math.zok", "old"⟩, ⟨"main", "import \"./lib/math\";"⟩],
      ⟨"./lib//sub/../math", "new"⟩, [], rfl, by decide, rfl, nofun⟩
  have hbeside := (hfound ⟨"lib/math.zok", "new"⟩).2 ⟨hjoin.symm, hlast⟩
  rw [hjoin] at hown
  exact ⟨hbeside, hparent, (hown hparent "any/other/file").trans hbeside⟩

/-! ## Chains of imports -/

/-- **A chain of imports**: each path is imported by the source that the one before it led to, whose
location may be spelled in any way. The chain ends where an import is unknown. -/
inductive Chain (store : SourceStore) : Location → List String → List SourceUnit → Prop
  | done {current : Location} : Chain store current [] []
  | lost {current : Location} {path : String} {paths : List String}
      (habsent : store.resolve current path = .absent) : Chain store current (path :: paths) []
  | found {current spelling : Location} {path : String} {paths : List String} {unit : SourceUnit}
      {units : List SourceUnit} (hfound : store.resolve current path = .found unit)
      (hspells : Location.Spells spelling unit.location) (h : Chain store spelling paths units) :
      Chain store current (path :: paths) (unit :: units)

/-- **The sources along a chain of imports**, each path being imported from the location that the
answer before it gave. -/
def along (store : SourceStore) : Location → List String → List SourceUnit
  | _, [] => []
  | current, path :: paths =>
    match store.resolve current path with
    | .found unit => unit :: store.along unit.location paths
    | _ => []

theorem along_of_found {paths : List String} (h : store.resolve current path = .found unit) :
    store.along current (path :: paths) = unit :: store.along unit.location paths := by
  rw [along, h]

theorem along_of_absent {paths : List String} (h : store.resolve current path = .absent) :
    store.along current (path :: paths) = [] := by
  rw [along, h]

/-- The location of an answer is a spelling of itself. -/
theorem spells_of_found (h : store.resolve current path = .found unit) :
    Location.Spells unit.location unit.location := by
  rw [(resolve_eq_found_iff.1 h).1]
  exact Location.spells_self (Location.isCanonical_join current path)

/-- **Every chain leads to the same sources**, whichever spellings are used on the way. -/
theorem chain_iff {spelling : Location} (h : Location.Spells spelling location)
    {paths : List String} {units : List SourceUnit} :
    store.Chain spelling paths units ↔ units = store.along location paths := by
  induction paths generalizing spelling location units with
  | nil =>
    constructor
    · rintro ⟨⟩
      rfl
    · rintro rfl
      exact .done
  | cons path paths ih =>
    have hsame : store.resolve spelling path = store.resolve location path :=
      resolve_eq_of_join_eq (h.join_eq path)
    constructor
    · intro hchain
      cases hchain with
      | lost habsent => exact (along_of_absent (hsame ▸ habsent)).symm
      | found hfound hspells hrest =>
        rw [along_of_found (hsame ▸ hfound), (ih hspells).1 hrest]
    · rintro rfl
      rcases store.exists_found_or_absent location path with ⟨unit, hfound⟩ | habsent
      · have hspells := spells_of_found hfound
        rw [along_of_found hfound]
        exact .found (hsame.trans hfound) hspells ((ih hspells).2 rfl)
      · rw [along_of_absent habsent]
        exact .lost (hsame.trans habsent)

/-- **The spelling of an importing file makes no difference.** From a location that ends in a name,
an import leads to where it leads from the canonical spelling, and so to one location from all
spellings of the file. What a path reads as from the root is a spelling of the location it leads to,
if it ends in a name itself; and along a chain of imports each answer's location can stand for the
file it was given for, since the chain leads to the same sources under any spellings. -/
theorem imports_respelled (h : Location.EndsInName current.toList) :
    (∀ path, Location.join current path = Location.join (Location.canonical current) path)
      ∧ (∀ other path, Location.EndsInName other.toList →
          Location.canonical other = Location.canonical current →
          Location.join other path = Location.join current path)
      ∧ (∀ path : Location, Location.EndsInName path.toList →
          Location.Spells (String.ofList (Location.beside current.toList path.toList))
            (Location.join current path))
      ∧ ∀ (store : SourceStore) (paths : List String) (units : List SourceUnit),
          store.Chain current paths units
            ↔ units = store.along (Location.canonical current) paths := by
  have hspells : Location.Spells current (Location.canonical current) := ⟨h, rfl⟩
  refine ⟨hspells.join_eq, fun other path hother heq => ?_,
    fun path hpath => Location.spells_beside hpath current, fun store paths units => ?_⟩
  · have hother : Location.Spells other (Location.canonical current) := ⟨hother, heq⟩
    rw [hother.join_eq, hspells.join_eq]
  · exact chain_iff hspells

/-- Two sources in two directories. -/
def twoDirectories : SourceStore :=
  ⟨[⟨"src/lib", "import \"../util\";"⟩, ⟨"util.zok", "def one() -> field { return 1; }"⟩]⟩

/-- **Two imports in a row**, from a file whose location is not spelled canonically. -/
theorem imports_respelled_twoDirectories :
    Location.EndsInName "src//./main".toList
      ∧ Location.join "src//./main" "./lib" = Location.join "src/main.zok" "./lib"
      ∧ Location.Spells "src//././lib" "src/lib.zok"
      ∧ twoDirectories.Chain "src//./main" ["./lib", "../util", "./none"]
          [⟨"src/lib.zok", "import \"../util\";"⟩,
            ⟨"util.zok", "def one() -> field { return 1; }"⟩] := by
  have hname : Location.EndsInName "src//./main".toList := by decide
  obtain ⟨hjoin, -, hbeside, hchain⟩ := imports_respelled hname
  have hcanonical : Location.canonical "src//./main" = "src/main.zok" := by decide
  rw [hcanonical] at hjoin hchain
  refine ⟨hname, hjoin "./lib", ?_, (hchain _ _ _).2 (by decide)⟩
  have hread := hbeside "./lib" (by decide)
  have htext : String.ofList (Location.beside "src//./main".toList "./lib".toList)
      = "src//././lib" := by decide
  have hleads : Location.join "src//./main" "./lib" = "src/lib.zok" := by decide
  rwa [htext, hleads] at hread

end SourceStore

end ProofToolchain
