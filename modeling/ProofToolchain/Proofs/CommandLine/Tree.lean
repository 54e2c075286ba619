import Mathlib
import ProofToolchain.Proofs.CommandLine.Sources
import ProofToolchain.Proofs.Entries
import ProofToolchain.Proofs.Location

/-!
# The tree that was written

Two things make the files of a tree a faithful copy of what the sources import.

The first is that they are the right files (`SourceTree.files_of_writing`): locations and files
correspond to each other, the root's file comes from the caller's source, and each other file comes
from what was first returned for its location. Each is written once, it differs from its source in
nothing but paths that were replaced, and no such path leads to a file that is not there.

The second is that they say what was meant (`SourceTree.imports_of_writing`): the compiler finds in
a file the imports that were in the source, in the same order, each leading to the file of the
location that the resolver named or, where it knew of none, staying as it was.
-/

namespace ProofToolchain.CommandLine.SourceTree

/-! ## The names of files -/

/-- The path that imports the file of a number from another file of the tree. -/
def pathTo (number : Nat) : String := "./" ++ stem number

@[simp] theorem toList_stem (k : Nat) : (stem k).toList = "src_".toList ++ Text.decimal k :=
  String.toList_ofList

/-- Different numbers make different names. -/
theorem stem_injective : Function.Injective stem := by
  intro j k h
  have h := congrArg String.toList h
  rw [toList_stem, toList_stem, List.append_right_inj] at h
  exact Text.decimal_inj h

theorem fileName_injective : Function.Injective fileName := by
  intro j k h
  refine stem_injective (String.toList_injective ?_)
  have h := congrArg String.toList h
  rwa [fileName, fileName, withExtension, withExtension, String.toList_append,
    String.toList_append, List.append_left_inj] at h

/-- A name has letters, digits and an underscore in it. -/
theorem isWordChar_of_mem_stem {k : Nat} {c : Char} (h : c ∈ (stem k).toList) :
    Import.isWordChar c = true := by
  rw [toList_stem, List.mem_append] at h
  -- what comes first is the same for all numbers, and the rest are digits
  rcases h with h | h
  · have hall : "src_".toList.all Import.isWordChar = true := by decide
    exact List.all_eq_true.1 hall c h
  · simp [Import.isWordChar, Char.isAlphanum, Text.isDigit_of_mem_decimal h]

theorem toList_fileName (k : Nat) :
    (fileName k).toList = (stem k).toList ++ ['.', 'z', 'o', 'k'] :=
  String.toList_append

theorem stem_ne_nil (k : Nat) : (stem k).toList ≠ [] := by
  rw [toList_stem]
  exact List.append_ne_nil_of_left_ne_nil (by decide) _

theorem dot_not_mem_stem (k : Nat) : '.' ∉ (stem k).toList :=
  fun h => absurd (isWordChar_of_mem_stem h) (by decide)

theorem slash_not_mem_stem (k : Nat) : '/' ∉ (stem k).toList :=
  fun h => absurd (isWordChar_of_mem_stem h) (by decide)

/-- **Any path in a file of the tree is read from the one directory** that all of them are in. -/
theorem join_fileName (k : Nat) (path : Location) :
    Location.join (fileName k) path = Location.canonical path := by
  have hslash : ∀ c ∈ (fileName k).toList, (c == '/') = false := by
    intro c hc
    rw [toList_fileName, List.mem_append] at hc
    rw [beq_eq_false_iff_ne]
    rintro rfl
    exact hc.elim (slash_not_mem_stem k) (by decide)
  have hdir : Location.directory? (fileName k).toList = none := by
    rw [Location.directory?, Location.segments, Text.split_of_forall_neg hslash]
    rfl
  rw [Location.join, Location.joinChars_of_directory?_eq_none hdir]
  rfl

/-- **The path of a file leads to that file**, from any other. -/
theorem canonical_pathTo (k : Nat) : Location.canonical (pathTo k) = fileName k := by
  refine String.toList_injective ?_
  rw [Location.toList_canonical, toList_fileName, pathTo, String.toList_append]
  exact Location.canonicalChars_of_name (stem_ne_nil k) (dot_not_mem_stem k) (slash_not_mem_stem k)

/-- The path of a file can stand between quotes as it is. -/
theorem isClean_pathTo (k : Nat) : Import.IsClean (pathTo k).toList := by
  intro c hc
  rw [pathTo, String.toList_append, List.mem_append] at hc
  rcases hc with hc | hc
  · have hall : "./".toList.all (fun c => c != '"' && c != '\\') = true := by decide
    simpa using List.all_eq_true.1 hall c hc
  · have hword := isWordChar_of_mem_stem hc
    constructor <;> rintro rfl <;> exact absurd hword (by decide)

/-! ## The sources of a tree -/

/-- **A source that the tree was written for**: the root, or what was first returned for another
location. -/
def IsEntered (root : SourceUnit) (exchanges : List Exchange) (unit : SourceUnit) : Prop :=
  unit = root
    ∨ unit.location ≠ root.location ∧ firstFound? exchanges unit.location = some unit

section Written

variable {host : Host} {r : Resolver} {root : SourceUnit} {outcome : String} {w : Writing}

variable {units : List SourceUnit}
  (hleads : r.Leads tolerance [] [root] root.queries w.asked units)

include hleads in
/-- The sources of the walk are those that the tree was written for. -/
theorem isEntered_iff {unit : SourceUnit} :
    IsEntered root (r.exchanges w.asked) unit ↔ unit ∈ units := by
  constructor
  · rintro (rfl | ⟨hother, hfirst⟩)
    · exact List.mem_of_getElem? hleads.head_units
    · -- what stands at the location is the first source returned for it too
      obtain ⟨-, e, he, hfound⟩ := exists_of_firstFound? hfirst
      obtain ⟨unit', hunit', hlocation⟩ := SourceUnit.anyAt_iff.1
        (hleads.mem_visited_iff.1 (.inr ⟨e, he, unit, hfound, rfl⟩))
      rcases hleads.eq_root_or_first hunit' with rfl | ⟨-, hfirst'⟩
      · exact absurd hlocation.symm hother
      · rw [hlocation, hfirst] at hfirst'
        rwa [Option.some.inj hfirst']
  · exact fun hunit => hleads.eq_root_or_first hunit

/-- Where locations are not repeated, the number of a location is the place of its source. -/
theorem number?_eq_some_iff (h : (units.map (·.location)).Nodup) {location : Location} {k : Nat} :
    number? units location = some k ↔ ∃ unit, units[k]? = some unit ∧ unit.location = location := by
  rw [number?, List.findIdx?_eq_some_iff_getElem]
  constructor
  · rintro ⟨hk, hat, -⟩
    exact ⟨units[k], List.getElem?_eq_getElem hk, by simpa using hat⟩
  · rintro ⟨unit, hunit, rfl⟩
    obtain ⟨hk, rfl⟩ := List.getElem?_eq_some_iff.1 hunit
    refine ⟨hk, by simp, fun j hj hat => ?_⟩
    -- two places with one location are one place
    have hj' : j < (units.map (·.location)).length := by
      rw [List.length_map]
      exact Nat.lt_trans hj hk
    have hjk : (units.map (·.location))[j]? = (units.map (·.location))[k]? := by
      rw [List.getElem?_map, List.getElem?_map, List.getElem?_eq_getElem (Nat.lt_trans hj hk),
        List.getElem?_eq_getElem hk]
      simpa using hat
    exact absurd ((List.getElem?_inj hj' h).1 hjk) (Nat.ne_of_lt hj)

variable (progress : Progress r [] {} units w)

include progress in
/-- The names of the files are those of the first numbers. -/
theorem perm_map_fst_saved :
    (w.saved.map Prod.fst).Perm ((List.range units.length).map fileName) := by
  obtain ⟨files, hsaved, hnames, -⟩ := progress.saved
  rw [hsaved, List.nil_append, List.range_eq_range']
  exact hnames

include progress in
/-- There are as many files as sources. -/
theorem length_saved : w.saved.length = units.length := by
  simpa using (perm_map_fst_saved progress).length_eq

include progress in
/-- **No file is written twice.** -/
theorem nodup_map_fst_saved : (w.saved.map Prod.fst).Nodup :=
  (perm_map_fst_saved progress).nodup_iff.2 (List.Nodup.map fileName_injective List.nodup_range)

include progress in
/-- A name is that of a file exactly if its number is that of a source. -/
theorem fileName_mem_iff {k : Nat} :
    fileName k ∈ w.saved.map Prod.fst ↔ k < w.saved.length := by
  rw [(perm_map_fst_saved progress).mem_iff, length_saved progress,
    List.mem_map_of_injective fileName_injective, List.mem_range]

include hleads progress

/-- The stem of a location is that of the place of its source. -/
theorem get?_stems_iff {location : Location} {s : String} :
    w.stems.get? location = some s
      ↔ ∃ k unit, units[k]? = some unit ∧ unit.location = location ∧ s = stem k := by
  rw [progress.tracks.stem_eq, Option.map_eq_some_iff]
  have hnodup := hleads.nodup_locations (List.nodup_singleton root.location)
  simp only [number?_eq_some_iff hnodup]
  constructor
  · rintro ⟨k, ⟨unit, hunit, hlocation⟩, rfl⟩
    exact ⟨k, unit, hunit, hlocation, rfl⟩
  · rintro ⟨k, unit, hunit, hlocation, rfl⟩
    exact ⟨k, ⟨unit, hunit, hlocation⟩, rfl⟩

/-- A stem that was given is that of a file. -/
theorem exists_of_get?_stems {location : Location} {s : String}
    (h : w.stems.get? location = some s) : ∃ k < w.saved.length, s = stem k := by
  obtain ⟨k, unit, hunit, -, rfl⟩ := (get?_stems_iff hleads progress).1 h
  exact ⟨k, length_saved progress ▸ (List.getElem?_eq_some_iff.1 hunit).1, rfl⟩

/-- **Stems tell the locations apart.** -/
theorem bijOn_stems :
    Set.BijOn (fun location => w.stems.get? location) (visited root (r.exchanges w.asked))
      {s | ∃ k < w.saved.length, s = some (stem k)} := by
  have hstem : ∀ location ∈ visited root (r.exchanges w.asked),
      ∃ k unit, units[k]? = some unit ∧ unit.location = location
        ∧ w.stems.get? location = some (stem k) := by
    intro location hvisited
    obtain ⟨unit, hunit, hlocation⟩ := SourceUnit.anyAt_iff.1 (hleads.mem_visited_iff.1 hvisited)
    obtain ⟨k, hk⟩ := List.mem_iff_getElem?.1 hunit
    exact ⟨k, unit, hk, hlocation, (get?_stems_iff hleads progress).2 ⟨k, unit, hk, hlocation, rfl⟩⟩
  refine ⟨?_, ?_, ?_⟩
  · intro location hvisited
    obtain ⟨k, unit, hunit, -, hget⟩ := hstem location hvisited
    exact ⟨k, length_saved progress ▸ (List.getElem?_eq_some_iff.1 hunit).1, hget⟩
  · intro a ha b hb hab
    obtain ⟨j, u, hu, rfl, hj⟩ := hstem a ha
    obtain ⟨k, v, hv, rfl, hk⟩ := hstem b hb
    obtain rfl : j = k := stem_injective (Option.some.inj (hj.symm.trans (hab.trans hk)))
    rw [Option.some.inj (hu.symm.trans hv)]
  · -- a number below the number of files is that of the location its source stands at
    rintro s ⟨k, hk, rfl⟩
    have hlt : k < units.length := length_saved progress ▸ hk
    have hunit : units[k]? = some units[k] := List.getElem?_eq_getElem hlt
    refine ⟨_,
      hleads.mem_visited_iff.2 (SourceUnit.anyAt_iff.2 ⟨_, List.mem_of_getElem? hunit, rfl⟩),
      (get?_stems_iff hleads progress).2 ⟨k, _, hunit, rfl, rfl⟩⟩

/-- **A file is a copy of its source**, the root's having the first name. -/
theorem isCopy_of_mem_saved {file : String × Bytes} (h : file ∈ w.saved) :
    ∃ k unit, file.1 = fileName k ∧ w.stems.get? unit.location = some (stem k)
      ∧ (k = 0 ↔ unit = root) ∧ IsEntered root (r.exchanges w.asked) unit
      ∧ IsCopy (r.exchanges w.asked) w.stems unit file.2 := by
  obtain ⟨files, hsaved, -, hfiles⟩ := progress.saved
  obtain ⟨k, unit, hunit, hname, hcopy⟩ := hfiles file (by simpa [hsaved] using h)
  refine ⟨k, unit, hname, (get?_stems_iff hleads progress).2 ⟨k, unit, hunit, rfl, rfl⟩, ?_,
    (isEntered_iff hleads).2 (List.mem_of_getElem? hunit), hcopy⟩
  constructor
  · rintro rfl
    exact Option.some.inj (hunit.symm.trans hleads.head_units)
  · rintro rfl
    -- the root is in one place only
    have hnodup := hleads.nodup_locations (List.nodup_singleton unit.location)
    have hk := (number?_eq_some_iff hnodup).2 ⟨unit, hunit, rfl⟩
    have hzero := (number?_eq_some_iff hnodup).2 ⟨unit, hleads.head_units, rfl⟩
    exact Option.some.inj (hk.symm.trans hzero)

/-- **What stands for an import** is the path of a file of the tree, which leads to that file from
any other. -/
theorem exists_of_stands {location : Location} {i : Import} {target : String}
    (h : Stands (r.exchanges w.asked) w.stems location i (some target)) :
    ∃ unit k, ⟨⟨location, i.path⟩, .found unit⟩ ∈ r.exchanges w.asked
      ∧ w.stems.get? unit.location = some (stem k) ∧ target = "./" ++ stem k
      ∧ fileName k ∈ w.saved.map Prod.fst
      ∧ ∀ n, Location.join (fileName n) target = fileName k := by
  cases h with
  | found hsaid hstem =>
    obtain ⟨k, hk, rfl⟩ := exists_of_get?_stems hleads progress hstem
    refine ⟨_, k, hsaid, hstem, rfl, (fileName_mem_iff progress).2 hk, fun n => ?_⟩
    rw [join_fileName]
    exact canonical_pathTo k

end Written

/-- A root that imports one source known to the resolver and one that is not. -/
def cyclicRoot : SourceUnit := ⟨"main", "import \"lib\"; // \"\nfrom \"é\\\"\";"⟩

/-- A source that imports the root. -/
def cyclicLib : SourceUnit := ⟨"lib", "import \"main\";"⟩

/-- A lookup with a cycle, and with a source of its own at the location of the root. -/
def cyclic : Lookup where
  resolve _ path :=
    if path = "lib" then .found cyclicLib
    else if path = "main" then .found ⟨"main", "import \"elsewhere\";"⟩
    else .absent
  reach := 2

/-- The tree of a cycle, written. -/
def cyclicTree : Writing := ((writeRoot bareHost cyclic.resolver cyclicRoot).run {}).2

theorem run_writeRoot_cyclic :
    (writeRoot bareHost cyclic.resolver cyclicRoot).run {} = (.ok (stem 0), cyclicTree) := by
  cbv

/-- **Locations and files correspond to each other**, however the imports are tangled, and whatever
the resolver remembers. The root has the first file, made from the caller's source, and every other
location that is visited has one file, made from the source that was first returned for it. Each
file is written once. Its bytes are those of its source, but for paths that were replaced, and a
path that was put there leads to one of the files from any other. -/
theorem files_of_writing (host : Host) (r : Resolver) (root : SourceUnit) (outcome : String)
    (w : Writing) (h : (writeRoot host r root).run {} = (.ok outcome, w)) :
    Set.BijOn (fun location => w.stems.get? location) (visited root (r.exchanges w.asked))
        {s | ∃ k < w.saved.length, s = some (stem k)}
      ∧ outcome = stem 0 ∧ w.stems.get? root.location = some (stem 0)
      ∧ (w.saved.map Prod.fst).Perm ((List.range w.saved.length).map fileName)
      ∧ (w.saved.map Prod.fst).Nodup
      ∧ (∀ file ∈ w.saved, ∃ k unit, file.1 = fileName k
          ∧ w.stems.get? unit.location = some (stem k)
          ∧ (k = 0 ∧ unit = root
            ∨ k ≠ 0 ∧ unit.location ≠ root.location
              ∧ firstFound? (r.exchanges w.asked) unit.location = some unit)
          ∧ ∃ changes, changes.map Prod.fst = Import.scan unit.source
            ∧ file.2 = Import.spliced (Text.Utf8.encode unit.source) 0 changes
            ∧ ∀ c ∈ changes,
              (⟨⟨unit.location, c.1.path⟩, .absent⟩ ∈ r.exchanges w.asked ∧ c.2 = none)
                ∨ ∃ target j, ⟨⟨unit.location, c.1.path⟩, .found target⟩ ∈ r.exchanges w.asked
                  ∧ w.stems.get? target.location = some (stem j)
                  ∧ c.2 = some ("./" ++ stem j)
                  ∧ fileName j ∈ w.saved.map Prod.fst
                  ∧ ∀ n, Location.join (fileName n) ("./" ++ stem j) = fileName j)
      ∧ ∀ name content, Entries.get? name (Entries.setAll [] w.saved) = some content
          ↔ (name, content) ∈ w.saved := by
  obtain ⟨units, rfl, hleads, progress⟩ := exists_units h
  have hroot : w.stems.get? root.location = some (stem 0) :=
    (get?_stems_iff hleads progress).2 ⟨0, root, hleads.head_units, rfl, rfl⟩
  refine ⟨bijOn_stems hleads progress, rfl, hroot, ?_, nodup_map_fst_saved progress,
    fun file hfile => ?_, fun name content => ?_⟩
  · rw [length_saved progress]
    exact perm_map_fst_saved progress
  · obtain ⟨k, unit, hname, hstem, hzero, hentered, changes, hscan, hstands, hcontent⟩ :=
      isCopy_of_mem_saved hleads progress hfile
    refine ⟨k, unit, hname, hstem, ?_, changes, hscan, hcontent, fun c hc => ?_⟩
    · rcases hentered with heq | ⟨hother, hfirst⟩
      · exact .inl ⟨hzero.2 heq, heq⟩
      · have hne : unit ≠ root := fun heq => hother (congrArg SourceUnit.location heq)
        exact .inr ⟨fun hk => hne (hzero.1 hk), hother, hfirst⟩
    · obtain ⟨i, target?⟩ := c
      have hc := hstands _ hc
      cases target? with
      | none =>
        cases hc with
        | absent hsaid => exact .inl ⟨hsaid, rfl⟩
      | some target =>
        obtain ⟨found, j, hsaid, hj, rfl, hmem, hjoin⟩ := exists_of_stands hleads progress hc
        exact .inr ⟨found, j, hsaid, hj, rfl, hmem, hjoin⟩
  · rw [Entries.get?_setAll (nodup_map_fst_saved progress)]
    simp

/-- Two sources that import each other have two files. The root's is made from the caller's source,
although the resolver has another one for its location. -/
theorem files_of_writing_cyclic :
    (writeRoot bareHost cyclic.resolver cyclicRoot).run {} = (.ok (stem 0), cyclicTree)
      ∧ cyclicTree.stems.get? "main" = some (stem 0)
      ∧ (cyclicTree.saved.map Prod.fst).Perm [fileName 0, fileName 1]
      ∧ ∀ unit, IsEntered cyclicRoot (cyclic.resolver.exchanges cyclicTree.asked) unit →
        unit.location = "main" → unit = cyclicRoot := by
  obtain ⟨-, -, hroot, hnames, -⟩ :=
    files_of_writing bareHost cyclic.resolver cyclicRoot _ _ run_writeRoot_cyclic
  have hlength : cyclicTree.saved.length = 2 := by cbv
  rw [hlength] at hnames
  refine ⟨run_writeRoot_cyclic, hroot, hnames, ?_⟩
  rintro unit (heq | ⟨hother, -⟩) hlocation
  · exact heq
  · exact absurd hlocation hother

/-! ## What the compiler finds -/

/-- The path that stands for an import where a lookup finds a source. -/
def target? (l : Lookup) (stems : Entries String) (location : Location) (path : String) :
    Option String :=
  match l.resolve location path with
  | .found unit => (stems.get? unit.location).map ("./" ++ ·)
  | _ => none

section OfLookup

variable {host : Host} {l : Lookup} {root unit : SourceUnit} {w : Writing} {asked : List Query}
  {stems : Entries String} {location : Location} {path : String} {target : SourceUnit}

theorem target?_of_absent (h : l.resolve location path = .absent) :
    target? l stems location path = none := by
  rw [target?, h]

theorem target?_of_found {s : String} (h : l.resolve location path = .found target)
    (hstem : stems.get? target.location = some s) :
    target? l stems location path = some ("./" ++ s) := by
  simp [target?, h, hstem]

/-- A lookup says one thing for an import, so one thing stands for it. -/
theorem Stands.eq_target? {i : Import} {t : Option String}
    (h : Stands (l.resolver.exchanges asked) stems location i t) :
    t = target? l stems location i.path := by
  have hsaid : ∀ answer, ⟨⟨location, i.path⟩, answer⟩ ∈ l.resolver.exchanges asked →
      l.resolve location i.path = answer := by
    intro answer hmem
    rw [Lookup.exchanges_resolver, List.mem_map] at hmem
    obtain ⟨q, -, heq⟩ := hmem
    cases heq
    rfl
  cases h with
  | found hfound hstem => rw [target?_of_found (hsaid _ hfound) hstem]
  | absent habsent => rw [target?_of_absent (hsaid _ habsent)]

/-- **A copy is the source with its paths replaced.** -/
theorem IsCopy.eq_retarget {content : Bytes}
    (h : IsCopy (l.resolver.exchanges asked) stems unit content) :
    content
      = Text.Utf8.encode (Import.retarget (target? l stems unit.location) unit.source) := by
  obtain ⟨changes, hscan, hstands, hcontent⟩ := h
  have hchanges : changes = (Import.scan unit.source).map fun i =>
      (i, target? l stems unit.location i.path) := by
    rw [← hscan, List.map_map]
    refine (List.map_id changes).symm.trans (List.map_congr_left fun c hc => ?_)
    exact Prod.ext rfl (hstands c hc).eq_target?
  rw [hcontent, hchanges, Import.encode_retarget]

end OfLookup

section Found

variable {host : Host} {l : Lookup} {root unit : SourceUnit} {w : Writing}
  {units : List SourceUnit}
  (hleads : l.resolver.Leads tolerance [] [root] root.queries w.asked units)
  (progress : Progress l.resolver [] {} units w)
include hleads

/-- **An import of a source of the tree** leads to a source that has a stem, or the lookup knows of
none. -/
theorem answer_of_leads (hunit : unit ∈ units) {i : Import} (hi : i ∈ Import.scan unit.source) :
    (∃ target, l.resolve unit.location i.path = .found target
        ∧ SourceUnit.anyAt units target.location = true)
      ∨ l.resolve unit.location i.path = .absent := by
  have hq : (⟨unit.location, i.path⟩ : Query) ∈ w.asked :=
    hleads.mem_asked hunit (List.mem_map.2 ⟨i, hi, rfl⟩)
  have he : ⟨⟨unit.location, i.path⟩, l.answer ⟨unit.location, i.path⟩⟩
      ∈ l.resolver.exchangesAfter [] w.asked := by
    rw [Lookup.exchangesAfter_resolver]
    exact List.mem_map_of_mem hq
  rcases hleads.answer_asked _ he with ⟨target, hfound, hat⟩ | hpass
  · exact .inl ⟨target, hfound, hat⟩
  · -- a tree goes on after nothing but an unknown import
    refine .inr ?_
    show l.answer ⟨unit.location, i.path⟩ = _
    cases hanswer : l.answer ⟨unit.location, i.path⟩ with
    | absent => rfl
    | found _ | raised _ | crashed => simp [hanswer, Tolerance.passes, tolerance] at hpass

include progress

/-- The paths that are put into a file can stand between quotes as they are. -/
theorem isClean_of_target? {path target : String}
    (h : target? l w.stems unit.location path = some target) : Import.IsClean target.toList := by
  unfold target? at h
  split at h
  · obtain ⟨s, hs, rfl⟩ := Option.map_eq_some_iff.1 h
    obtain ⟨k, -, rfl⟩ := exists_of_get?_stems hleads progress hs
    exact isClean_pathTo k
  · cases h

/-- **The imports of a file**: those of its source in the same places, each with the path that
stands for it. -/
theorem getElem?_scan_retarget (unit : SourceUnit) (i : Nat) :
    ((Import.scan (Import.retarget (target? l w.stems unit.location) unit.source))[i]?).map (·.path)
      = ((Import.scan unit.source)[i]?).map fun old =>
          (target? l w.stems unit.location old.path).getD old.path := by
  have hpaths := Import.map_path_scan_retarget (t := target? l w.stems unit.location)
    (fun path target h => isClean_of_target? hleads progress h) unit.source
  simpa only [List.getElem?_map] using congrArg (·[i]?) hpaths

/-- An import of a file stands where an import of its source does, for what the lookup found or as
it was. -/
theorem exists_of_getElem?_scan (hunit : unit ∈ units) {i : Nat} {new : Import}
    (hnew : (Import.scan (Import.retarget (target? l w.stems unit.location) unit.source))[i]?
      = some new) :
    ∃ old, (Import.scan unit.source)[i]? = some old
      ∧ ((∃ target k, l.resolve unit.location old.path = .found target
            ∧ w.stems.get? target.location = some (stem k) ∧ new.path = "./" ++ stem k)
          ∨ l.resolve unit.location old.path = .absent ∧ new.path = old.path) := by
  have hi := getElem?_scan_retarget hleads progress unit i
  rw [hnew, Option.map_some] at hi
  obtain ⟨old, hold, hpath⟩ := Option.map_eq_some_iff.1 hi.symm
  refine ⟨old, hold, ?_⟩
  rcases answer_of_leads hleads hunit (List.mem_of_getElem? hold) with
    ⟨target, hfound, hat⟩ | habsent
  · obtain ⟨found, hmem, hlocation⟩ := SourceUnit.anyAt_iff.1 hat
    obtain ⟨k, hk⟩ := List.mem_iff_getElem?.1 hmem
    have hstem := (get?_stems_iff hleads progress).2 ⟨k, found, hk, hlocation, rfl⟩
    rw [target?_of_found hfound hstem] at hpath
    exact .inl ⟨target, k, hfound, hstem, hpath.symm⟩
  · rw [target?_of_absent habsent] at hpath
    exact .inr ⟨habsent, hpath.symm⟩

/-- Sources of the tree with one stem are one source. -/
theorem eq_of_stems_eq {unit' : SourceUnit} (hunit : unit ∈ units) (hunit' : unit' ∈ units)
    {s : String} (h : w.stems.get? unit.location = some s)
    (h' : w.stems.get? unit'.location = some s) : unit = unit' := by
  obtain ⟨j, u, hu, hlocation, rfl⟩ := (get?_stems_iff hleads progress).1 h
  obtain ⟨k, u', hu', hlocation', hjk⟩ := (get?_stems_iff hleads progress).1 h'
  obtain rfl : j = k := stem_injective hjk
  obtain rfl : u = u' := Option.some.inj (hu.symm.trans hu')
  have hnodup := hleads.nodup_locations (List.nodup_singleton root.location)
  exact List.inj_on_of_nodup_map hnodup hunit hunit' (hlocation.symm.trans hlocation')

/-- **The file of a source** is the source with its paths replaced. -/
theorem mem_saved_iff (hunit : unit ∈ units) {k : Nat}
    (hstem : w.stems.get? unit.location = some (stem k)) {content : Bytes} :
    (fileName k, content) ∈ w.saved ↔ content
      = Text.Utf8.encode (Import.retarget (target? l w.stems unit.location) unit.source) := by
  have hcontent : ∀ {content}, (fileName k, content) ∈ w.saved → content
      = Text.Utf8.encode (Import.retarget (target? l w.stems unit.location) unit.source) := by
    intro content hmem
    obtain ⟨j, unit', hname, hstem', -, hentered, hcopy⟩ :=
      isCopy_of_mem_saved hleads progress hmem
    obtain rfl : k = j := fileName_injective hname
    rw [eq_of_stems_eq hleads progress hunit ((isEntered_iff hleads).1 hentered) hstem hstem']
    exact hcopy.eq_retarget
  refine ⟨hcontent, fun heq => ?_⟩
  -- there is a file with that name, so it is the one
  obtain ⟨j, hj, hjk⟩ := exists_of_get?_stems hleads progress hstem
  obtain rfl : k = j := stem_injective hjk
  obtain ⟨file, hfile, hname⟩ := List.mem_map.1 ((fileName_mem_iff progress).2 hj)
  have hmem : (fileName k, file.2) ∈ w.saved := hname ▸ hfile
  rwa [heq, ← hcontent hmem]

end Found

/-- **The compiler finds the imports that were meant.** Each file is made from the root or from what
was first returned for its location, and it has as many imports as that source, in the same order.
Each import has the path of the file for the location that the resolver named or, where the resolver
knew of none, the path it had. No byte is touched outside the paths that are replaced. -/
theorem imports_of_writing (host : Host) (l : Lookup) (root : SourceUnit) (outcome : String)
    (w : Writing) (h : (writeRoot host l.resolver root).run {} = (.ok outcome, w))
    (file : String × Bytes) (hfile : file ∈ w.saved) :
    ∃ k unit text, file = (fileName k, Text.Utf8.encode text)
      ∧ w.stems.get? unit.location = some (stem k)
      ∧ (k = 0 ↔ unit = root) ∧ IsEntered root (l.resolver.exchanges w.asked) unit
      ∧ (Import.scan text).length = (Import.scan unit.source).length
      ∧ (∀ (i : Nat) (old new : Import), (Import.scan unit.source)[i]? = some old →
          (Import.scan text)[i]? = some new →
          (∃ target j, l.resolve unit.location old.path = .found target
              ∧ w.stems.get? target.location = some (stem j)
              ∧ new.path = "./" ++ stem j)
            ∨ (l.resolve unit.location old.path = .absent ∧ new.path = old.path))
      ∧ Text.Utf8.encode text
          = Import.spliced (Text.Utf8.encode unit.source) 0
              ((Import.scan unit.source).map fun i =>
                (i, target? l w.stems unit.location i.path)) := by
  obtain ⟨units, -, hleads, progress⟩ := exists_units h
  obtain ⟨k, unit, hname, hstem, hzero, hentered, hcopy⟩ :=
    isCopy_of_mem_saved hleads progress hfile
  have hpaths := Import.map_path_scan_retarget (t := target? l w.stems unit.location)
    (fun path target h => isClean_of_target? hleads progress h) unit.source
  refine ⟨k, unit, _, Prod.ext hname hcopy.eq_retarget, hstem, hzero, hentered, ?_, ?_,
    Import.encode_retarget _ _⟩
  · simpa using congrArg List.length hpaths
  · intro i old new hold hnew
    obtain ⟨old', hold', himport⟩ :=
      exists_of_getElem?_scan hleads progress ((isEntered_iff hleads).1 hentered) hnew
    obtain rfl : old = old' := Option.some.inj (hold.symm.trans hold')
    exact himport

/-- The file of the root still has two imports, and the second one, which is unknown, is the one it
was. -/
theorem imports_of_writing_cyclic :
    (writeRoot bareHost cyclic.resolver cyclicRoot).run {} = (.ok (stem 0), cyclicTree)
      ∧ ∃ text, (fileName 0, Text.Utf8.encode text) ∈ cyclicTree.saved
        ∧ (Import.scan text).length = 2
        ∧ ∀ new ∈ (Import.scan text)[1]?, new.path = "é\\\"" := by
  have hscan : Import.scan cyclicRoot.source = [⟨"lib", 8, 11⟩, ⟨"é\\\"", 25, 29⟩] := by cbv
  have hnames : fileName 0 ∈ cyclicTree.saved.map Prod.fst := by
    have hsaved : cyclicTree.saved.map Prod.fst = [fileName 1, fileName 0] := by cbv
    simp [hsaved]
  obtain ⟨file, hfile, hname⟩ := List.mem_map.1 hnames
  obtain ⟨k, unit, text, rfl, -, hzero, -, hlength, himports, -⟩ :=
    imports_of_writing bareHost cyclic cyclicRoot _ _ run_writeRoot_cyclic file hfile
  obtain rfl : k = 0 := fileName_injective hname
  obtain rfl : unit = cyclicRoot := hzero.1 rfl
  refine ⟨run_writeRoot_cyclic, text, hfile, by rw [hlength, hscan]; rfl, fun new hnew => ?_⟩
  rcases himports 1 ⟨"é\\\"", 25, 29⟩ new (by rw [hscan]; rfl) hnew with
    ⟨target, j, hfound, -⟩ | ⟨-, hkept⟩
  · cases hfound
  · exact hkept

end ProofToolchain.CommandLine.SourceTree
