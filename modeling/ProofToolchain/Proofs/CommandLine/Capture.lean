import ProofToolchain.Proofs.CommandLine.Tree
import ProofToolchain.Proofs.Text.Decoding

/-!
# Unknown imports beside the files of a tree

An import that the resolver knows nothing of keeps its path, and the compiler looks for it itself.
It starts in the directory of the tree, where the names are `src_0.zok`, `src_1.zok` and so on.
Nothing keeps those names and the paths that people write apart: an unknown import with the path
`./src_0` is answered with the root source, by a compiler that should have found nothing.

A tree is free of this (`SourceTree.CaptureFree`) exactly when no unknown import is written that
way, and which paths those are can be said without the file system (`SourceTree.names_iff`). A path
that was replaced never goes astray (`SourceTree.eq_of_names_pathTo`).
-/

namespace ProofToolchain.CommandLine.SourceTree

/-- **A path names the file of a number** if it leads to that file from the directory of the tree,
with the extension added where there is none. A path that starts with a slash does not start from
there. -/
def Names (path : String) (k : Nat) : Prop :=
  path.toList.head? ≠ some '/' ∧ Location.canonical path = fileName k

/-- **The paths that name a file**, by what remains of their segments. -/
theorem names_iff {path : String} {k : Nat} :
    Names path k ↔ path.toList.head? ≠ some '/'
      ∧ (Location.walk (Location.segments path.toList) = [(stem k).toList]
        ∨ Location.walk (Location.segments path.toList) = [(fileName k).toList]) := by
  refine and_congr_right fun _ => ?_
  rw [← String.toList_inj, Location.toList_canonical, toList_fileName]
  exact Location.canonicalChars_eq_iff (stem_ne_nil k) (dot_not_mem_stem k) (slash_not_mem_stem k)

/-- The path of a file names that file only. -/
theorem eq_of_names_pathTo {j k : Nat} (h : Names (pathTo j) k) : j = k :=
  fileName_injective ((canonical_pathTo j).symm.trans h.2)

/-- **No import is captured**: where an import of a file names a file of the tree, it is there
because the resolver returned the location of that file for it. -/
def CaptureFree (l : Lookup) (root : SourceUnit) (w : Writing) : Prop :=
  ∀ unit, IsEntered root (l.resolver.exchanges w.asked) unit → ∀ j text,
    w.stems.get? unit.location = some (stem j) →
    (fileName j, Text.Utf8.encode text) ∈ w.saved →
    ∀ (i : Nat) (new : Import), (Import.scan text)[i]? = some new →
      ∀ k < w.saved.length, Names new.path k →
        ∃ old target, (Import.scan unit.source)[i]? = some old
          ∧ l.resolve unit.location old.path = .found target
          ∧ w.stems.get? target.location = some (stem k)

/-- **When no import is captured**: exactly when no import that the resolver knows nothing of names
a file of the tree, which is to say that what remains of no such path is the name of a file, with
or without its extension. -/
theorem captureFree_tfae (host : Host) (l : Lookup) (root : SourceUnit) (outcome : String)
    (w : Writing) (h : (writeRoot host l.resolver root).run {} = (.ok outcome, w)) :
    [CaptureFree l root w,
      ∀ unit, IsEntered root (l.resolver.exchanges w.asked) unit →
        ∀ i ∈ Import.scan unit.source, l.resolve unit.location i.path = .absent →
          ∀ k < w.saved.length, ¬ Names i.path k,
      ∀ unit, IsEntered root (l.resolver.exchanges w.asked) unit →
        ∀ i ∈ Import.scan unit.source, l.resolve unit.location i.path = .absent →
          i.path.toList.head? ≠ some '/' → ∀ k < w.saved.length,
            Location.walk (Location.segments i.path.toList) ≠ [(stem k).toList]
              ∧ Location.walk (Location.segments i.path.toList) ≠ [(fileName k).toList]].TFAE := by
  obtain ⟨units, -, hleads, progress⟩ := exists_units h
  tfae_have 1 → 2 := by
    intro hfree unit hunit old hold habsent k hk hnames
    obtain ⟨i, hi⟩ := List.mem_iff_getElem?.1 hold
    have hmem := (isEntered_iff hleads).1 hunit
    have hlocation : SourceUnit.anyAt units unit.location = true :=
      SourceUnit.anyAt_iff.2 ⟨unit, hmem, rfl⟩
    obtain ⟨s, hs⟩ := Option.isSome_iff_exists.1 (isSome_number?.trans hlocation)
    have hstem : w.stems.get? unit.location = some (stem s) := by
      rw [progress.tracks.stem_eq, hs]
      rfl
    -- the import is in the file too, with the path it had
    have hi' := getElem?_scan_retarget hleads progress unit i
    rw [hi, Option.map_some, target?_of_absent habsent] at hi'
    obtain ⟨new, hnew, hpath⟩ := Option.map_eq_some_iff.1 hi'
    obtain ⟨old', target, hold', hfound, -⟩ := hfree unit hunit s _ hstem
      ((mem_saved_iff hleads progress hmem hstem).2 rfl) i new hnew k hk (hpath.symm ▸ hnames)
    obtain rfl : old = old' := Option.some.inj (hi.symm.trans hold')
    cases habsent.symm.trans hfound
  tfae_have 2 → 1 := by
    intro hkept unit hunit j text hj hfile i new hnew k hk hnames
    have hmem := (isEntered_iff hleads).1 hunit
    obtain rfl := Text.Utf8.encode_injective ((mem_saved_iff hleads progress hmem hj).1 hfile)
    obtain ⟨old, hold, ⟨target, m, hfound, hstem, hpath⟩ | ⟨habsent, hpath⟩⟩ :=
      exists_of_getElem?_scan hleads progress hmem hnew
    · rw [hpath] at hnames
      obtain rfl : m = k := eq_of_names_pathTo hnames
      exact ⟨old, target, hold, hfound, hstem⟩
    · rw [hpath] at hnames
      exact absurd hnames (hkept unit hunit old (List.mem_of_getElem? hold) habsent k hk)
  tfae_have 2 ↔ 3 := by
    refine forall₂_congr fun unit _ => forall₂_congr fun i _ => forall_congr' fun _ => ?_
    simp only [names_iff, not_and, not_or]
    exact ⟨fun h hhead k hk => h k hk hhead, fun h k hk hhead => h hhead k hk⟩
  tfae_finish

/-- The tree of a cycle has two sources. -/
theorem eq_of_isEntered_cyclic {asked : List Query} {unit : SourceUnit}
    (h : IsEntered cyclicRoot (cyclic.resolver.exchanges asked) unit) :
    unit = cyclicRoot ∨ unit = cyclicLib := by
  refine h.imp_right fun ⟨hother, hfirst⟩ => ?_
  obtain ⟨-, e, he, hfound⟩ := exists_of_firstFound? hfirst
  rw [Lookup.exchanges_resolver, List.mem_map] at he
  obtain ⟨q, -, rfl⟩ := he
  -- the other source that the lookup finds stands at the root's location
  simp only [Lookup.answer, cyclic] at hfound
  split at hfound
  · exact (Resolution.found.inj hfound).symm
  · split at hfound
    · exact absurd (congrArg SourceUnit.location (Resolution.found.inj hfound)).symm hother
    · cases hfound

/-- A tree whose unknown import is not written like a file is free of captures. -/
theorem captureFree_tfae_cyclic :
    (writeRoot bareHost cyclic.resolver cyclicRoot).run {} = (.ok (stem 0), cyclicTree)
      ∧ CaptureFree cyclic cyclicRoot cyclicTree := by
  have hroot : Import.scan cyclicRoot.source = [⟨"lib", 8, 11⟩, ⟨"é\\\"", 25, 29⟩] := by cbv
  have hlib : Import.scan cyclicLib.source = [⟨"main", 8, 12⟩] := by cbv
  refine ⟨run_writeRoot_cyclic,
    ((captureFree_tfae bareHost cyclic cyclicRoot _ _ run_writeRoot_cyclic).out 0 2).2 ?_⟩
  intro unit hunit i hi habsent _ k _
  have hi : i = ⟨"é\\\"", 25, 29⟩ := by
    rcases eq_of_isEntered_cyclic hunit with rfl | rfl
    · rw [hroot] at hi
      simp only [List.mem_cons, List.not_mem_nil, or_false] at hi
      rcases hi with rfl | rfl
      · cases habsent
      · rfl
    · rw [hlib, List.mem_singleton] at hi
      subst hi
      cases habsent
  subst hi
  have hrest : Location.walk (Location.segments "é\\\"".toList) = [['é', '\\', '"']] := by decide
  rw [hrest, toList_fileName, toList_stem]
  constructor <;> simp

/-- A source whose only import is written like the file of the source itself. -/
def selfNamed : SourceUnit := ⟨"main.zok", "import \"./src_0\";"⟩

/-- The tree of that source, written for a resolver that knows nothing. -/
def selfNamedTree : Writing := ((writeRoot bareHost Resolver.empty selfNamed).run {}).2

/-- **An import that no resolver knows is captured** all the same: it names the file that it stands
in. -/
theorem not_captureFree_selfNamed :
    (writeRoot bareHost Lookup.empty.resolver selfNamed).run {} = (.ok (stem 0), selfNamedTree)
      ∧ selfNamedTree.saved = [(fileName 0, Text.Utf8.encode selfNamed.source)]
      ∧ Import.scan selfNamed.source = [⟨"./src_0", 8, 15⟩]
      ∧ Lookup.empty.resolve selfNamed.location "./src_0" = .absent
      ∧ Names "./src_0" 0
      ∧ ¬ CaptureFree Lookup.empty selfNamed selfNamedTree := by
  have hscan : Import.scan selfNamed.source = [⟨"./src_0", 8, 15⟩] := by cbv
  have hnames : Names "./src_0" 0 := ⟨by decide, canonical_pathTo 0⟩
  have hsaved : selfNamedTree.saved = [(fileName 0, Text.Utf8.encode selfNamed.source)] := by cbv
  have hstem : selfNamedTree.stems.get? selfNamed.location = some (stem 0) := by cbv
  refine ⟨by cbv, hsaved, hscan, rfl, hnames, fun hfree => ?_⟩
  have hlength : 0 < selfNamedTree.saved.length := by simp [hsaved]
  obtain ⟨_, _, -, hfound, -⟩ := hfree selfNamed (.inl rfl) 0 selfNamed.source hstem
    (by simp [hsaved]) 0 ⟨"./src_0", 8, 15⟩ (by rw [hscan]; rfl) 0 hlength hnames
  cases hfound

end ProofToolchain.CommandLine.SourceTree
