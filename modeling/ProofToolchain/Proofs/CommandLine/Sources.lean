import ProofToolchain.CommandLine.Sources
import ProofToolchain.Proofs.Import.Exchange
import ProofToolchain.Proofs.Import.Splice
import ProofToolchain.Proofs.Import.Walk
import ProofToolchain.Proofs.Run

/-!
# The writing of a source tree is a walk

`SourceTree.writeUnit` calls itself for what a source imports, and writes the source when it is
back. So while it is under way some stems stand in files already whose own files are not there yet.
What carries the proof is a list that the program does not keep: the sources met so far, in the
order of their stems. It tells the stem of a location (`SourceTree.Tracks`), and all that a part of
the writing does is said with that list as it was before and as it is afterwards
(`SourceTree.Progress`): which files are there, and what is in them.

The writing asks what a walk asks that goes on after unknown imports, and it ends as that walk does
unless a file cannot be written (`SourceTree.walk_of_writeRoot`). The walk has one list of queries
where the writing has calls under way, so this is said for all queries that may be left
(`SourceTree.Goes`).
-/

namespace ProofToolchain

namespace CommandLine.SourceTree

/-- **The writing of a tree leaves unknown imports alone** and ends at the first failure. -/
def tolerance : Tolerance := ⟨true, false⟩

/-- What the file of a number is called. -/
def fileName (number : Nat) : String := withExtension (stem number)

/-- The number of a location: the place of the source that was met there. -/
def number? (met : List SourceUnit) (location : Location) : Option Nat :=
  met.findIdx? (·.location == location)

section Numbers

variable {met more : List SourceUnit} {unit : SourceUnit} {location : Location} {k : Nat}

/-- Numbers stay as they are when more sources are met. -/
theorem number?_append (h : number? met location = some k) :
    number? (met ++ more) location = some k := by
  rw [number?] at h
  rw [number?, List.findIdx?_append, h]
  rfl

/-- A source at a new location has the next number, and no other number changes. -/
theorem number?_concat (hnew : SourceUnit.anyAt met unit.location = false) :
    number? (met ++ [unit]) location
      = if location = unit.location then some met.length else number? met location := by
  rw [number?, number?, List.findIdx?_append]
  by_cases hlocation : location = unit.location
  · subst hlocation
    have hnone : met.findIdx? (·.location == unit.location) = none := by
      simpa [List.findIdx?_eq_none_iff, SourceUnit.anyAt_eq_false_iff] using hnew
    simp [hnone]
  · simp [hlocation, Ne.symm hlocation, List.findIdx?_cons]

theorem isSome_number? : (number? met location).isSome = SourceUnit.anyAt met location := by
  rw [number?, List.findIdx?_isSome]
  rfl

end Numbers

/-! ## One step of the writing -/

section Steps

variable {host : Host} {r : Resolver} {limit depth : Nat} {unit : SourceUnit} {w : Writing}

/-- The writing after a question. -/
def Writing.asking (w : Writing) (q : Query) : Writing := { w with asked := w.asked ++ [q] }

/-- The writing after a location got its stem. -/
def Writing.meeting (w : Writing) (location : Location) : Writing :=
  { w with stems := w.stems.set location (stem w.stems.length) }

/-- The writing after a file was written. -/
def Writing.saving (w : Writing) (name : String) (content : Bytes) : Writing :=
  { w with saved := w.saved ++ [(name, content)] }

/-- A location that was met has its stem. -/
theorem run_writeUnit_of_known {stem : String} (h : w.stems.get? unit.location = some stem) :
    (writeUnit host r limit depth unit).run w = (.ok stem, w) := by
  unfold writeUnit
  rw [Run.run_bind_of_ok (Run.run_get w), h]
  rfl

/-- A new location is one too many if there is no room. -/
theorem run_writeUnit_of_full (h : w.stems.get? unit.location = none)
    (hfull : limit ≤ w.stems.length) :
    (writeUnit host r limit depth unit).run w = (.error .endless, w) := by
  unfold writeUnit
  rw [Run.run_bind_of_ok (Run.run_get w), h]
  dsimp only
  rw [Run.run_bind_of_ok (Run.run_get w), if_pos hfull]
  rfl

/-- **A source at a new location** gets its stem, and then its imports are made. -/
theorem run_writeUnit_of_new (h : w.stems.get? unit.location = none)
    (hroom : w.stems.length < limit) :
    (writeUnit host r limit (depth + 1) unit).run w = (do
        let text ← writeImports r (writeUnit host r limit depth) unit.location
          { source := Text.Utf8.encode unit.source } (Import.scan unit.source)
        save host (fileName w.stems.length) text.finish
        return stem w.stems.length : Run Writing String).run (Writing.meeting w unit.location) := by
  rw [writeUnit, Run.run_bind_of_ok (Run.run_get w), h]
  dsimp only
  rw [Run.run_bind_of_ok (Run.run_get w), if_neg (Nat.not_le.2 hroom)]
  rfl

variable {write : SourceUnit → Run Writing String} {location : Location} {text : Rewriting}
  {i : Import} {rest : List Import}

/-- What an answer makes of the imports that are left. -/
theorem run_writeImports_cons :
    (writeImports r write location text (i :: rest)).run w
      = (match r.answer w.asked ⟨location, i.path⟩ with
        | .found unit => write unit >>= fun stem =>
          writeImports r write location (text.replace i stem) rest
        | .absent => writeImports r write location text rest
        | .raised failure => Run.fail (resolverError failure)
        | .crashed => throw Stop.crashed).run (Writing.asking w ⟨location, i.path⟩) := rfl

/-- A file is written unless the host cannot do it. -/
theorem run_save (host : Host) (w : Writing) (name : String) (content : Bytes) :
    (save host name content).run w
      = match host.writeFailure? (Entries.setAll [] w.saved) name content with
        | some e => (.error (.failed (.host e)), w)
        | none => (.ok (), Writing.saving w name content) := by
  rw [save, Run.run_bind_of_ok (Run.run_get w)]
  cases host.writeFailure? (Entries.setAll [] w.saved) name content <;> rfl

end Steps

/-! ## What is there while the writing is under way -/

/-- **The sources met so far** have their stems in order. -/
structure Tracks (met : List SourceUnit) (w : Writing) : Prop where
  /-- There are as many stems as sources. -/
  length_stems : w.stems.length = met.length
  /-- The stem of a location is that of its number. -/
  stem_eq : ∀ location, w.stems.get? location = (number? met location).map stem

/-- **What may stand for an import** written in the file at a location: the path of the file for
what the resolver found, or its own path if the resolver knew of nothing. -/
inductive Stands (exchanges : List Exchange) (stems : Entries String) (location : Location)
    (i : Import) : Option String → Prop
  /-- The resolver found a source. -/
  | found {unit : SourceUnit} {stem : String}
      (hsaid : ⟨⟨location, i.path⟩, .found unit⟩ ∈ exchanges)
      (hstem : stems.get? unit.location = some stem) :
      Stands exchanges stems location i (some ("./" ++ stem))
  /-- The resolver knew of none. -/
  | absent (hsaid : ⟨⟨location, i.path⟩, .absent⟩ ∈ exchanges) :
      Stands exchanges stems location i none

/-- **The bytes of a source with its imports led to the tree.** All that is not a path which was
replaced is the source's own, byte for byte. -/
def IsCopy (exchanges : List Exchange) (stems : Entries String) (unit : SourceUnit)
    (content : Bytes) : Prop :=
  ∃ changes, changes.map Prod.fst = Import.scan unit.source
    ∧ (∀ c ∈ changes, Stands exchanges stems unit.location c.1 c.2)
    ∧ content = Import.spliced (Text.Utf8.encode unit.source) 0 changes

/-- **A file of the tree**: it has the name for the number of a source that was met, and it is a
copy of that source. -/
def IsFile (r : Resolver) (met : List SourceUnit) (w : Writing) (file : String × Bytes) : Prop :=
  ∃ k unit, met[k]? = some unit ∧ file.1 = fileName k
    ∧ IsCopy (r.exchanges w.asked) w.stems unit file.2

/-- **What a part of the writing has done.** Sources were met and questions asked, and there is one
more file for each source that was met, which is a copy of it. -/
structure Progress (r : Resolver) (met : List SourceUnit) (w : Writing) (met' : List SourceUnit)
    (w' : Writing) : Prop where
  /-- Each source that was met has its stem. -/
  tracks : Tracks met' w'
  /-- Sources that were met stay in their places. -/
  met_prefix : met <+: met'
  /-- What was said stays said. -/
  asked_prefix : w.asked <+: w'.asked
  /-- Each source met by now has its file. -/
  saved : ∃ files, w'.saved = w.saved ++ files
    ∧ (files.map Prod.fst).Perm
      ((List.range' met.length (met'.length - met.length)).map fileName)
    ∧ ∀ file ∈ files, IsFile r met' w' file

namespace Progress

variable {r : Resolver} {met met' met'' : List SourceUnit} {w w' w'' : Writing}

/-- What is said in a call is said in a longer one. -/
theorem exchanges_subset {asked asked' : List Query} (h : asked <+: asked') :
    r.exchanges asked ⊆ r.exchanges asked' := by
  obtain ⟨more, rfl⟩ := h
  rw [Resolver.exchanges, Resolver.exchanges, Resolver.exchangesAfter_append]
  exact List.subset_append_left _ _

/-- A question alone leads to no file. -/
theorem asking (h : Tracks met w) (q : Query) : Progress r met w met (Writing.asking w q) where
  tracks := ⟨h.length_stems, h.stem_eq⟩
  met_prefix := List.prefix_rfl
  asked_prefix := List.prefix_append _ _
  saved := ⟨[], by simp [Writing.asking], by simp, by simp⟩

/-- A stem that was given stays given. -/
theorem get?_stems (h : Progress r met w met' w') (htracks : Tracks met w) {location : Location}
    {stem : String} (hstem : w.stems.get? location = some stem) :
    w'.stems.get? location = some stem := by
  rw [htracks.stem_eq] at hstem
  obtain ⟨k, hk, rfl⟩ := Option.map_eq_some_iff.1 hstem
  obtain ⟨more, rfl⟩ := h.met_prefix
  rw [h.tracks.stem_eq, number?_append hk]
  rfl

/-- What stands for an import stays right. -/
theorem stands (h : Progress r met w met' w') (htracks : Tracks met w) {location : Location}
    {i : Import} {target? : Option String}
    (hstands : Stands (r.exchanges w.asked) w.stems location i target?) :
    Stands (r.exchanges w'.asked) w'.stems location i target? := by
  cases hstands with
  | found hsaid hstem =>
    exact .found (exchanges_subset h.asked_prefix hsaid) (h.get?_stems htracks hstem)
  | absent hsaid => exact .absent (exchanges_subset h.asked_prefix hsaid)

/-- A file stays what it is. -/
theorem isFile (h : Progress r met w met' w') (htracks : Tracks met w) {file : String × Bytes}
    (hfile : IsFile r met w file) : IsFile r met' w' file := by
  obtain ⟨k, unit, hunit, hname, changes, hscan, hstands, hcontent⟩ := hfile
  refine ⟨k, unit, ?_, hname, changes, hscan, fun c hc => h.stands htracks (hstands c hc), hcontent⟩
  obtain ⟨more, rfl⟩ := h.met_prefix
  exact List.getElem?_append_left (List.getElem?_eq_some_iff.1 hunit).1 ▸ hunit

protected theorem refl (h : Tracks met w) : Progress r met w met w where
  tracks := h
  met_prefix := List.prefix_rfl
  asked_prefix := List.prefix_rfl
  saved := ⟨[], by simp, by simp, by simp⟩

protected theorem trans (h : Progress r met w met' w') (h' : Progress r met' w' met'' w'') :
    Progress r met w met'' w'' where
  tracks := h'.tracks
  met_prefix := h.met_prefix.trans h'.met_prefix
  asked_prefix := h.asked_prefix.trans h'.asked_prefix
  saved := by
    obtain ⟨files, hsaved, hnames, hfiles⟩ := h.saved
    obtain ⟨files', hsaved', hnames', hfiles'⟩ := h'.saved
    refine ⟨files ++ files', by rw [hsaved', hsaved, List.append_assoc], ?_, ?_⟩
    · -- the numbers of the first part come before those of the second
      have hlength := h.met_prefix.length_le
      have hlength' := h'.met_prefix.length_le
      have hrange : List.range' met.length (met''.length - met.length)
          = List.range' met.length (met'.length - met.length)
            ++ List.range' met'.length (met''.length - met'.length) := by
        rw [← Nat.add_sub_of_le hlength, Nat.add_sub_cancel_left, List.range'_append_1]
        congr 1
        omega
      rw [hrange, List.map_append, List.map_append]
      exact hnames.append hnames'
    · refine List.forall_mem_append.2 ⟨fun file hfile => ?_, hfiles'⟩
      exact h'.isFile h.tracks (hfiles file hfile)

end Progress

/-! ## The writing goes as a walk -/

/-- **The walk from a source that was found**, given what it does with all that is left after that.
-/
def enter (r : Resolver) (limit : Nat) (met : List SourceUnit) (asked : List Query)
    (unit : SourceUnit) (rest : List Query) : Walk :=
  if SourceUnit.anyAt met unit.location then
    r.walkFrom tolerance (limit - met.length) met asked rest
  else if limit ≤ met.length then ⟨[], .error .endless⟩
  else
    r.walkFrom tolerance (limit - (met ++ [unit]).length) (met ++ [unit]) asked
      (unit.queries ++ rest)

/-- A source that was found is entered. -/
theorem walkFrom_of_found {r : Resolver} {limit : Nat} {met : List SourceUnit}
    {asked rest : List Query} {q : Query} {unit : SourceUnit} (h : r.answer asked q = .found unit) :
    r.walkFrom tolerance (limit - met.length) met asked (q :: rest)
      = (enter r limit met (asked ++ [q]) unit rest).after q := by
  rw [Resolver.walkFrom, h, enter]
  dsimp only
  by_cases hold : SourceUnit.anyAt met unit.location = true
  · rw [if_pos hold, if_pos hold]
  · rw [if_neg hold, if_neg hold]
    by_cases hfull : limit ≤ met.length
    · rw [if_pos hfull, Nat.sub_eq_zero_of_le hfull]
      rfl
    · have hroom : limit - met.length = limit - (met ++ [unit]).length + 1 := by
        rw [List.length_append, List.length_singleton]
        omega
      rw [if_neg hfull, hroom]

/-- **A part of the writing goes as a walk does**, which is `start` for all queries that may be
left. A part that is finished leaves the walk at those queries. Otherwise it stopped where the walk
does, or the host could not write a file. -/
inductive Goes (host : Host) (r : Resolver) (limit : Nat) {α : Type} (met : List SourceUnit)
    (w : Writing) (start : List Query → Walk) (done : α → Writing → Prop) :
    Except Stop α × Writing → Prop
  /-- The part is finished, and nothing of it is left. -/
  | finished {a : α} {met' : List SourceUnit} {w' : Writing} {below : List Query}
      (progress : Progress r met w met' w') (hasked : w'.asked = w.asked ++ below)
      (walk : ∀ rest, start rest
        = (r.walkFrom tolerance (limit - met'.length) met' w'.asked rest).afterAll below)
      (hdone : done a w') : Goes host r limit met w start done (.ok a, w')
  /-- The walk ends here. -/
  | obstructed {w' : Writing} {below : List Query} (obstacle : Obstacle)
      (hasked : w'.asked = w.asked ++ below)
      (walk : ∀ rest, start rest = ⟨below, .error obstacle⟩) :
      Goes host r limit met w start done (.error obstacle.stop, w')
  /-- A file could not be written, and the walk goes on. -/
  | unwritten {e : HostError} {w' : Writing} {below : List Query}
      (hhost : ∃ files name content, host.writeFailure? files name content = some e)
      (hasked : w'.asked = w.asked ++ below)
      (walk : ∃ met' more, ∀ rest, start rest
        = (r.walkFrom tolerance (limit - met'.length) met' w'.asked
            (more ++ rest)).afterAll below) :
      Goes host r limit met w start done (.error (.failed (.host e)), w')

namespace Goes

variable {host : Host} {r : Resolver} {limit : Nat} {α β : Type} {met : List SourceUnit}
  {w : Writing} {start start' : List Query → Walk} {next : List Query} {q : Query}
  {done : α → Writing → Prop} {done' : β → Writing → Prop}

/-- **Two parts one after another** go as a walk whose queries are those of both. -/
theorem bind {x : Run Writing α} {f : α → Run Writing β}
    (hx : Goes host r limit met w start done (x.run w))
    (hf : ∀ a met' w', Progress r met w met' w' → done a w' →
      Goes host r limit met' w'
        (fun rest => r.walkFrom tolerance (limit - met'.length) met' w'.asked (next ++ rest)) done'
        ((f a).run w')) :
    Goes host r limit met w (fun rest => start (next ++ rest)) done' ((x >>= f).run w) := by
  generalize hrun : x.run w = result at hx
  cases hx with
  | @finished a met' w' below progress hasked walk hdone =>
    have hrest := hf a met' w' progress hdone
    rw [Run.run_bind_of_ok hrun]
    have happend : ∀ below', w'.asked ++ below' = w.asked ++ (below ++ below') := by
      simp [hasked]
    generalize (f a).run w' = result at hrest
    cases hrest with
    | finished progress' hasked' walk' hdone' =>
      refine .finished (progress.trans progress') (hasked'.trans (happend _)) (fun rest => ?_)
        hdone'
      rw [walk, walk', Walk.afterAll_append]
    | obstructed obstacle hasked' walk' =>
      refine .obstructed obstacle (hasked'.trans (happend _)) fun rest => ?_
      rw [walk, walk']
      rfl
    | unwritten hhost hasked' walk' =>
      obtain ⟨met'', more, walk'⟩ := walk'
      refine .unwritten hhost (hasked'.trans (happend _)) ⟨met'', more, fun rest => ?_⟩
      rw [walk, walk', Walk.afterAll_append]
  | obstructed obstacle hasked walk =>
    rw [Run.run_bind_of_error hrun]
    exact .obstructed obstacle hasked fun rest => walk _
  | unwritten hhost hasked walk =>
    obtain ⟨met', more, walk⟩ := walk
    rw [Run.run_bind_of_error hrun]
    refine .unwritten hhost hasked ⟨met', more ++ next, fun rest => ?_⟩
    rw [walk, List.append_assoc]

/-- What is done may say more, given what a part of the writing does in any case. -/
theorem imp {ended : α → Writing → Prop} {result : Except Stop α × Writing}
    (h : Goes host r limit met w start done result)
    (himp : ∀ a met' w', Progress r met w met' w' → done a w' → ended a w') :
    Goes host r limit met w start ended result := by
  cases h with
  | finished progress hasked walk hdone =>
    exact .finished progress hasked walk (himp _ _ _ progress hdone)
  | obstructed obstacle hasked walk => exact .obstructed obstacle hasked walk
  | unwritten hhost hasked walk => exact .unwritten hhost hasked walk

/-- **A question comes before** what is done at its answer. -/
theorem afterQuestion {result : Except Stop α × Writing}
    (h : Goes host r limit met (Writing.asking w q) start done result) (htracks : Tracks met w)
    (hstart : ∀ rest, start' rest = (start rest).after q) :
    Goes host r limit met w start' done result := by
  have hcons : ∀ below : List Query,
      (Writing.asking w q).asked ++ below = w.asked ++ (q :: below) := by
    simp [Writing.asking]
  cases h with
  | finished progress hasked walk hdone =>
    refine .finished ((Progress.asking htracks q).trans progress) (hasked.trans (hcons _))
      (fun rest => ?_) hdone
    rw [hstart, walk, Walk.afterAll_cons]
  | obstructed obstacle hasked walk =>
    refine .obstructed obstacle (hasked.trans (hcons _)) fun rest => ?_
    rw [hstart, walk]
    rfl
  | unwritten hhost hasked walk =>
    obtain ⟨met', more, walk⟩ := walk
    refine .unwritten hhost (hasked.trans (hcons _)) ⟨met', more, fun rest => ?_⟩
    rw [hstart, walk, Walk.afterAll_cons]

end Goes

section Writing

variable {host : Host} {r : Resolver} {limit depth : Nat}

/-- What is done when a source is written: its stem is known. -/
def StemKnown (unit : SourceUnit) (stem : String) (w : Writing) : Prop :=
  w.stems.get? unit.location = some stem

/-- What is done when the imports of a source are made: each one has what stands for it. -/
def ImportsMade (r : Resolver) (location : Location) (text : Rewriting) (imports : List Import)
    (text' : Rewriting) (w : Writing) : Prop :=
  ∃ changes, changes.map Prod.fst = imports
    ∧ (∀ c ∈ changes, Stands (r.exchanges w.asked) w.stems location c.1 c.2)
    ∧ text'.finish = text.rewritten ++ Import.spliced text.source text.copiedTo changes

/-- What is answered is said. -/
theorem mem_exchanges_of_progress {met met' : List SourceUnit} {w w' : Writing} {q : Query}
    (h : Progress r met (Writing.asking w q) met' w') :
    ⟨q, r.answer w.asked q⟩ ∈ r.exchanges w'.asked := by
  refine Progress.exchanges_subset h.asked_prefix ?_
  show _ ∈ r.exchanges (w.asked ++ [q])
  rw [Resolver.exchanges, Resolver.exchangesAfter_append]
  exact List.mem_append_right _ List.mem_cons_self

/-- **The imports of a source go as the walk of its queries**, if sources that are found are written
as they are entered. -/
theorem goes_writeImports (host : Host) (r : Resolver) {write : SourceUnit → Run Writing String}
    (hwrite : ∀ {met w unit}, Tracks met w → limit ≤ met.length + depth →
      Goes host r limit met w (enter r limit met w.asked unit) (StemKnown unit)
        ((write unit).run w))
    (location : Location) (text : Rewriting) (imports : List Import) {met : List SourceUnit}
    {w : Writing} (htracks : Tracks met w) (hdepth : limit ≤ met.length + depth) :
    Goes host r limit met w
      (fun rest => r.walkFrom tolerance (limit - met.length) met w.asked
        (imports.map (fun i => ⟨location, i.path⟩) ++ rest))
      (ImportsMade r location text imports)
      ((writeImports r write location text imports).run w) := by
  induction imports generalizing text met w with
  | nil =>
    refine .finished (.refl htracks) (List.append_nil _).symm (fun rest => rfl)
      ⟨[], rfl, by simp, ?_⟩
    rfl
  | cons i imports ih =>
    rw [run_writeImports_cons]
    have hasking : Tracks met (Writing.asking w ⟨location, i.path⟩) := ⟨htracks.1, htracks.2⟩
    cases hanswer : r.answer w.asked ⟨location, i.path⟩ with
    | found unit =>
      refine Goes.afterQuestion (Goes.bind (hwrite hasking hdepth) ?_) htracks
        fun rest => walkFrom_of_found hanswer
      intro stem met' w' progress hstem
      have hdepth' : limit ≤ met'.length + depth :=
        Nat.le_trans hdepth (Nat.add_le_add_right progress.met_prefix.length_le depth)
      refine (ih (text.replace i stem) progress.tracks hdepth').imp ?_
      rintro text' met'' w'' progress' ⟨changes, rfl, hstands, hfinish⟩
      have hsaid : ⟨⟨location, i.path⟩, .found unit⟩ ∈ r.exchanges w''.asked :=
        hanswer ▸ mem_exchanges_of_progress (progress.trans progress')
      refine ⟨(i, some ("./" ++ stem)) :: changes, rfl, List.forall_mem_cons.2
        ⟨.found hsaid (progress'.get?_stems progress.tracks hstem), hstands⟩, ?_⟩
      · rw [hfinish, Import.spliced, Import.encode_append]
        simp only [Rewriting.replace, List.append_assoc]
    | absent =>
      refine Goes.afterQuestion (Goes.imp (ih text hasking hdepth) ?_) htracks
        fun rest => Resolver.walkFrom_of_passes (by rw [hanswer]; rfl)
      rintro text' met' w' progress ⟨changes, rfl, hstands, hfinish⟩
      refine ⟨(i, none) :: changes, rfl, List.forall_mem_cons.2 ⟨.absent ?_, hstands⟩, hfinish⟩
      rw [← hanswer]
      exact mem_exchanges_of_progress progress
    | raised failure =>
      exact .obstructed (.raised failure) rfl fun rest =>
        Resolver.walkFrom_of_obstacle (by rw [hanswer]; rfl)
    | crashed => exact .obstructed .crashed rfl fun rest =>
        Resolver.walkFrom_of_obstacle (by rw [hanswer]; rfl)

section Tracking

variable {met : List SourceUnit} {w : Writing} {unit : SourceUnit} (htracks : Tracks met w)
include htracks

/-- A new location has no stem. -/
theorem get?_stems_eq_none (hnew : SourceUnit.anyAt met unit.location = false) :
    w.stems.get? unit.location = none := by
  rw [htracks.stem_eq, Option.map_eq_none_iff, ← Option.not_isSome_iff_eq_none, isSome_number?,
    hnew]
  exact Bool.false_ne_true

/-- The sources met are one more, and the new one has the next stem. -/
theorem tracks_meeting (hnew : SourceUnit.anyAt met unit.location = false) :
    Tracks (met ++ [unit]) (Writing.meeting w unit.location) where
  length_stems := by
    have hkey := Entries.get?_eq_none_iff.1 (get?_stems_eq_none htracks hnew)
    rw [Writing.meeting, (Entries.perm_set hkey _).length_eq, List.length_cons,
      htracks.length_stems, List.length_append, List.length_singleton]
  stem_eq location := by
    rw [number?_concat hnew, Writing.meeting]
    by_cases hlocation : location = unit.location
    · subst hlocation
      rw [if_pos rfl, Entries.get?_set_self, htracks.length_stems]
      rfl
    · rw [if_neg hlocation, Entries.get?_set_of_ne hlocation, htracks.stem_eq]

/-- A source that was met before is not written again. -/
theorem goes_writeUnit_of_known (hold : SourceUnit.anyAt met unit.location = true) :
    Goes host r limit met w (enter r limit met w.asked unit) (StemKnown unit)
      ((writeUnit host r limit depth unit).run w) := by
  obtain ⟨k, hk⟩ := Option.isSome_iff_exists.1 (isSome_number?.trans hold)
  have hstem : w.stems.get? unit.location = some (stem k) := by
    rw [htracks.stem_eq, hk]
    rfl
  rw [run_writeUnit_of_known hstem]
  refine .finished (.refl htracks) (List.append_nil _).symm (fun rest => ?_) hstem
  rw [enter, if_pos hold, Walk.afterAll_nil]

/-- A source for which there is no room ends the walk. -/
theorem goes_writeUnit_of_full (hnew : SourceUnit.anyAt met unit.location = false)
    (hfull : limit ≤ met.length) :
    Goes host r limit met w (enter r limit met w.asked unit) (StemKnown unit)
      ((writeUnit host r limit depth unit).run w) := by
  rw [run_writeUnit_of_full (get?_stems_eq_none htracks hnew) (htracks.length_stems ▸ hfull)]
  refine .obstructed .endless (List.append_nil _).symm fun rest => ?_
  rw [enter, if_neg (by simp [hnew]), if_pos hfull]

end Tracking

/-- **A source that is written last** completes what was done for it: the files of what it imports
are there, and its own is the one that was left. -/
theorem Progress.saving {met met' : List SourceUnit} {w w' : Writing} {unit : SourceUnit}
    {content : Bytes}
    (h : Progress r (met ++ [unit]) (Writing.meeting w unit.location) met' w')
    (hcopy : IsCopy (r.exchanges w'.asked) w'.stems unit content) :
    Progress r met w met' (Writing.saving w' (fileName met.length) content) where
  tracks := ⟨h.tracks.length_stems, h.tracks.stem_eq⟩
  met_prefix := (List.prefix_append _ _).trans h.met_prefix
  asked_prefix := h.asked_prefix
  saved := by
    obtain ⟨files, hsaved, hnames, hfiles⟩ := h.saved
    have hlength := h.met_prefix.length_le
    rw [List.length_append, List.length_singleton] at hlength hnames
    refine ⟨files ++ [(fileName met.length, content)], ?_, ?_, ?_⟩
    · rw [Writing.saving, hsaved, List.append_assoc]
      rfl
    · have hrange : List.range' met.length (met'.length - met.length)
          = met.length :: List.range' (met.length + 1) (met'.length - (met.length + 1)) := by
        rw [← List.range'_succ]
        congr 1
        omega
      rw [hrange, List.map_append, List.map_cons]
      exact (hnames.append_right _).trans (List.perm_append_singleton _ _)
    · refine List.forall_mem_append.2 ⟨hfiles, List.forall_mem_singleton.2 ?_⟩
      refine ⟨met.length, unit, ?_, rfl, hcopy⟩
      obtain ⟨more, rfl⟩ := h.met_prefix
      simp

/-- **A file is written when the imports of its source are made.** -/
theorem goes_save {met : List SourceUnit} {w : Writing} {unit : SourceUnit}
    {imports : Run Writing Rewriting} {start : List Query → Walk}
    (himports : Goes host r limit (met ++ [unit]) (Writing.meeting w unit.location) start
      (ImportsMade r unit.location { source := Text.Utf8.encode unit.source }
        (Import.scan unit.source)) (imports.run (Writing.meeting w unit.location)))
    (htracks : Tracks met w) (hnew : SourceUnit.anyAt met unit.location = false) :
    Goes host r limit met w start (StemKnown unit)
      ((do
        let text ← imports
        save host (fileName met.length) text.finish
        return stem met.length : Run Writing String).run (Writing.meeting w unit.location)) := by
  generalize hrun : imports.run (Writing.meeting w unit.location) = result at himports
  cases himports with
  | @finished text met' w' below progress hasked walk hmade =>
    rw [Run.run_bind_of_ok hrun]
    have hsave := run_save host w' (fileName met.length) text.finish
    cases hfails : host.writeFailure? (Entries.setAll [] w'.saved) (fileName met.length)
        text.finish with
    | some e =>
      rw [hfails] at hsave
      rw [Run.run_bind_of_error hsave]
      exact .unwritten ⟨_, _, _, hfails⟩ hasked ⟨met', [], walk⟩
    | none =>
      rw [hfails] at hsave
      rw [Run.run_bind_of_ok hsave]
      obtain ⟨changes, hscan, hstands, hfinish⟩ := hmade
      refine .finished (progress.saving ⟨changes, hscan, hstands, hfinish⟩) hasked walk ?_
      refine progress.get?_stems (tracks_meeting htracks hnew) ?_
      rw [Writing.meeting, Entries.get?_set_self, htracks.length_stems]
  | obstructed obstacle hasked walk =>
    rw [Run.run_bind_of_error hrun]
    exact .obstructed obstacle hasked walk
  | unwritten hhost hasked walk =>
    rw [Run.run_bind_of_error hrun]
    exact .unwritten hhost hasked walk

/-- **A source that is found is written as it is entered**: with its stem known it is there already,
and with a new one its imports are made, and its file is written after theirs. -/
theorem goes_writeUnit {met : List SourceUnit} {w : Writing} {unit : SourceUnit}
    (htracks : Tracks met w) (hdepth : limit ≤ met.length + depth) :
    Goes host r limit met w (enter r limit met w.asked unit) (StemKnown unit)
      ((writeUnit host r limit depth unit).run w) := by
  induction depth generalizing met w unit with
  | zero =>
    cases hmet : SourceUnit.anyAt met unit.location with
    | true => exact goes_writeUnit_of_known htracks hmet
    | false => exact goes_writeUnit_of_full htracks hmet hdepth
  | succ depth ih =>
    cases hmet : SourceUnit.anyAt met unit.location with
    | true => exact goes_writeUnit_of_known htracks hmet
    | false =>
      rcases Nat.lt_or_ge met.length limit with hroom | hfull
      · have htracks' := tracks_meeting htracks hmet
        have hdepth' : limit ≤ (met ++ [unit]).length + depth := by
          rw [List.length_append, List.length_singleton]
          omega
        have himports := goes_writeImports host r ih unit.location
          { source := Text.Utf8.encode unit.source } (Import.scan unit.source) htracks' hdepth'
        have hstart : enter r limit met w.asked unit = fun rest =>
            r.walkFrom tolerance (limit - (met ++ [unit]).length) (met ++ [unit]) w.asked
              (unit.queries ++ rest) := by
          funext rest
          rw [enter, if_neg (by simp [hmet]), if_neg (Nat.not_le.2 hroom)]
        rw [run_writeUnit_of_new (get?_stems_eq_none htracks hmet) (htracks.length_stems ▸ hroom),
          htracks.length_stems, hstart]
        exact goes_save himports htracks hmet
      · exact goes_writeUnit_of_full htracks hmet hfull

end Writing

/-! ## From a root -/

section FromRoot

variable {host : Host} {r : Resolver} {root : SourceUnit} {outcome : Except Stop String}
  {w : Writing}

/-- **How the writing from a root ends.** Either it wrote a file for each source of its walk, or it
was stopped as its walk was, or a file could not be written. -/
theorem writeRoot_cases (h : (writeRoot host r root).run {} = (outcome, w)) :
    (∃ units, outcome = .ok (stem 0) ∧ r.walk tolerance root = ⟨w.asked, .ok units⟩
        ∧ Progress r [] {} units w)
      ∨ (∃ obstacle, outcome = .error obstacle.stop
        ∧ r.walk tolerance root = ⟨w.asked, .error obstacle⟩)
      ∨ ∃ e, outcome = .error (.failed (.host e))
        ∧ (∃ files name content, host.writeFailure? files name content = some e)
        ∧ ∃ budget met more, r.walk tolerance root
          = (r.walkFrom tolerance budget met w.asked more).afterAll w.asked := by
  have hgoes : Goes host r (1 + r.reach + root.queries.length) [] {} _ (StemKnown root)
      (outcome, w) := h ▸ goes_writeUnit ⟨rfl, fun _ => rfl⟩ (by simp)
  -- the walk that enters the root, with nothing left after it, is the walk from the root
  have hstart : enter r (1 + r.reach + root.queries.length) [] [] root []
      = r.walk tolerance root := by
    simp [enter, Resolver.walk, SourceUnit.anyAt, Nat.add_assoc]
  cases hgoes with
  | @finished _ units _ below progress hasked walk hdone =>
    rw [List.nil_append] at hasked
    subst hasked
    have hwalk : r.walk tolerance root = ⟨w.asked, .ok units⟩ := by
      rw [← hstart, walk, Resolver.walkFrom, Walk.afterAll, List.append_nil]
    have hhead : number? units root.location = some 0 := by
      have hleads := Resolver.leads_of_walk (congrArg Walk.outcome hwalk)
      obtain ⟨rest, rfl⟩ := hleads.entered_prefix_units
      exact number?_append (by simp [number?])
    have hstem := hdone.symm.trans (progress.tracks.stem_eq root.location)
    rw [hhead] at hstem
    exact .inl ⟨units, congrArg Except.ok (Option.some.inj hstem), hwalk, progress⟩
  | obstructed obstacle hasked walk =>
    rw [List.nil_append] at hasked
    subst hasked
    exact .inr (.inl ⟨_, rfl, by rw [← hstart, walk]⟩)
  | unwritten hhost hasked walk =>
    rw [List.nil_append] at hasked
    subst hasked
    obtain ⟨met, more, walk⟩ := walk
    have hwalk := hstart.symm.trans (walk [])
    rw [List.append_nil] at hwalk
    exact .inr (.inr ⟨_, rfl, hhost, _, met, more, hwalk⟩)

/-- **A tree that was written** has a file for each source of its walk. -/
theorem exists_units {stem' : String} (h : (writeRoot host r root).run {} = (.ok stem', w)) :
    ∃ units, stem' = stem 0 ∧ r.Leads tolerance [] [root] root.queries w.asked units
      ∧ Progress r [] {} units w := by
  rcases writeRoot_cases h with ⟨units, hstem, hwalk, progress⟩ | ⟨_, hstop, -⟩ | ⟨_, hstop, -⟩
  · have hleads := Resolver.leads_of_walk (congrArg Walk.outcome hwalk)
    rw [hwalk] at hleads
    exact ⟨units, Except.ok.inj hstem, hleads, progress⟩
  · cases hstop
  · cases hstop

end FromRoot

end CommandLine.SourceTree

/-- A host without the proof tool, where sources are written all the same. -/
def CommandLine.bareHost : CommandLine.Host where
  scratchPath _ := "/scratch"
  launch _ := .notFound
  finds _ := false

end ProofToolchain
