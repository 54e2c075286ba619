import ProofToolchain.Options.Flags
import ProofToolchain.Proofs.Entries
import ProofToolchain.Proofs.Text.ByteOrder

/-!
# Flags over a run of updates

Flags start out empty or are read from a text, and then they are updated one at a time. A text that
repeats a key reads like a run of updates itself, so all that ever happens to flags is one list of
settings: the members of the text, and after them the updates (`Flags.entries_after`). Of each name
the last setting counts, wherever it comes from.

The listing is in the order of the names as texts, which is that of their bytes
(`Text.Utf8.encode_lt_encode`). Flags with the same values are the same, so updates of different
names may change places as long as those of one name do not.
-/

namespace ProofToolchain.Flags

variable {f g : Flags}

/-! ## What flags are -/

/-- **A flag is on** exactly if its value is `true`. -/
theorem isEnabled_iff {name : String} :
    f.isEnabled name = true ↔ f.get? name = some (.bool true) := by
  unfold isEnabled
  split
  · next h => simp [h]
  · next h => simpa using h

/-- **Flags are what they are set to.** -/
theorem eq_of_get?_eq (h : ∀ name, f.get? name = g.get? name) : f = g := by
  obtain ⟨es, hes⟩ := f
  obtain ⟨fs, hfs⟩ := g
  have hentries : es = fs := hes.ext hfs h
  subst hentries
  rfl

/-- Setting a flag leaves the others on or off. -/
theorem isEnabled_set_of_ne {name other : String} (h : other ≠ name) (value : Json) :
    (f.set name value).isEnabled other = f.isEnabled other := by
  rw [isEnabled, isEnabled, get?_set_of_ne h]

/-- Anything but `true` turns a flag off. -/
theorem isEnabled_set_of_ne_true {value : Json} (h : value ≠ .bool true) (name : String) :
    (f.set name value).isEnabled name = false := by
  rw [← Bool.not_eq_true, isEnabled_iff, get?_set_self]
  simpa using h

/-! ## Updates -/

/-- **An update of flags.** -/
inductive Update where
  /-- Any flag, set to any value. -/
  | flag (name : String) (value : Json)
  /-- Branch isolation, on or off. -/
  | isolateBranches (enabled : Bool)
  /-- Debug output, on or off. -/
  | debug (enabled : Bool)
  /-- What a request says about `snarkjs`. -/
  | snarkjs (enabled : Bool)

/-- The name that an update sets. -/
def Update.name : Update → String
  | .flag name _ => name
  | .isolateBranches _ => isolateBranchesFlag
  | .debug _ => debugFlag
  | .snarkjs _ => snarkjsFlag

/-- The value that it is set to. -/
def Update.value : Update → Json
  | .flag _ value => value
  | .isolateBranches enabled | .debug enabled | .snarkjs enabled => .bool enabled

/-- The setting that an update is. -/
def Update.entry (u : Update) : String × Json := (u.name, u.value)

/-- **The flags after one update.** -/
def apply (f : Flags) : Update → Flags
  | .flag name value => f.set name value
  | .isolateBranches enabled => f.withIsolateBranches enabled
  | .debug enabled => f.withDebug enabled
  | .snarkjs enabled => f.withSnarkjs enabled

/-- **The flags after a run of updates.** -/
def after (f : Flags) (updates : List Update) : Flags :=
  updates.foldl apply f

/-- Every update is a setting. -/
theorem apply_eq_set (f : Flags) (u : Update) : f.apply u = f.set u.name u.value := by
  cases u <;> rfl

/-- A run of updates is a run of settings. -/
theorem entries_after (f : Flags) (updates : List Update) :
    (f.after updates).entries = Entries.setAll f.entries (updates.map Update.entry) := by
  induction updates generalizing f with
  | nil => rfl
  | cons u updates ih =>
    show ((f.apply u).after updates).entries = _
    rw [ih, apply_eq_set, List.map_cons, Entries.setAll_cons]
    rfl

/-! ## Where flags come from -/

/-- **The members that a text writes**, in the order of the text and as often as they are written
there. -/
def written (text : String) : Entries Json :=
  match Json.Literal.parse? text.toList with
  | some (.object members) =>
    (members.mapM (Json.Literal.member? (Json.Literal.toJson? (Json.maxDepth - 1)))).getD []
  | _ => []

/-- **Flags as they are to begin with**, and the settings that they come from. -/
inductive IsInitial : Flags → Entries Json → Prop
  /-- There are none. -/
  | new : IsInitial empty []
  /-- They are read from a text. -/
  | parsed {text : String} {f : Flags} (reads : parse? text = some f) : IsInitial f (written text)

/-- **Flags that are read come from the members that are written.** -/
theorem eq_ofPairs_of_parse? {text : String} (h : parse? text = some f) :
    f = ofPairs (written text) := by
  obtain ⟨l, hl, hread⟩ := Option.bind_eq_some_iff.1 h
  unfold ofLiteral? at hread
  split at hread
  · next members =>
    obtain ⟨pairs, hpairs, rfl⟩ := Option.map_eq_some_iff.1 hread
    rw [written, hl]
    dsimp only
    rw [hpairs, Option.getD_some]
  · cases hread

/-- What flags are after a run is what all settings together leave. -/
theorem IsInitial.entries_after {given : Entries Json} (h : f.IsInitial given)
    (updates : List Update) : (f.after updates).entries
      = Entries.setAll [] (given ++ updates.map Update.entry) := by
  rw [Flags.entries_after, Entries.setAll, Entries.setAll, List.foldl_append]
  congr 1
  cases h with
  | new => rfl
  | parsed reads => rw [eq_ofPairs_of_parse? reads]; rfl

/-! ## What flags are after a run -/

/-- What a name is set to last is known from the updates of that name. -/
theorem last?_updates (name : String) (updates : List Update) :
    Entries.last? name (updates.map Update.entry)
      = Entries.last? name ((updates.filter fun u => u.name = name).map Update.entry) := by
  rw [← Entries.last?_filter name (updates.map Update.entry), List.filter_map]
  rfl

/-- **Only the updates of each name count**, in their order. -/
theorem after_eq_of_filter_eq (f : Flags) {updates others : List Update}
    (h : ∀ name, updates.filter (fun u => u.name = name) = others.filter (fun u => u.name = name)) :
    f.after updates = f.after others := by
  refine eq_of_get?_eq fun name => ?_
  rw [get?, get?, entries_after, entries_after, Entries.get?_setAll_eq, Entries.get?_setAll_eq,
    last?_updates name updates, last?_updates name others, h name]

/-- **Flags are an ordered map in which the last setting wins.** However they start out and however
they are updated, their listing has every name once, in the order of the bytes of the names. A flag
has the value that it was set to last, by the text or by an update, and it is on exactly if that is
`true`. The updates of different names may be made in any order: flags and text stay the same if
those of each name are made in the same order. -/
theorem after_lastWins {given : Entries Json} (h : f.IsInitial given) (updates : List Update) :
    ((f.after updates).entries.map fun e => Text.Utf8.encode e.1).Pairwise (· < ·)
      ∧ ((f.after updates).entries.map Prod.fst).Nodup
      ∧ (∀ name value, (name, value) ∈ (f.after updates).entries
          ↔ (f.after updates).get? name = some value)
      ∧ (∀ name, (f.after updates).get? name
          = Entries.last? name (given ++ updates.map Update.entry))
      ∧ (∀ name, (f.after updates).isEnabled name = true
          ↔ Entries.last? name (given ++ updates.map Update.entry) = some (.bool true))
      ∧ ∀ others : List Update,
          (∀ name, updates.filter (fun u => u.name = name)
            = others.filter fun u => u.name = name) →
          f.after updates = f.after others
            ∧ (f.after updates).toJson.text = (f.after others).toJson.text := by
  have hget : ∀ name, (f.after updates).get? name
      = Entries.last? name (given ++ updates.map Update.entry) := by
    intro name
    rw [get?, h.entries_after updates, Entries.get?_setAll_eq, Entries.get?_nil, Option.or_none]
  refine ⟨?_, ?_, fun name value => (f.after updates).ordered.mem_iff, hget, fun name => ?_,
    fun others hothers => ?_⟩
  · refine List.pairwise_map.2 ((f.after updates).ordered.imp fun hlt => ?_)
    exact Text.Utf8.encode_lt_encode hlt
  · refine List.pairwise_map.2 ((f.after updates).ordered.imp fun {a b} hlt heq => ?_)
    exact String.lt_irrefl b.1 (heq ▸ hlt)
  · rw [isEnabled_iff, hget]
  · have hsame := f.after_eq_of_filter_eq hothers
    exact ⟨hsame, by rw [hsame]⟩

/-- A text that repeats a key. -/
def repeatedText : String := "\x7b\"é\":1,\"debug\":true,\"é\":true\x7d"

/-- Its members, as they are written. -/
def repeatedMembers : Entries Json :=
  [("é", .number (.integer 1)), ("debug", .bool true), ("é", .bool true)]

/-- Updates of two flags, one of them set twice. -/
def someUpdates : List Update := [.snarkjs true, .flag "z" .null, .snarkjs false]

/-- The same, in another order. -/
def reorderedUpdates : List Update := [.flag "z" .null, .snarkjs true, .snarkjs false]

/-- **The later value counts**, of the repeated key as of the flag that is set twice. -/
theorem after_lastWins_repeatedText :
    (ofPairs repeatedMembers).IsInitial (written repeatedText)
      ∧ ((ofPairs repeatedMembers).after someUpdates).entries.map Prod.fst
        = ["debug", "snarkjs", "z", "é"]
      ∧ ((ofPairs repeatedMembers).after someUpdates).get? "snarkjs" = some (.bool false)
      ∧ ((ofPairs repeatedMembers).after someUpdates).isEnabled "é" = true
      ∧ (ofPairs repeatedMembers).after someUpdates
        = (ofPairs repeatedMembers).after reorderedUpdates := by
  have hliteral : Json.Literal.parse? repeatedText.toList
      = some (.object [([.char 'é'], .number ⟨false, ['1'], none, none⟩),
        ("debug".toList.map .char, .bool true), ([.char 'é'], .bool true)]) := by cbv
  have hreads : parse? repeatedText = some (ofPairs repeatedMembers) := by
    rw [parse?, hliteral]
    rfl
  have hwritten : written repeatedText = repeatedMembers := by
    rw [written, hliteral]
    rfl
  have hinitial : (ofPairs repeatedMembers).IsInitial (written repeatedText) := .parsed hreads
  obtain ⟨-, -, -, hget, henabled, hsame⟩ := after_lastWins hinitial someUpdates
  rw [hwritten] at hget henabled
  refine ⟨hinitial, by rfl, hget _, (henabled _).2 rfl, (hsame _ fun name => ?_).1⟩
  by_cases hz : name = "z"
  · subst hz
    rfl
  · have hflag : (Update.flag "z" .null).name ≠ name := fun heq => hz heq.symm
    simp [someUpdates, reorderedUpdates, List.filter_cons, hflag]

end ProofToolchain.Flags
