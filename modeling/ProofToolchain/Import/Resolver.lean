import ProofToolchain.Entries
import ProofToolchain.Error
import ProofToolchain.Import.Scan
import ProofToolchain.Location

/-!
# Resolvers

A resolver is the caller's answer to the imports a program makes: it is asked with the location of
the importing file and the path as written, and it finds a source, knows of none, raises a failure
or breaks off (`Resolution`). It may remember what it was asked before, in the same call, and
answer one question in different ways. One that does not is a `Lookup`.

A walk along imports ends when the resolver names finitely many locations. `Resolver.reach` bounds
how many those are, so that a walk knows when it is being led along an endless chain of new ones.

An engine is not handed the caller's resolver but one that is guarded (`Resolver.guarded`). The
guard keeps the first failure for the caller and passes every failure on as one message.

Three resolvers are built in, all of them lookups: one that knows nothing, one that looks sources up
by canonical location (`SourceStore`), and one that reads its answers off a table of rules (`Rule`).
-/

namespace ProofToolchain

/-- **A source text and where it stands.** Imports in the source are relative to the location. -/
structure SourceUnit where
  /-- Where the source stands. -/
  location : Location
  /-- The source text. -/
  source : String
  deriving DecidableEq, Repr

/-- **What a resolver answers.** -/
inductive Resolution where
  /-- The import stands for this source. -/
  | found (unit : SourceUnit)
  /-- The resolver knows no such import. -/
  | absent
  /-- The resolver fails, which ends the compilation. -/
  | raised (failure : Failure)
  /-- The resolver breaks off without an answer. -/
  | crashed
  deriving DecidableEq, Repr

/-- **One question to a resolver**: the importing file and the path as it is written there. -/
structure Query where
  /-- The location of the importing file. -/
  current : Location
  /-- The import path. -/
  path : String
  deriving DecidableEq, Repr

/-- **A question and its answer.** -/
structure Exchange where
  /-- What was asked. -/
  query : Query
  /-- What was answered. -/
  resolution : Resolution
  deriving DecidableEq, Repr

/-- **A resolver.** -/
structure Resolver where
  /-- The answer to a query, given what was asked before it. -/
  answer : (asked : List Query) → (query : Query) → Resolution
  /-- A bound on the number of locations that the answers name, those named after an import path
  of the root source left out. -/
  reach : Nat

namespace Resolver

/-- The answer to an import written in the file at `current`, when nothing was asked before. -/
def resolve (r : Resolver) (current : Location) (path : String) : Resolution :=
  r.answer [] ⟨current, path⟩

/-- The answers to some queries, asked one after another once `asked` was asked. -/
def exchangesAfter (r : Resolver) (asked : List Query) : List Query → List Exchange
  | [] => []
  | q :: rest => ⟨q, r.answer asked q⟩ :: r.exchangesAfter (asked ++ [q]) rest

/-- **What is said in a call** in which some queries are asked. -/
def exchanges (r : Resolver) (asked : List Query) : List Exchange :=
  r.exchangesAfter [] asked

end Resolver

/-! ## Guards -/

/-- **A guard** between a resolver and an engine. -/
structure Guard where
  /-- The first failure that the resolver raised. -/
  failure? : Option Failure := none

/-- **A guard hears an answer** and passes it on. It keeps the first failure with all its causes;
what it passes on of a failure is one message. -/
def Guard.hear (guard : Guard) : Resolution → Guard × Resolution
  | .raised failure => (⟨guard.failure?.or (some failure)⟩, .raised failure.flattened)
  | resolution => (guard, resolution)

/-- A guard hears the answers of a call. -/
def Guard.hearAll (guard : Guard) (exchanges : List Exchange) : Guard :=
  exchanges.foldl (fun guard e => (guard.hear e.resolution).1) guard

/-- **The resolver behind a guard.** What is passed on is the same whatever was heard before. -/
def Resolver.guarded (r : Resolver) : Resolver where
  answer asked q := (({} : Guard).hear (r.answer asked q)).2
  reach := r.reach

/-- The first failure that a resolver raised while it was asked some questions. -/
def Resolver.firstFailure? (r : Resolver) (asked : List Query) : Option Failure :=
  (({} : Guard).hearAll (r.exchanges asked)).failure?

/-! ## Resolvers without a memory -/

/-- **A lookup** gives one answer to one question, however often it is asked. -/
structure Lookup where
  /-- The answer to an import written in the file at `current`. -/
  resolve : (current : Location) → (path : String) → Resolution
  /-- A bound on the number of locations that the answers name, as for a resolver. -/
  reach : Nat

namespace Lookup

/-- The answer to a query. -/
def answer (l : Lookup) (q : Query) : Resolution :=
  l.resolve q.current q.path

/-- A lookup as a resolver. -/
def resolver (l : Lookup) : Resolver := ⟨fun _ q => l.answer q, l.reach⟩

/-- The lookup that knows nothing. -/
def empty : Lookup := ⟨fun _ _ => .absent, 0⟩

end Lookup

/-- **The resolver that knows nothing**, used where a caller supplies none. -/
def Resolver.empty : Resolver := Lookup.empty.resolver

/-! ## Sources by location -/

/-- **Sources that can be imported**, in the order in which they were added. -/
structure SourceStore where
  /-- The sources as they were added. -/
  units : List SourceUnit

namespace SourceStore

/-- **Add a source**, under the canonical form of its location. It replaces a source that was added
under another spelling of that. -/
def withSource (sources : Entries String) (u : SourceUnit) : Entries String :=
  sources.set (Location.canonical u.location) u.source

/-- **The sources by canonical location**, once all of them are added. -/
def sources (store : SourceStore) : Entries String :=
  store.units.foldl withSource []

/-- The source at a canonical location. -/
def find? (store : SourceStore) (location : Location) : Option String :=
  store.sources.get? location

/-- **The answer of a store**: the source at the location the import refers to. -/
def resolve (store : SourceStore) (current : Location) (path : String) : Resolution :=
  let location := Location.join current path
  match store.find? location with
  | some source => .found ⟨location, source⟩
  | none => .absent

/-- The lookup in a store. -/
def lookup (store : SourceStore) : Lookup :=
  ⟨store.resolve, store.units.length⟩

/-- The resolver that looks imports up in a store. -/
def resolver (store : SourceStore) : Resolver := store.lookup.resolver

end SourceStore

/-! ## Answers by rule -/

/-- **What a rule answers.** -/
inductive Answer where
  /-- Nothing is known. -/
  | absent
  /-- A source, located at the import path itself where no location is given. -/
  | source (text : String) (location : Option Location)
  /-- A failure. -/
  | failure (failure : Failure)
  /-- No answer at all. -/
  | crash
  deriving DecidableEq, Repr

/-- **A rule**: the queries it applies to and its answer. A missing location or path applies to
all of them. -/
structure Rule where
  /-- The importing file that the rule is for. -/
  current? : Option Location
  /-- The import path that the rule is for. -/
  path? : Option String
  /-- The answer. -/
  answer : Answer
  deriving DecidableEq, Repr

namespace Rule

/-- Whether a rule applies to a query. -/
def applies (r : Rule) (current : Location) (path : String) : Bool :=
  r.current?.all (· == current) && r.path?.all (· == path)

/-- The resolution that a rule gives to an import path. -/
def resolution (r : Rule) (path : String) : Resolution :=
  match r.answer with
  | .absent => .absent
  | .source text location => .found ⟨location.getD path, text⟩
  | .failure failure => .raised failure
  | .crash => .crashed

/-- The number of locations that a rule can name, and that imports in its source can ask it
for. -/
def reach (r : Rule) : Nat :=
  match r.answer with
  | .source text _ => 1 + (Import.scan text).length
  | _ => 0

end Rule

/-- The lookup that answers by the first rule that applies. -/
def Lookup.ofRules (rules : List Rule) : Lookup where
  resolve current path :=
    match rules.find? (·.applies current path) with
    | some rule => rule.resolution path
    | none => .absent
  reach := (rules.map Rule.reach).foldr (· + ·) 0

/-- The resolver that answers by the first rule that applies. -/
def Resolver.ofRules (rules : List Rule) : Resolver := (Lookup.ofRules rules).resolver

end ProofToolchain
