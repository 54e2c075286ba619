import ProofToolchain.Import.Resolver

/-!
# Walks along imports

A compilation reaches its sources through the imports of the root. A walk asks a resolver for them
one after another, depth first and in text order: when an answer names a location that was not met
before, the imports of its source are asked next, and only then the rest of the importing file. A
location is entered once, with the source that was first given for it, so cycles end and a shared
file is walked once.

What remains to be asked is one list of queries. Entering a source puts its imports in front of
that list, which is all there is to going depth first. What was asked is kept in order, whether
the walk came to its end or not, so a caller can see how far it went.

Walks differ in what they pass over (`Tolerance`): one that leaves unknown imports to somebody
else goes on after an absent answer, and one that wants to see as much as it can goes on after a
raised failure. A resolver that breaks off ends every walk, and so does one that names more
locations than it said it would (`Resolver.reach`).
-/

namespace ProofToolchain

/-- The questions that a source poses, one for each of its imports, in text order. -/
def SourceUnit.queries (u : SourceUnit) : List Query :=
  (Import.scan u.source).map fun i => ⟨u.location, i.path⟩

/-- **What a walk passes over.** -/
structure Tolerance where
  /-- Imports that the resolver does not know. -/
  absent : Bool
  /-- Imports at which the resolver raises a failure. -/
  raised : Bool
  deriving DecidableEq, Repr

/-- **What ends a walk early.** -/
inductive Obstacle where
  /-- The resolver knows no such import. -/
  | absent (query : Query)
  /-- The resolver raised a failure. -/
  | raised (failure : Failure)
  /-- The resolver broke off. -/
  | crashed
  /-- The resolver named more locations than its reach. -/
  | endless
  deriving DecidableEq, Repr

/-- **A walk that has been made.** -/
structure Walk where
  /-- What was asked, in order. -/
  queries : List Query
  /-- The sources that were entered, in order, or what ended the walk. -/
  outcome : Except Obstacle (List SourceUnit)

namespace Walk

/-- A walk with one query before all others. -/
def after (w : Walk) (q : Query) : Walk :=
  { w with queries := q :: w.queries }

@[simp] theorem queries_after (w : Walk) (q : Query) : (w.after q).queries = q :: w.queries := rfl

end Walk

/-- Whether one of the sources stands at a location. -/
def SourceUnit.anyAt (units : List SourceUnit) (location : Location) : Bool :=
  units.any (·.location == location)

/-- **The walk from a point on**, given the sources entered so far, what was asked so far, the
queries still to be made and the number of sources that may still be entered. -/
def Resolver.walkFrom (r : Resolver) (tolerance : Tolerance) (budget : Nat)
    (entered : List SourceUnit) (asked pending : List Query) : Walk :=
  match pending with
  | [] => ⟨[], .ok entered⟩
  | q :: rest =>
    match r.answer asked q with
    | .found unit =>
      if SourceUnit.anyAt entered unit.location then
        (r.walkFrom tolerance budget entered (asked ++ [q]) rest).after q
      else
        match budget with
        | 0 => ⟨[q], .error .endless⟩
        | budget + 1 =>
          (r.walkFrom tolerance budget (entered ++ [unit]) (asked ++ [q])
            (unit.queries ++ rest)).after q
    | .absent =>
      if tolerance.absent then (r.walkFrom tolerance budget entered (asked ++ [q]) rest).after q
      else ⟨[q], .error (.absent q)⟩
    | .raised failure =>
      if tolerance.raised then (r.walkFrom tolerance budget entered (asked ++ [q]) rest).after q
      else ⟨[q], .error (.raised failure)⟩
    | .crashed => ⟨[q], .error .crashed⟩
termination_by (budget, pending.length)

/-- **The walk from a root**, which is entered first and stays as it is whatever the resolver has
at its location. -/
def Resolver.walk (r : Resolver) (tolerance : Tolerance) (root : SourceUnit) : Walk :=
  r.walkFrom tolerance (r.reach + root.queries.length) [root] [] root.queries

end ProofToolchain
