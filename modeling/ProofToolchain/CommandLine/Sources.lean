import ProofToolchain.CommandLine.Host
import ProofToolchain.Engine
import ProofToolchain.Text.Numeral

/-!
# Source trees

A compiler that looks imports up in its working directory is given all sources of a compilation as
files there. The sources are numbered in the order in which they are met, the root being number
zero, and each is written to a file named for its number. An import that the resolver finds is
written as the path of the file it stands for. An import that it does not know is left as it is, so
the compiler looks for it itself.

A source is met before the sources that it imports and written after them, since their stems go
into its text. That a location has its stem before its imports are asked for is what makes cycles
end: while a call for it is under way, other calls find the stem there.

Only the path between the quotes is replaced. All other bytes of a source are copied.
-/

namespace ProofToolchain.CommandLine

/-! ## One source -/

/-- **A source whose import paths are being replaced.** -/
structure Rewriting where
  /-- The bytes of the source. -/
  source : Bytes
  /-- What is written for them so far. -/
  rewritten : Bytes := []
  /-- How many bytes of the source that stands for. -/
  copiedTo : Nat := 0

namespace Rewriting

/-- The path of an import is replaced by that of the file with a stem. The text up to it is
copied. -/
def replace (text : Rewriting) (i : Import) (stem : String) : Rewriting :=
  { text with
    rewritten := text.rewritten ++ (text.source.take i.start).drop text.copiedTo
      ++ Text.Utf8.encode "./" ++ Text.Utf8.encode stem
    copiedTo := i.stop }

/-- The text with all that is left copied. -/
def finish (text : Rewriting) : Bytes :=
  text.rewritten ++ text.source.drop text.copiedTo

end Rewriting

/-! ## All sources -/

/-- **A source tree that is being written.** -/
structure Writing where
  /-- The stems of the locations met so far. -/
  stems : Entries String := []
  /-- What the resolver was asked, in order. -/
  asked : List Query := []
  /-- The files that were written, in order. -/
  saved : List (String × Bytes) := []

namespace SourceTree

/-- What the file of a number is called, without its extension. -/
def stem (number : Nat) : String :=
  String.ofList ("src_".toList ++ Text.decimal number)

/-- What the file with a stem is called. -/
def withExtension (stem : String) : String := stem ++ ".zok"

/-- A location gets the next stem. -/
def register (location : Location) : Run Writing String := do
  let number := (← get).stems.length
  modify fun w => { w with stems := w.stems.set location (stem number) }
  return stem number

/-- The resolver is asked. -/
def ask (resolver : Resolver) (q : Query) : Run Writing Resolution := do
  let asked := (← get).asked
  modify fun w => { w with asked := asked ++ [q] }
  return resolver.answer asked q

/-- A file is written beside those there are. -/
def save (host : Host) (name : String) (content : Bytes) : Run Writing Unit := do
  match host.writeFailure? (Entries.setAll [] (← get).saved) name content with
  | some e => Run.fail (.host e)
  | none => modify fun w => { w with saved := w.saved ++ [(name, content)] }

/-- **The imports of a source are made**, one after another. What an import leads to is written, and
the stem of that replaces the import's path. -/
def writeImports (resolver : Resolver) (write : SourceUnit → Run Writing String)
    (location : Location) (text : Rewriting) : List Import → Run Writing Rewriting
  | [] => return text
  | i :: rest => do
    match ← ask resolver ⟨location, i.path⟩ with
    | .found unit =>
      let stem ← write unit
      writeImports resolver write location (text.replace i stem) rest
    | .absent => writeImports resolver write location text rest
    | .raised failure => Run.fail (resolverError failure)
    | .crashed => throw .crashed

/-- **A source is written** with all that it imports, unless its location was met before. Its stem
is yielded. No more locations are met than `limit`, and calls are not nested deeper than `depth`. -/
def writeUnit (host : Host) (resolver : Resolver) (limit : Nat) (depth : Nat) (unit : SourceUnit) :
    Run Writing String := do
  match (← get).stems.get? unit.location with
  | some stem => return stem
  | none =>
    if limit ≤ (← get).stems.length then throw .endless
    match depth with
    | 0 => throw .endless
    | depth + 1 =>
      let stem ← register unit.location
      let text ← writeImports resolver (writeUnit host resolver limit depth) unit.location
        { source := Text.Utf8.encode unit.source } (Import.scan unit.source)
      save host (withExtension stem) text.finish
      return stem

/-- **A root source is written** with all that it imports. -/
def writeRoot (host : Host) (resolver : Resolver) (root : SourceUnit) : Run Writing String :=
  let limit := 1 + resolver.reach + root.queries.length
  writeUnit host resolver limit limit root

end SourceTree

end ProofToolchain.CommandLine
