import ProofToolchain.Text.Blank

/-!
# Locations

A location names a source file by the segments of a path. Two spellings can name one file, so a
location is brought into **canonical** form before it is compared: empty segments and `.` are
dropped, `..` takes back the segment before it, and a file name without a dot gets the extension
`.zok`. A `..` with nothing to take back is kept, since the path then leaves its root; canonical
locations are therefore some `..` followed by ordinary names.

An import path is read relative to the importing file exactly when it starts with `./` or `../`
(`Location.join`); any other path is a location of its own.
-/

namespace ProofToolchain

/-- Where a source text stands, as segments separated by slashes. -/
abbrev Location := String

namespace Location

/-- The segment that names the directory itself. -/
def here : List Char := ['.']

/-- The segment that names the parent directory. -/
def parent : List Char := ['.', '.']

/-- **One segment of a path walk.** `stack` holds the segments walked so far, the last one
first. -/
def enter (stack : List (List Char)) (segment : List Char) : List (List Char) :=
  if segment = [] ∨ segment = here then stack
  else if segment = parent then
    match stack with
    | [] => [parent]
    | top :: rest => if top = parent then parent :: stack else rest
  else segment :: stack

/-- The segments that remain of a path, first one first. -/
def walk (segments : List (List Char)) : List (List Char) :=
  (segments.foldl enter []).reverse

/-- The segments of a path as it is written. -/
def segments (path : List Char) : List (List Char) :=
  Text.split (· == '/') path

/-- Whether a file name carries an extension: it holds a dot and is not the parent directory. -/
def hasExtension (name : List Char) : Bool :=
  name.contains '.' && name != parent

/-- The segments of a location put together, with the extension added where the last one has
none. -/
def render (names : List (List Char)) : List Char :=
  let joined := Text.join ['/'] names
  if names.getLast?.any hasExtension then joined else joined ++ ['.', 'z', 'o', 'k']

/-- The canonical spelling of a path. -/
def canonicalChars (path : List Char) : List Char :=
  render (walk (segments path))

/-- **The canonical spelling of a location.** -/
def canonical (location : Location) : Location :=
  String.ofList (canonicalChars location.toList)

/-- Whether an import path is read relative to the importing file. -/
def isRelative (path : List Char) : Bool :=
  ['.', '/'].isPrefixOf path || ['.', '.', '/'].isPrefixOf path

/-- The directory part of a path: everything before its last slash, if it has one. -/
def directory? (path : List Char) : Option (List Char) :=
  let names := segments path
  if names.length ≤ 1 then none else some (Text.join ['/'] names.dropLast)

/-- The canonical location of an import path written in the file at `current`. -/
def joinChars (current path : List Char) : List Char :=
  if isRelative path then
    match directory? current with
    | some dir => canonicalChars (dir ++ '/' :: path)
    | none => canonicalChars path
  else canonicalChars path

/-- **The location an import refers to**, in canonical form. -/
def join (current path : Location) : Location :=
  String.ofList (joinChars current.toList path.toList)

@[simp] theorem toList_canonical (location : Location) :
    (canonical location).toList = canonicalChars location.toList := by
  simp [canonical]

@[simp] theorem toList_join (current path : Location) :
    (join current path).toList = joinChars current.toList path.toList := by
  simp [join]

/-- A path that is not relative stands for itself, whatever file it is written in. -/
theorem join_of_not_isRelative {path : Location} (h : isRelative path.toList = false)
    (current : Location) : join current path = canonical path := by
  simp [join, joinChars, canonical, h]

end Location

end ProofToolchain
