import ProofToolchain.Json.Token

/-!
# The structure of a JSON text

A **literal** is a JSON value as it is written: members in the order of the text, keys repeated as
often as they are repeated there, numbers as digits and strings as units. Records are read off
literals, since which members were written, and how often, is what they ask about.

Literals are built by a machine that takes one token at a time and keeps the open arrays and
objects on a stack. It has no recursion of its own and never looks ahead, so a text of any depth
is read in one pass over its tokens (`Literal.ofTokens?`).
-/

namespace ProofToolchain.Json

/-- **A value as it is written.** -/
inductive Literal where
  /-- `null` -/
  | null
  /-- A truth value. -/
  | bool (value : Bool)
  /-- A number, by its digits. -/
  | number (text : NumberText)
  /-- A string, by its units. -/
  | string (units : List StringUnit)
  /-- An array. -/
  | array (items : List Literal)
  /-- An object, members as they are written. -/
  | object (members : List (List StringUnit × Literal))

namespace Literal

/-- **An open container** and what it holds so far, the last item first. -/
inductive Frame where
  /-- An array whose next item is being read. -/
  | array (done : List Literal)
  /-- An object whose member `key` is being read. -/
  | object (done : List (List StringUnit × Literal)) (key : List StringUnit)

/-- **Where the machine stands**: what may come next, inside the open containers on the stack. -/
inductive State where
  /-- A value. -/
  | value (stack : List Frame)
  /-- After `[`: a value or the end of the array. -/
  | firstItem (stack : List Frame)
  /-- After `{`: a key or the end of the object. -/
  | firstKey (stack : List Frame)
  /-- After a comma in an object: a key. -/
  | key (done : List (List StringUnit × Literal)) (stack : List Frame)
  /-- After a key: a colon. -/
  | colon (done : List (List StringUnit × Literal)) (key : List StringUnit) (stack : List Frame)
  /-- After a value: a comma or the end of the innermost container. -/
  | after (value : Literal) (stack : List Frame)

/-- A token where a value is expected. -/
def stepValue (stack : List Frame) : Token → Option State
  | .null => some (.after .null stack)
  | .bool b => some (.after (.bool b) stack)
  | .number n => some (.after (.number n) stack)
  | .string s => some (.after (.string s) stack)
  | .openArray => some (.firstItem stack)
  | .openObject => some (.firstKey stack)
  | _ => none

/-- A token after a value. -/
def stepAfter (v : Literal) : List Frame → Token → Option State
  | .array done :: stack, .comma => some (.value (.array (v :: done) :: stack))
  | .array done :: stack, .closeArray => some (.after (.array (v :: done).reverse) stack)
  | .object done key :: stack, .comma => some (.key ((key, v) :: done) stack)
  | .object done key :: stack, .closeObject =>
    some (.after (.object ((key, v) :: done).reverse) stack)
  | _, _ => none

/-- **One token.** -/
def step : State → Token → Option State
  | .value stack, t => stepValue stack t
  | .firstItem stack, .closeArray => some (.after (.array []) stack)
  | .firstItem stack, t => stepValue (.array [] :: stack) t
  | .firstKey stack, .closeObject => some (.after (.object []) stack)
  | .firstKey stack, .string key => some (.colon [] key stack)
  | .firstKey _, _ => none
  | .key done stack, .string key => some (.colon done key stack)
  | .key _ _, _ => none
  | .colon done key stack, .colon => some (.value (.object done key :: stack))
  | .colon _ _ _, _ => none
  | .after v stack, t => stepAfter v stack t

/-- The state after a run of tokens. -/
def run (state : State) (tokens : List Token) : Option State :=
  tokens.foldlM step state

/-- The value that a run of tokens spells. -/
def ofTokens? (tokens : List Token) : Option Literal :=
  match run (.value []) tokens with
  | some (.after v []) => some v
  | _ => none

/-- **The value that a text spells.** -/
def parse? (text : List Char) : Option Literal :=
  (tokens? text).bind ofTokens?

@[simp] theorem run_nil (state : State) : run state [] = some state := rfl

@[simp] theorem run_cons (state : State) (t : Token) (ts : List Token) :
    run state (t :: ts) = (step state t).bind (run · ts) := by
  simp [run, List.foldlM_cons]

theorem run_append (state : State) (a b : List Token) :
    run state (a ++ b) = (run state a).bind (run · b) := by
  simp [run, List.foldlM_append]

end Literal

end ProofToolchain.Json
