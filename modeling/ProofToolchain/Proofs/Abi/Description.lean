import ProofToolchain.Abi.Output

/-!
# What a description of a type says

An interface describes the output type of a program by a name and by what the compiler wrote under
`components`. A description that lacks nothing says one type (`Describes`): a composite has its
size, its elements or its members, and whatever is nested in it has the name of its type, a member
of a struct its own name as well. Reading such a description comes to that type and to no flaw
(`Describes.describe_eq`).

A type has as many **leaves** as it is made of scalars (`leaves`). They stand in a fixed order,
which is the order of the description, so each has a scalar type by its place (`scalars`).
-/

namespace ProofToolchain.OutputType

/-! ## Complete descriptions -/

mutual

/-- **A description that lacks nothing**, and the type that it says. -/
inductive Describes : (name : String) → (components : Option Json) → OutputType → Prop
  /-- A name that is none of a composite is that of a scalar, whatever its components are. -/
  | scalar {name : String} {components : Option Json} (harray : name ≠ "array")
      (htuple : name ≠ "tuple") (hstruct : name ≠ "struct") :
      Describes name components (.scalar name)
  /-- An array has a size, and the type of its elements stands beside that. -/
  | array {c : Json} {size : Nat} {element : OutputType}
      (hsize : (c.get? "size").bind Json.nat? = some size)
      (helement : DescribesNested c element) : Describes "array" (some c) (.array size element)
  /-- A tuple has elements. -/
  | tuple {c : Json} {items : List Json} {elements : List OutputType}
      (hitems : (c.get? "elements").bind Json.items? = some items)
      (helements : DescribesElements items elements) :
      Describes "tuple" (some c) (.tuple elements)
  /-- A struct has members. -/
  | struct {c : Json} {items : List Json} {members : List (String × OutputType)}
      (hitems : (c.get? "members").bind Json.items? = some items)
      (hmembers : DescribesMembers items members) : Describes "struct" (some c) (.struct members)

/-- A nested description that lacks nothing: the name of its type is written too. -/
inductive DescribesNested : (item : Json) → OutputType → Prop
  | mk {item : Json} {name : String} {t : OutputType}
      (hname : (item.get? "type").bind Json.string? = some name)
      (ht : Describes name (item.get? "components") t) : DescribesNested item t

/-- The descriptions of a tuple's elements. -/
inductive DescribesElements : (items : List Json) → List OutputType → Prop
  | nil : DescribesElements [] []
  | cons {item : Json} {items : List Json} {t : OutputType} {ts : List OutputType}
      (ht : DescribesNested item t) (hts : DescribesElements items ts) :
      DescribesElements (item :: items) (t :: ts)

/-- The descriptions of a struct's members, which have names. -/
inductive DescribesMembers : (items : List Json) → List (String × OutputType) → Prop
  | nil : DescribesMembers [] []
  | cons {item : Json} {items : List Json} {name : String} {t : OutputType}
      {ts : List (String × OutputType)}
      (hname : (item.get? "name").bind Json.string? = some name) (ht : DescribesNested item t)
      (hts : DescribesMembers items ts) : DescribesMembers (item :: items) ((name, t) :: ts)

end

/-! ## Reading a complete description -/

/-- What is read off a nested description. -/
def describeNested (item : Json) : OutputType :=
  match (item.get? "type").bind Json.string? with
  | none => .malformed .unnamedType
  | some name => describe name (item.get? "components")

/-- What is read off the description of a struct member. -/
def describeMember (item : Json) : String × OutputType :=
  match (item.get? "name").bind Json.string? with
  | none => ("", .malformed .memberWithoutName)
  | some name =>
    match (item.get? "type").bind Json.string? with
    | none => (name, .malformed .unnamedType)
    | some inner => (name, describe inner (item.get? "components"))

section Reading

variable {c : Json}

theorem describe_scalar {name : String} (harray : name ≠ "array") (htuple : name ≠ "tuple")
    (hstruct : name ≠ "struct") (components : Option Json) :
    describe name components = .scalar name := by
  rw [describe.eq_def, if_neg harray, if_neg htuple, if_neg hstruct]

theorem describe_array {size : Nat} {name : String}
    (hsize : (c.get? "size").bind Json.nat? = some size)
    (hname : (c.get? "type").bind Json.string? = some name) :
    describe "array" (some c) = .array size (describe name (c.get? "components")) := by
  rw [describe.eq_def]
  simp only [if_true, Option.bind_some, hsize, hname]

theorem describe_tuple {items : List Json}
    (hitems : (c.get? "elements").bind Json.items? = some items) :
    describe "tuple" (some c) = .tuple (items.map describeNested) := by
  rw [describe.eq_def, if_neg (by decide), if_pos rfl]
  dsimp only
  split
  · next h =>
    rw [hitems] at h
    cases h
  · next found h =>
    obtain rfl : items = found := Option.some.inj (hitems.symm.trans h)
    exact congrArg tuple (List.attach_map_val (f := describeNested))

theorem describe_struct {items : List Json}
    (hitems : (c.get? "members").bind Json.items? = some items) :
    describe "struct" (some c) = .struct (items.map describeMember) := by
  rw [describe.eq_def, if_neg (by decide), if_neg (by decide), if_pos rfl]
  dsimp only
  split
  · next h =>
    rw [hitems] at h
    cases h
  · next found h =>
    obtain rfl : items = found := Option.some.inj (hitems.symm.trans h)
    exact congrArg struct (List.attach_map_val (f := describeMember))

end Reading

mutual

/-- **A description that lacks nothing is read as the type that it says.** -/
theorem Describes.describe_eq : ∀ {name : String} {components : Option Json} {t : OutputType},
    Describes name components t → describe name components = t
  | _, _, _, .scalar harray htuple hstruct => describe_scalar harray htuple hstruct _
  | _, _, _, .array hsize (.mk hname ht) => by rw [describe_array hsize hname, ht.describe_eq]
  | _, _, _, .tuple hitems helements => by rw [describe_tuple hitems, helements.map_eq]
  | _, _, _, .struct hitems hmembers => by rw [describe_struct hitems, hmembers.map_eq]

theorem DescribesNested.describeNested_eq : ∀ {item : Json} {t : OutputType},
    DescribesNested item t → describeNested item = t
  | _, _, .mk hname ht => by rw [describeNested, hname, ← ht.describe_eq]

theorem DescribesElements.map_eq : ∀ {items : List Json} {ts : List OutputType},
    DescribesElements items ts → items.map describeNested = ts
  | _, _, .nil => rfl
  | _, _, .cons ht hts => by rw [List.map_cons, ht.describeNested_eq, hts.map_eq]

theorem DescribesMembers.map_eq : ∀ {items : List Json} {ts : List (String × OutputType)},
    DescribesMembers items ts → items.map describeMember = ts
  | _, _, .nil => rfl
  | _, _, .cons hname (.mk htype ht) hts => by
    rw [List.map_cons, describeMember, hname, htype, ← ht.describe_eq, ← hts.map_eq]

end

/-! ## Leaves -/

mutual

/-- **The number of scalars** that a value of a type is made of. -/
def leaves : OutputType → Nat
  | .scalar _ => 1
  | .array size element => size * element.leaves
  | .tuple elements => leavesOfElements elements
  | .struct members => leavesOfMembers members
  | .malformed _ => 0

/-- The number of scalars in the elements of a tuple. -/
def leavesOfElements : List OutputType → Nat
  | [] => 0
  | t :: ts => t.leaves + leavesOfElements ts

/-- The number of scalars in the members of a struct. -/
def leavesOfMembers : List (String × OutputType) → Nat
  | [] => 0
  | (_, t) :: ts => t.leaves + leavesOfMembers ts

end

mutual

/-- **The scalar types at the leaves**, in the order of the description. -/
def scalars : OutputType → List String
  | .scalar name => [name]
  | .array size element => (List.replicate size element.scalars).flatten
  | .tuple elements => scalarsOfElements elements
  | .struct members => scalarsOfMembers members
  | .malformed _ => []

/-- The scalar types in the elements of a tuple. -/
def scalarsOfElements : List OutputType → List String
  | [] => []
  | t :: ts => t.scalars ++ scalarsOfElements ts

/-- The scalar types in the members of a struct. -/
def scalarsOfMembers : List (String × OutputType) → List String
  | [] => []
  | (_, t) :: ts => t.scalars ++ scalarsOfMembers ts

end

mutual

/-- There is one scalar type for each leaf. -/
theorem length_scalars : ∀ t : OutputType, t.scalars.length = t.leaves
  | .scalar _ => rfl
  | .array size element => by simp [scalars, leaves, length_scalars element]
  | .tuple elements => length_scalarsOfElements elements
  | .struct members => length_scalarsOfMembers members
  | .malformed _ => rfl

theorem length_scalarsOfElements :
    ∀ ts : List OutputType, (scalarsOfElements ts).length = leavesOfElements ts
  | [] => rfl
  | t :: ts => by
    rw [scalarsOfElements, leavesOfElements, List.length_append, length_scalars t,
      length_scalarsOfElements ts]

theorem length_scalarsOfMembers :
    ∀ ts : List (String × OutputType), (scalarsOfMembers ts).length = leavesOfMembers ts
  | [] => rfl
  | (_, t) :: ts => by
    rw [scalarsOfMembers, leavesOfMembers, List.length_append, length_scalars t,
      length_scalarsOfMembers ts]

end

mutual

/-- **Whether the members of every struct have different names.** -/
def HasDistinctNames : OutputType → Prop
  | .scalar _ => True
  | .array _ element => element.HasDistinctNames
  | .tuple elements => ElementsHaveDistinctNames elements
  | .struct members => (members.map Prod.fst).Nodup ∧ MembersHaveDistinctNames members
  | .malformed _ => True

/-- Whether that is so in all elements of a tuple. -/
def ElementsHaveDistinctNames : List OutputType → Prop
  | [] => True
  | t :: ts => t.HasDistinctNames ∧ ElementsHaveDistinctNames ts

/-- Whether that is so in all members of a struct. -/
def MembersHaveDistinctNames : List (String × OutputType) → Prop
  | [] => True
  | (_, t) :: ts => t.HasDistinctNames ∧ MembersHaveDistinctNames ts

end

end ProofToolchain.OutputType
