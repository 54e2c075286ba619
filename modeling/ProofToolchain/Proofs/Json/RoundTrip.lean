import ProofToolchain.Json.Literal
import ProofToolchain.Json.Reading
import ProofToolchain.Proofs.Json.Spelling

/-!
# Values are read as they were written

A value is written as a text, a text is cut into tokens, tokens make a literal, and a literal makes
a value. Each of the three ways back is the inverse of the way there, so reading a text that was
written gives the value again (`Json.parse?_text`).

There are two limits to it. A text that nests more than 127 arrays and objects is not read, and
that is how much the value nests (`Json.depth`). And of members with one key the last one counts,
in key order, so what comes back has its members sorted (`Json.sorted`). The numbers of the value
are taken to be integers that a machine word holds (`Json.HoldsWords`); doubles are another matter.
-/

namespace ProofToolchain.Json

/-! ## Literals and their tokens -/

namespace Literal

mutual

/-- **The tokens of a literal.** -/
def tokens : Literal → List Token
  | .null => [.null]
  | .bool value => [.bool value]
  | .number text => [.number text]
  | .string units => [.string units]
  | .array items => .openArray :: (itemsTokens items ++ [.closeArray])
  | .object members => .openObject :: (membersTokens members ++ [.closeObject])

/-- The tokens of several items, with commas between them. -/
def itemsTokens : List Literal → List Token
  | [] => []
  | [item] => tokens item
  | item :: rest => tokens item ++ .comma :: itemsTokens rest

/-- The tokens of several members, with commas between them. -/
def membersTokens : List (List StringUnit × Literal) → List Token
  | [] => []
  | [(key, value)] => .string key :: .colon :: tokens value
  | (key, value) :: rest =>
    .string key :: .colon :: (tokens value ++ .comma :: membersTokens rest)

end

/-- A literal starts with a token that closes nothing. -/
theorem exists_tokens_eq_cons (l : Literal) :
    ∃ t ts, l.tokens = t :: ts ∧ t ≠ .closeArray := by
  cases l <;> exact ⟨_, _, rfl, nofun⟩

theorem exists_itemsTokens_eq_cons (item : Literal) (rest : List Literal) :
    ∃ t ts, itemsTokens (item :: rest) = t :: ts ∧ t ≠ .closeArray := by
  obtain ⟨t, ts, htokens, ht⟩ := item.exists_tokens_eq_cons
  cases rest with
  | nil => exact ⟨t, ts, htokens, ht⟩
  | cons next rest =>
    refine ⟨t, ts ++ .comma :: itemsTokens (next :: rest), ?_, ht⟩
    rw [itemsTokens, htokens]
    · rfl
    · exact fun h => by cases h

/-- After `[` a first item is read as any other. -/
theorem run_firstItem {t : Token} (h : t ≠ .closeArray) (stack : List Frame) (ts : List Token) :
    run (.firstItem stack) (t :: ts) = run (.value (.array [] :: stack)) (t :: ts) := by
  rw [run_cons, run_cons]
  cases t with
  | closeArray => exact absurd rfl h
  | _ => rfl

mutual

/-- **The tokens of a literal make it**, inside whatever containers are open. -/
theorem run_tokens (stack : List Frame) : (l : Literal) →
    run (.value stack) l.tokens = some (.after l stack)
  | .null | .bool _ | .number _ | .string _ => rfl
  | .array [] => rfl
  | .array (item :: rest) => by
    obtain ⟨t, ts, htokens, ht⟩ := exists_itemsTokens_eq_cons item rest
    have hitems := run_itemsTokens [] stack (item :: rest) (List.cons_ne_nil _ _)
    rw [htokens] at hitems
    rw [tokens, htokens, run_cons]
    exact (run_firstItem ht stack _).trans hitems
  | .object [] => rfl
  | .object ((key, value) :: rest) => by
    have hmembers := run_membersTokens [] stack ((key, value) :: rest) (List.cons_ne_nil _ _)
    rw [tokens, run_cons]
    cases rest with
    | nil => exact hmembers
    | cons next rest => exact hmembers

/-- The tokens of items make them the rest of an array. -/
theorem run_itemsTokens (done : List Literal) (stack : List Frame) : (items : List Literal) →
    items ≠ [] →
    run (.value (.array done :: stack)) (itemsTokens items ++ [.closeArray])
      = some (.after (.array (done.reverse ++ items)) stack)
  | [], h => absurd rfl h
  | [item], _ => by
    rw [itemsTokens, run_append, run_tokens (.array done :: stack) item]
    simp [step, stepAfter]
  | item :: next :: rest, _ => by
    have hrest := run_itemsTokens (item :: done) stack (next :: rest) (List.cons_ne_nil _ _)
    rw [itemsTokens, List.append_assoc, run_append, run_tokens (.array done :: stack) item]
    · rw [List.reverse_cons, List.append_assoc] at hrest
      exact hrest
    · exact fun h => by cases h

/-- The tokens of members make them the rest of an object. -/
theorem run_membersTokens (done : List (List StringUnit × Literal)) (stack : List Frame) :
    (members : List (List StringUnit × Literal)) → members ≠ [] →
    run (.key done stack) (membersTokens members ++ [.closeObject])
      = some (.after (.object (done.reverse ++ members)) stack)
  | [], h => absurd rfl h
  | [(key, value)], _ => by
    have hvalue := run_tokens (.object done key :: stack) value
    rw [membersTokens]
    show run (.value (.object done key :: stack)) (tokens value ++ [.closeObject]) = _
    rw [run_append, hvalue]
    simp [step, stepAfter]
  | (key, value) :: next :: rest, _ => by
    have hvalue := run_tokens (.object done key :: stack) value
    have hrest := run_membersTokens ((key, value) :: done) stack (next :: rest)
      (List.cons_ne_nil _ _)
    rw [membersTokens]
    · show run (.value (.object done key :: stack))
        ((tokens value ++ .comma :: membersTokens (next :: rest)) ++ [.closeObject]) = _
      rw [List.append_assoc, run_append, hvalue]
      rw [List.reverse_cons, List.append_assoc] at hrest
      exact hrest
    · exact fun h => by cases h

end

/-- **The tokens of a literal make it.** -/
theorem ofTokens?_tokens (l : Literal) : ofTokens? l.tokens = some l := by
  rw [ofTokens?, run_tokens]

end Literal

/-! ## The literal of a value -/

/-- The digits that a number is written with. A double has digits of its own, which are not looked
at here. -/
def Number.spelling : Number → NumberText
  | .integer value => Json.spelling value
  | .double value => ⟨value.negative, [], none, none⟩

mutual

/-- **The literal that a value is written as.** -/
def literal : Json → Literal
  | .null => .null
  | .bool value => .bool value
  | .number value => .number value.spelling
  | .string value => .string (unitsOf value)
  | .array items => .array (itemLiterals items)
  | .object members => .object (memberLiterals members)

/-- The literals of several items. -/
def itemLiterals : List Json → List Literal
  | [] => []
  | item :: rest => literal item :: itemLiterals rest

/-- The literals of several members. -/
def memberLiterals : List (String × Json) → List (List StringUnit × Literal)
  | [] => []
  | (key, value) :: rest => (unitsOf key, literal value) :: memberLiterals rest

end

mutual

/-- **Every number of a value is an integer that a machine word holds.** -/
def HoldsWords : Json → Prop
  | .number (.integer value) => IsWord value
  | .number (.double _) => False
  | .array items => ItemsHoldWords items
  | .object members => MembersHoldWords members
  | .null | .bool _ | .string _ => True

/-- So is every number of several items. -/
def ItemsHoldWords : List Json → Prop
  | [] => True
  | item :: rest => HoldsWords item ∧ ItemsHoldWords rest

/-- So is every number of several members. -/
def MembersHoldWords : List (String × Json) → Prop
  | [] => True
  | (_, value) :: rest => HoldsWords value ∧ MembersHoldWords rest

end

/-- Items hold words one by one. -/
theorem itemsHoldWords_iff {items : List Json} :
    ItemsHoldWords items ↔ ∀ item ∈ items, item.HoldsWords := by
  induction items with
  | nil => simp [ItemsHoldWords]
  | cons item rest ih => simp [ItemsHoldWords, ih]

/-- Members hold words one by one. -/
theorem membersHoldWords_iff {members : List (String × Json)} :
    MembersHoldWords members ↔ ∀ m ∈ members, m.2.HoldsWords := by
  induction members with
  | nil => simp [MembersHoldWords]
  | cons m rest ih => simp [MembersHoldWords, ih]

/-- Members keep their numbers when they are sorted. -/
theorem holdsWords_ofMembers {members : List (String × Json)} (h : MembersHoldWords members) :
    (ofMembers members).HoldsWords := by
  rw [membersHoldWords_iff] at h
  exact membersHoldWords_iff.2 fun m hm =>
    (Entries.mem_setAll hm).elim (fun hnil => absurd hnil List.not_mem_nil) (h m)

/-! ## Cutting what was written -/

theorem tokens?_of_isBlank {c : Char} (h : isBlank c = true) (cs : List Char) :
    tokens? (c :: cs) = tokens? cs := by
  rw [tokens?, if_pos h]

/-- A token is cut off, and then the text after it is cut. -/
theorem tokens?_of_not_isBlank {c : Char} (h : isBlank c = false) (cs : List Char) :
    tokens? (c :: cs)
      = (nextToken c cs).bind fun found => (tokens? found.2).map (found.1 :: ·) := by
  rw [tokens?]
  simp only [h, Bool.false_eq_true, if_false]
  split
  · next hnone => rw [hnone]; rfl
  · next hsome => rw [hsome]; rfl

/-- **A token is cut off** in front of a text that is cut into tokens. -/
theorem tokens?_cons {c : Char} {cs rest : List Char} {t : Token} {ts : List Token}
    (hblank : isBlank c = false) (h : nextToken c cs = some (t, rest))
    (hrest : tokens? rest = some ts) : tokens? (c :: cs) = some (t :: ts) := by
  rw [tokens?_of_not_isBlank hblank, h, Option.bind_some, hrest, Option.map_some]

/-- A digit is nothing else that starts a token. -/
theorem nextToken_digit {c : Char} (h : c.isDigit = true) (cs : List Char) :
    nextToken c cs = (readNumber false (c :: cs)).map fun read => (.number read.1, read.2) := by
  unfold nextToken
  split
  all_goals first | exact absurd h (by decide) | skip
  rw [if_pos h]

/-- A digit is no blank. -/
theorem isBlank_of_isDigit {c : Char} (h : c.isDigit = true) : isBlank c = false := by
  simp only [isBlank, Bool.or_eq_false_iff, beq_eq_false_iff_ne, ne_eq]
  refine ⟨⟨⟨?_, ?_⟩, ?_⟩, ?_⟩ <;> rintro rfl <;> exact absurd h (by decide)

section Written

variable {rest : List Char} {ts : List Token} (hrest : tokens? rest = some ts)

include hrest

/-- **An integer is one token**, before a text that cannot go on with it. -/
theorem tokens?_decimalInt (value : Int) (hstop : StopsNumber rest) :
    tokens? (Text.decimalInt value ++ rest) = some (.number (spelling value) :: ts) := by
  unfold Text.decimalInt spelling
  split
  · next hneg =>
    refine tokens?_cons (by decide) ?_ hrest
    show (readNumber true (Text.decimal value.natAbs ++ rest)).map _ = _
    rw [readNumber_decimal true value.natAbs hstop]
    simp [hneg]
  · next hneg =>
    cases hdigits : Text.decimal value.natAbs with
    | nil => exact absurd hdigits (decimal_ne_nil _)
    | cons c cs =>
      have hc : c.isDigit = true := Text.isDigit_of_mem_decimal (hdigits ▸ List.mem_cons_self)
      have hread := readNumber_decimal false value.natAbs hstop
      rw [hdigits] at hread
      refine tokens?_cons (isBlank_of_isDigit hc) ?_ hrest
      rw [nextToken_digit hc]
      show (readNumber false (c :: cs ++ rest)).map _ = _
      rw [hread]
      simp [hneg]

/-- **A string is one token.** -/
theorem tokens?_quote (s : String) :
    tokens? (quote s ++ rest) = some (.string (unitsOf s) :: ts) := by
  have htext : quote s ++ rest = '"' :: (s.toList.flatMap escape ++ '"' :: rest) := by
    simp [quote]
  rw [htext]
  refine tokens?_cons (by decide) ?_ hrest
  show (readUnits (s.toList.flatMap escape ++ '"' :: rest)).map _ = _
  rw [readUnits_flatMap_escape]
  rfl

end Written

/-- What closes or separates stops a number. -/
theorem stopsNumber_cons {c : Char} (h : c.isDigit = false ∧ c ≠ '.' ∧ c ≠ 'e' ∧ c ≠ 'E')
    (rest : List Char) : StopsNumber (c :: rest) := by
  intro d hd
  cases hd
  exact h

mutual

/-- **A value is cut into the tokens of its literal**, before a text that cannot go on with it. -/
theorem tokens?_chars {rest : List Char} {ts : List Token} (hrest : tokens? rest = some ts)
    (hstop : StopsNumber rest) : (j : Json) → j.HoldsWords →
    tokens? (j.chars ++ rest) = some (j.literal.tokens ++ ts)
  | .null, _ => tokens?_cons (by decide) rfl hrest
  | .bool true, _ => tokens?_cons (by decide) rfl hrest
  | .bool false, _ => tokens?_cons (by decide) rfl hrest
  | .number (.integer value), _ => tokens?_decimalInt hrest value hstop
  | .number (.double _), h => h.elim
  | .string value, _ => tokens?_quote hrest value
  | .array items, h => by
    have hclose : tokens? (']' :: rest) = some (.closeArray :: ts) :=
      tokens?_cons (by decide) rfl hrest
    have hitems := tokens?_itemsChars hclose (stopsNumber_cons (by decide) rest) items h
    have htext : (Json.array items).chars ++ rest = '[' :: (itemsChars items ++ ']' :: rest) := by
      simp [chars]
    rw [htext, tokens?_cons (by decide) rfl hitems]
    simp [literal, Literal.tokens]
  | .object members, h => by
    have hclose : tokens? ('}' :: rest) = some (.closeObject :: ts) :=
      tokens?_cons (by decide) rfl hrest
    have hmembers := tokens?_membersChars hclose (stopsNumber_cons (by decide) rest) members h
    have htext : (Json.object members).chars ++ rest
        = '{' :: (membersChars members ++ '}' :: rest) := by
      simp [chars]
    rw [htext, tokens?_cons (by decide) rfl hmembers]
    simp [literal, Literal.tokens]

/-- Several items are cut into theirs. -/
theorem tokens?_itemsChars {rest : List Char} {ts : List Token} (hrest : tokens? rest = some ts)
    (hstop : StopsNumber rest) : (items : List Json) → ItemsHoldWords items →
    tokens? (itemsChars items ++ rest) = some (Literal.itemsTokens (itemLiterals items) ++ ts)
  | [], _ => hrest
  | [item], h => tokens?_chars hrest hstop item h.1
  | item :: next :: items, h => by
    have hitems := tokens?_itemsChars hrest hstop (next :: items) h.2
    have hcomma : tokens? (',' :: (itemsChars (next :: items) ++ rest)) = _ :=
      tokens?_cons (by decide) rfl hitems
    have hitem := tokens?_chars hcomma (stopsNumber_cons (by decide) _) item h.1
    have htext : itemsChars (item :: next :: items) ++ rest
        = item.chars ++ ',' :: (itemsChars (next :: items) ++ rest) := by
      simp [itemsChars]
    rw [htext, hitem]
    simp [itemLiterals, Literal.itemsTokens]

/-- Several members are cut into theirs. -/
theorem tokens?_membersChars {rest : List Char} {ts : List Token} (hrest : tokens? rest = some ts)
    (hstop : StopsNumber rest) : (members : List (String × Json)) → MembersHoldWords members →
    tokens? (membersChars members ++ rest)
      = some (Literal.membersTokens (memberLiterals members) ++ ts)
  | [], _ => hrest
  | [(key, value)], h => by
    have hcolon : tokens? (':' :: (value.chars ++ rest)) = _ :=
      tokens?_cons (by decide) rfl (tokens?_chars hrest hstop value h.1)
    have htext : membersChars [(key, value)] ++ rest
        = quote key ++ ':' :: (value.chars ++ rest) := by
      simp [membersChars]
    rw [htext, tokens?_quote hcolon]
    simp [memberLiterals, Literal.membersTokens]
  | (key, value) :: next :: members, h => by
    have hmembers := tokens?_membersChars hrest hstop (next :: members) h.2
    have hcomma : tokens? (',' :: (membersChars (next :: members) ++ rest)) = _ :=
      tokens?_cons (by decide) rfl hmembers
    have hvalue := tokens?_chars hcomma (stopsNumber_cons (by decide) _) value h.1
    have hcolon : tokens? (':' :: (value.chars ++ ',' :: (membersChars (next :: members) ++ rest)))
        = _ := tokens?_cons (by decide) rfl hvalue
    have htext : membersChars ((key, value) :: next :: members) ++ rest
        = quote key ++ ':' :: (value.chars ++ ',' :: (membersChars (next :: members) ++ rest)) := by
      simp [membersChars]
    rw [htext, tokens?_quote hcolon]
    simp [memberLiterals, Literal.membersTokens]

end

/-- **A value that was written is read as its literal.** -/
theorem literal_of_text {j : Json} (h : j.HoldsWords) :
    Literal.parse? j.text.toList = some j.literal := by
  have hend : tokens? [] = some [] := by rw [tokens?]
  have htokens := tokens?_chars hend (fun c hc => by cases hc) j h
  rw [List.append_nil, List.append_nil] at htokens
  rw [text, String.toList_ofList, Literal.parse?, htokens]
  exact Literal.ofTokens?_tokens j.literal

/-! ## Reading what was written -/

mutual

/-- **How many arrays and objects nest** in a value, at most. -/
def depth : Json → Nat
  | .array items => itemsDepth items + 1
  | .object members => membersDepth members + 1
  | .null | .bool _ | .number _ | .string _ => 0

/-- How many nest in several items. -/
def itemsDepth : List Json → Nat
  | [] => 0
  | item :: rest => max (depth item) (itemsDepth rest)

/-- How many nest in several members. -/
def membersDepth : List (String × Json) → Nat
  | [] => 0
  | (_, value) :: rest => max (depth value) (membersDepth rest)

end

mutual

/-- **A value with the members of its objects in key order**, the last one of each key. -/
def sorted : Json → Json
  | .array items => .array (itemsSorted items)
  | .object members => ofMembers (membersSorted members)
  | .null => .null
  | .bool value => .bool value
  | .number value => .number value
  | .string value => .string value

/-- Several items, each sorted. -/
def itemsSorted : List Json → List Json
  | [] => []
  | item :: rest => sorted item :: itemsSorted rest

/-- Several members, each value sorted. -/
def membersSorted : List (String × Json) → List (String × Json)
  | [] => []
  | (key, value) :: rest => (key, sorted value) :: membersSorted rest

end

/-- Two readings within one limit. -/
theorem ite_max_le (a b d : Nat) {α : Type} (x : Option α) :
    (if max a b ≤ d then x else none) = if a ≤ d then if b ≤ d then x else none else none := by
  by_cases ha : a ≤ d <;> by_cases hb : b ≤ d <;> simp [ha, hb]

mutual

/-- **The literal of a value makes the value again**, if it nests no more than is read. -/
theorem toJson?_literal (d : Nat) : (j : Json) → j.HoldsWords →
    j.literal.toJson? d = if j.depth ≤ d then some j.sorted else none
  | .null, _ => by simp [literal, Literal.toJson?, depth, sorted]
  | .bool value, _ => by simp [literal, Literal.toJson?, depth, sorted]
  | .number (.integer value), h => by
    simp [literal, Literal.toJson?, depth, sorted, Number.spelling, value?_spelling h]
  | .number (.double _), h => h.elim
  | .string value, _ => by simp [literal, Literal.toJson?, depth, sorted, decodeUnits?_unitsOf]
  | .array items, h => by
    cases d with
    | zero => simp [literal, Literal.toJson?, depth]
    | succ d =>
      simp only [literal, Literal.toJson?, mapM_itemLiterals d items h, depth, sorted,
        Nat.add_le_add_iff_right]
      split <;> rfl
  | .object members, h => by
    cases d with
    | zero => simp [literal, Literal.toJson?, depth]
    | succ d =>
      simp only [literal, Literal.toJson?, mapM_memberLiterals d members h, depth, sorted,
        Nat.add_le_add_iff_right]
      split <;> rfl

/-- The literals of items make them again. -/
theorem mapM_itemLiterals (d : Nat) : (items : List Json) → ItemsHoldWords items →
    (itemLiterals items).mapM (Literal.toJson? d)
      = if itemsDepth items ≤ d then some (itemsSorted items) else none
  | [], _ => by simp [itemLiterals, itemsDepth, itemsSorted]
  | item :: rest, h => by
    rw [itemLiterals, List.mapM_cons, toJson?_literal d item h.1, mapM_itemLiterals d rest h.2,
      itemsDepth, ite_max_le]
    by_cases hitem : item.depth ≤ d <;> by_cases hrest : itemsDepth rest ≤ d
      <;> simp [hitem, hrest, itemsSorted]

/-- The literals of members make them again. -/
theorem mapM_memberLiterals (d : Nat) : (members : List (String × Json)) →
    MembersHoldWords members →
    (memberLiterals members).mapM (Literal.member? (Literal.toJson? d))
      = if membersDepth members ≤ d then some (membersSorted members) else none
  | [], _ => by simp [memberLiterals, membersDepth, membersSorted]
  | (key, value) :: rest, h => by
    rw [memberLiterals, List.mapM_cons, mapM_memberLiterals d rest h.2, membersDepth, ite_max_le,
      Literal.member?, toJson?_literal d value h.1, decodeUnits?_unitsOf]
    by_cases hvalue : value.depth ≤ d <;> by_cases hrest : membersDepth rest ≤ d
      <;> simp [hvalue, hrest, membersSorted]

end

/-- **Reading a text that was written** gives the value again, its members sorted, unless more than
127 arrays and objects nest in it. -/
theorem parse?_text {j : Json} (h : j.HoldsWords) :
    parse? j.text = if j.depth ≤ maxDepth then some j.sorted else none := by
  rw [parse?, literal_of_text h]
  exact toJson?_literal maxDepth j h

end ProofToolchain.Json
