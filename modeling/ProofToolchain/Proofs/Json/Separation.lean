import ProofToolchain.Proofs.Json.Literal
import ProofToolchain.Proofs.Json.Readers
import ProofToolchain.Text.Blank

/-!
# Texts before a comma or a bracket

Where a text is cut into tokens, what comes after it may change the cut: digits go on with a number,
and a quote closes a string. A comma or a bracket cannot go on with a number or a word
(`StopsToken`), and neither closes a string. So a text that is cut is cut in the same way before
them (`tokens?_append`), and texts with commas between them are cut into the tokens of an array
(`tokens?_join`).

For a closing bracket at the very end the converse holds too. A string that is open there stays
open, so the bracket changes nothing about whether the text before it can be cut
(`tokens?_append_close`), and it is always a token of its own.
-/

namespace ProofToolchain.Json

/-- **A text that cannot go on with a number or a word** that stands before it. -/
def StopsToken (more : List Char) : Prop :=
  ∀ c ∈ more.head?, isInner c = false

theorem stopsToken_cons {c : Char} (h : isInner c = false) (more : List Char) :
    StopsToken (c :: more) := by
  intro d hd
  cases hd
  exact h

/-- More text after such a character keeps what is inside of numbers and words. -/
theorem StopsToken.keepsInner {more : List Char} (h : StopsToken more) :
    KeepsInner (· ++ more) := by
  intro c hc cs ds
  show cs ++ more = c :: ds ↔ ∃ rest, cs = c :: rest ∧ rest ++ more = ds
  rw [List.append_eq_cons_iff]
  constructor
  · rintro (⟨-, rfl⟩ | ⟨rest, hcs, hds⟩)
    · exact absurd hc (Bool.eq_false_iff.1 (h c rfl))
    · exact ⟨rest, hcs, hds.symm⟩
  · rintro ⟨rest, hcs, hds⟩
    exact .inr ⟨rest, hcs, hds.symm⟩

/-! ## Strings -/

/-- **A string that is closed** is read no further. -/
theorem readUnits_append {cs rest : List Char} {units : List StringUnit}
    (h : readUnits cs = some (units, rest)) (more : List Char) :
    readUnits (cs ++ more) = some (units, rest ++ more) := by
  fun_induction readUnits cs generalizing units rest with
  | case1 => cases h
  | case2 a b c d tail ih =>
    simp only [Option.bind_eq_bind, Option.bind_eq_some_iff, Option.pure_def, Option.some.injEq,
      Prod.mk.injEq] at h
    obtain ⟨n, hn, ⟨us, r⟩, hread, rfl, rfl⟩ := h
    simp only [List.cons_append]
    rw [readUnits_code hn, ih hread]
    rfl
  | case3 e tail _ ih =>
    simp only [Option.bind_eq_bind, Option.bind_eq_some_iff, Option.pure_def, Option.some.injEq,
      Prod.mk.injEq] at h
    obtain ⟨c, hc, ⟨us, r⟩, hread, rfl, rfl⟩ := h
    have hu : e ≠ 'u' := by
      rintro rfl
      cases hc
    simp only [List.cons_append]
    rw [readUnits_short hc hu, ih hread]
    rfl
  | case4 tail =>
    cases h
    exact readUnits_quote (tail ++ more)
  | case5 => cases h
  | case6 c tail _ hescape hquote hcontrol ih =>
    simp only [Option.bind_eq_bind, Option.bind_eq_some_iff, Option.pure_def, Option.some.injEq,
      Prod.mk.injEq] at h
    obtain ⟨⟨us, r⟩, hread, rfl, rfl⟩ := h
    have hslash : c ≠ '\\' := by
      rintro rfl
      cases tail with
      | nil => cases hread
      | cons e tail => exact hescape e tail rfl rfl
    rw [List.cons_append, readUnits_plain hquote hslash hcontrol, ih hread]
    rfl

/-- A bracket is no digit. -/
theorem codeUnit?_close (a b c : Char) : codeUnit? a b c ']' = none := by
  have hclose : hexValue? ']' = none := by decide
  unfold codeUnit?
  rw [hclose]
  cases hexValue? a <;> cases hexValue? b <;> cases hexValue? c <;> rfl

/-- An escape with a bracket where a digit should stand is none. -/
theorem readUnits_code_close {cs : List Char}
    (h : ∀ a b c d rest, cs = a :: b :: c :: d :: rest → codeUnit? a b c d = none) :
    readUnits ('\\' :: 'u' :: (cs ++ [']'])) = none := by
  refine readUnits_code_eq_none fun a b c d rest heq => ?_
  match cs, h, heq with
  | [_, _, _], _, heq =>
    cases heq
    exact codeUnit?_close ..
  | _ :: _ :: _ :: _ :: _, h, heq =>
    cases heq
    exact h _ _ _ _ _ rfl

/-- **A string that is open** stays open before a bracket. -/
theorem readUnits_append_close {cs : List Char} (h : readUnits cs = none) :
    readUnits (cs ++ [']']) = none := by
  induction cs using readUnits.induct with
  | case1 => rfl
  | case2 a b c d tail ih =>
    cases hn : codeUnit? a b c d with
    | none =>
      have hnone : ∀ a' b' c' d' rest, a :: b :: c :: d :: tail = a' :: b' :: c' :: d' :: rest →
          codeUnit? a' b' c' d' = none := by
        rintro _ _ _ _ _ ⟨⟩
        exact hn
      exact readUnits_code_close hnone
    | some n =>
      rw [readUnits_code hn, Option.map_eq_none_iff] at h
      simp only [List.cons_append]
      rw [readUnits_code hn, ih h]
      rfl
  | case3 e tail hdigits ih =>
    by_cases hu : e = 'u'
    · subst hu
      exact readUnits_code_close fun a b c d rest heq => (hdigits a b c d rest rfl heq).elim
    · simp only [List.cons_append]
      cases hc : unescape? e with
      | none => exact readUnits_short_eq_none hc hu _
      | some c =>
        rw [readUnits_short hc hu, Option.map_eq_none_iff] at h
        rw [readUnits_short hc hu, ih h]
        rfl
  | case4 tail => cases (readUnits_quote tail).symm.trans h
  | case5 c tail _ _ _ hcontrol => exact readUnits_control hcontrol _
  | case6 c tail _ hescape hquote hcontrol ih =>
    by_cases hslash : c = '\\'
    · -- a backslash that stands last escapes nothing
      subst hslash
      cases tail with
      | nil => exact readUnits_short_eq_none (by decide) (by decide) []
      | cons e tail => exact (hescape e tail rfl rfl).elim
    · rw [readUnits_plain hquote hslash hcontrol, Option.map_eq_none_iff] at h
      rw [List.cons_append, readUnits_plain hquote hslash hcontrol, ih h]
      rfl

/-! ## Tokens -/

theorem tokens?_nil : tokens? [] = some [] := by
  rw [tokens?]

/-- A token that is found is found before a text that cannot go on with it. -/
theorem nextToken_append {c : Char} {cs rest more : List Char} {t : Token}
    (h : nextToken c cs = some (t, rest)) (hstop : StopsToken more) :
    nextToken c (cs ++ more) = some (t, rest ++ more) := by
  have hunits : c = '"' →
      readUnits (cs ++ more) = (readUnits cs).map (Prod.map id (· ++ more)) := by
    rintro rfl
    obtain ⟨⟨units, rest⟩, hread, -⟩ := Option.map_eq_some_iff.1 h
    rw [hread]
    exact readUnits_append hread more
  have hchange := nextToken_change hstop.keepsInner hunits
  rw [h] at hchange
  simpa using hchange

/-- **What is cut is cut in the same way** before a text that cannot go on with its last token. -/
theorem tokens?_append {cs more : List Char} {ts : List Token} (h : tokens? cs = some ts)
    (hstop : StopsToken more) : tokens? (cs ++ more) = (tokens? more).map (ts ++ ·) := by
  induction cs using tokens?.induct generalizing ts with
  | case1 =>
    rw [tokens?_nil] at h
    cases h
    simp
  | case2 c cs hblank ih =>
    rw [tokens?_of_isBlank hblank] at h
    rw [List.cons_append, tokens?_of_isBlank hblank, ih h]
  | case3 c cs hblank hnone =>
    rw [Bool.not_eq_true] at hblank
    rw [tokens?_of_not_isBlank hblank, hnone] at h
    cases h
  | case4 c cs hblank t rest hnext ih =>
    rw [Bool.not_eq_true] at hblank
    rw [tokens?_of_not_isBlank hblank, hnext] at h
    obtain ⟨ts, hrest, rfl⟩ := Option.map_eq_some_iff.1 h
    rw [List.cons_append, tokens?_of_not_isBlank hblank, nextToken_append hnext hstop,
      Option.bind_some, ih hrest, Option.map_map]
    rfl

/-- Where no token is found, none is found before a bracket. -/
theorem nextToken_append_close (c : Char) (cs : List Char) :
    nextToken c (cs ++ [']'])
      = (nextToken c cs).map (Prod.map id (· ++ [']'])) := by
  have hunits : readUnits (cs ++ [']']) = (readUnits cs).map (Prod.map id (· ++ [']'])) := by
    cases hread : readUnits cs with
    | none => exact readUnits_append_close hread
    | some found => exact readUnits_append hread [']']
  have hlook : Token.withLook id = id := funext Token.withLook_id
  rw [← hlook]
  exact nextToken_change (stopsToken_cons (by decide) []).keepsInner fun _ => hunits

theorem tokens?_close : tokens? [']'] = some [.closeArray] :=
  tokens?_cons (by decide) rfl tokens?_nil

/-- **A closing bracket at the end** is a token of its own, whatever stands before it. -/
theorem tokens?_append_close (cs : List Char) :
    tokens? (cs ++ [']']) = (tokens? cs).map (· ++ [.closeArray]) := by
  induction cs using tokens?.induct with
  | case1 =>
    rw [tokens?_nil]
    exact tokens?_close
  | case2 c cs hblank ih =>
    rw [List.cons_append, tokens?_of_isBlank hblank, ih, tokens?_of_isBlank hblank]
  | case3 c cs hblank hnone =>
    rw [Bool.not_eq_true] at hblank
    rw [List.cons_append, tokens?_of_not_isBlank hblank, nextToken_append_close, hnone,
      tokens?_of_not_isBlank hblank, hnone]
    rfl
  | case4 c cs hblank t rest hnext ih =>
    rw [Bool.not_eq_true] at hblank
    rw [List.cons_append, tokens?_of_not_isBlank hblank, nextToken_append_close, hnext,
      tokens?_of_not_isBlank hblank, hnext]
    show (tokens? (rest ++ [']'])).map (t :: ·)
      = ((tokens? rest).map (t :: ·)).map (· ++ [.closeArray])
    rw [ih, Option.map_map, Option.map_map]
    rfl

/-- **Texts with commas between them** are cut into the tokens of what they spell. -/
theorem tokens?_join {texts : List (List Char)} {items : List Literal}
    (h : List.Forall₂ (fun text item => tokens? text = some item.tokens) texts items) :
    tokens? (Text.join [','] texts) = some (Literal.itemsTokens items) := by
  induction h with
  | nil => exact tokens?_nil
  | @cons text item texts items htext hrest ih =>
    cases hrest with
    | nil => exact htext
    | @cons next item' texts items hnext hrest =>
      have hcomma : tokens? (',' :: Text.join [','] (next :: texts)) = _ :=
        tokens?_cons (by decide) rfl ih
      show tokens? (text ++ [','] ++ Text.join [','] (next :: texts)) = _
      rw [List.append_assoc, List.singleton_append,
        tokens?_append htext (stopsToken_cons (by decide) _), hcomma]
      rfl

/-- **A text between brackets** spells an array exactly if the text is cut into its items. -/
theorem Literal.parse?_brackets_eq_some_iff {cs : List Char} {l : Literal} :
    Literal.parse? ('[' :: cs ++ [']']) = some l
      ↔ ∃ items, l = .array items ∧ tokens? cs = some (itemsTokens items) := by
  have hcut : tokens? ('[' :: (cs ++ [']']))
      = (tokens? cs).map fun ts => .openArray :: (ts ++ [.closeArray]) := by
    rw [tokens?_of_not_isBlank (by decide)]
    show (tokens? (cs ++ [']'])).map _ = _
    rw [tokens?_append_close, Option.map_map]
    rfl
  rw [List.cons_append, Literal.parse?, hcut, Option.bind_eq_some_iff]
  constructor
  · rintro ⟨ts, hts, hl⟩
    obtain ⟨ts, hread, rfl⟩ := Option.map_eq_some_iff.1 hts
    obtain ⟨items, rfl, rfl⟩ := ofTokens?_brackets_eq_some_iff.1 hl
    exact ⟨items, rfl, hread⟩
  · rintro ⟨items, rfl, hread⟩
    rw [hread]
    exact ⟨_, rfl, ofTokens?_brackets_eq_some_iff.2 ⟨items, rfl, rfl⟩⟩

/-- **Several items, or none, are no value** by themselves. -/
theorem parse?_eq_none_of_items {cs : List Char} {items : List Literal}
    (h : tokens? cs = some (Literal.itemsTokens items)) (hlength : items.length ≠ 1) :
    parse? (String.ofList cs) = none := by
  have hliteral : Literal.parse? cs = none := by
    by_contra hne
    obtain ⟨l, hl⟩ := Option.ne_none_iff_exists'.1 hne
    have htokens : Literal.itemsTokens items = Literal.itemsTokens [l] :=
      Option.some.inj (h.symm.trans (Literal.parse?_eq_some_iff.1 hl))
    exact hlength (congrArg List.length (Literal.itemsTokens_injective htokens))
  rw [parse?, String.toList_ofList, hliteral]
  rfl

/-- **Between brackets they are an array**, whose items nest one level deeper. -/
theorem parse?_brackets {cs : List Char} {items : List Literal}
    (h : tokens? cs = some (Literal.itemsTokens items)) :
    parse? (String.ofList ('[' :: cs ++ [']']))
      = (items.mapM (Literal.toJson? 126)).map .array := by
  rw [parse?, String.toList_ofList, Literal.parse?_brackets_eq_some_iff.2 ⟨items, rfl, h⟩]
  rfl

/-- Only blanks are cut into no tokens. -/
theorem isBlank_of_tokens?_eq_nil {cs : List Char} (h : tokens? cs = some []) :
    ∀ c ∈ cs, isBlank c = true := by
  induction cs with
  | nil => nofun
  | cons c cs ih =>
    cases hblank : isBlank c with
    | true =>
      rw [tokens?_of_isBlank hblank] at h
      exact List.forall_mem_cons.2 ⟨hblank, ih h⟩
    | false =>
      rw [tokens?_of_not_isBlank hblank, Option.bind_eq_some_iff] at h
      obtain ⟨found, -, hrest⟩ := h
      obtain ⟨ts, -, hcons⟩ := Option.map_eq_some_iff.1 hrest
      cases hcons

end ProofToolchain.Json
