import ApiCatalog.Endpoint.Placeholder

/-!
# Address patterns and their tokens

An `AddressPattern` is an address put together from literals and placeholders. The scan for
placeholders finds in its text the tokens that it was put together from, in order and with
repetitions (`tokens_text`). A token is a name and question marks after it, and the name is what is
left when they are cut off (`isNameOf_iff`).
-/

namespace ApiCatalog

/-- An address pattern: the literal before the first placeholder, and for each placeholder its token
and the literal after it. No literal opens a placeholder, and no token closes one or breaks the
line. -/
structure AddressPattern where
  start : List Char
  parts : List (List Char × List Char)
  start_plain : '{' ∉ start
  tokens_plain : ∀ part ∈ parts, '}' ∉ part.1 ∧ '\n' ∉ part.1
  literals_plain : ∀ part ∈ parts, '{' ∉ part.2

namespace AddressPattern

/-- The text of placeholders and of the literals after them. -/
def partsText (parts : List (List Char × List Char)) : List Char :=
  parts.flatMap fun part => '{' :: (part.1 ++ '}' :: part.2)

/-- The text of the pattern. -/
def text (pattern : AddressPattern) : List Char := pattern.start ++ partsText pattern.parts

/-- The tokens of the placeholders, from left to right. -/
def tokens (pattern : AddressPattern) : List String :=
  pattern.parts.map fun part => String.ofList part.1

end AddressPattern

namespace Placeholder

/-! ## Scanning -/

/-- A literal holds no token. -/
theorem tokensFrom_literal {literal : List Char} (h : '{' ∉ literal) (cs : List Char) :
    tokensFrom none (literal ++ cs) = tokensFrom none cs := by
  induction literal with
  | nil => rfl
  | cons c literal ih =>
    rw [List.mem_cons, not_or] at h
    rw [List.cons_append, tokensFrom, if_neg (Ne.symm h.1), ih h.2]

/-- An open placeholder ends at the next closing brace. -/
theorem tokensFrom_token {token : List Char} (hclose : '}' ∉ token) (hfeed : '\n' ∉ token)
    (read cs : List Char) :
    tokensFrom (some read) (token ++ '}' :: cs) = (read.reverse ++ token) :: tokensFrom none cs := by
  induction token generalizing read with
  | nil => simp [tokensFrom]
  | cons c token ih =>
    rw [List.mem_cons, not_or] at hclose hfeed
    rw [List.cons_append, tokensFrom, if_neg (Ne.symm hclose.1), if_neg (Ne.symm hfeed.1),
      ih hclose.2 hfeed.2]
    simp

theorem tokensFrom_partsText {parts : List (List Char × List Char)}
    (htokens : ∀ part ∈ parts, '}' ∉ part.1 ∧ '\n' ∉ part.1)
    (hliterals : ∀ part ∈ parts, '{' ∉ part.2) :
    tokensFrom none (AddressPattern.partsText parts) = parts.map Prod.fst := by
  induction parts with
  | nil => rfl
  | cons part parts ih =>
    rw [List.forall_mem_cons] at htokens hliterals
    have hopen : tokensFrom none (AddressPattern.partsText (part :: parts)) =
        tokensFrom (some []) (part.1 ++ '}' :: (part.2 ++ AddressPattern.partsText parts)) := by
      rw [AddressPattern.partsText, List.flatMap_cons, List.cons_append, tokensFrom, if_pos rfl]
      simp [AddressPattern.partsText]
    rw [hopen, tokensFrom_token htokens.1.1 htokens.1.2, tokensFrom_literal hliterals.1,
      ih htokens.2 hliterals.2]
    rfl

/-- The tokens of an address are those of its placeholders. -/
theorem tokens_text {uri : String} {pattern : AddressPattern} (h : uri.toList = pattern.text) :
    tokens uri = pattern.tokens := by
  rw [tokens, h, AddressPattern.text, tokensFrom_literal pattern.start_plain,
    tokensFrom_partsText pattern.tokens_plain pattern.literals_plain, AddressPattern.tokens,
    List.map_map]
  rfl

/-! ## Names -/

/-- A token is its name and any number of question marks; the name does not end in one. -/
def IsNameOf (name token : String) : Prop :=
  (∃ marks, token.toList = name.toList ++ List.replicate marks '?') ∧
    name.toList.getLast? ≠ some '?'

theorem isNameOf_name (token : String) : IsNameOf (Placeholder.name token) token := by
  have hcut := List.takeWhile_append_dropWhile (p := (· == '?')) (l := token.toList.reverse)
  have hmarks : ∀ c ∈ (token.toList.reverse.takeWhile (· == '?')).reverse, c = '?' := by
    intro c hc
    simpa using List.all_eq_true.1 List.all_takeWhile c (List.mem_reverse.1 hc)
  refine ⟨⟨(token.toList.reverse.takeWhile (· == '?')).reverse.length, ?_⟩, ?_⟩
  · rw [← List.eq_replicate_of_mem hmarks, Placeholder.name, String.toList_ofList,
      ← List.reverse_append, hcut, List.reverse_reverse]
  · have hhead := List.head?_dropWhile_not (· == '?') token.toList.reverse
    rw [Placeholder.name, String.toList_ofList, List.getLast?_reverse]
    intro hlast
    rw [hlast] at hhead
    exact absurd hhead (by decide)

theorem isNameOf_iff {name token : String} :
    IsNameOf name token ↔ name = Placeholder.name token := by
  constructor
  · rintro ⟨⟨marks, htoken⟩, hend⟩
    have hdrop : name.toList.reverse.dropWhile (· == '?') = name.toList.reverse := by
      rw [← List.head?_reverse] at hend
      cases hname : name.toList.reverse with
      | nil => rfl
      | cons c cs =>
        rw [hname] at hend
        exact List.dropWhile_cons_of_neg (by simpa using hend)
    have hmarks : ∀ c ∈ List.replicate marks '?', (c == '?') = true := by
      intro c hc
      simp [List.eq_of_mem_replicate hc]
    rw [Placeholder.name, htoken, List.reverse_append, List.reverse_replicate,
      List.dropWhile_append_of_pos hmarks, hdrop, List.reverse_reverse, String.ofList_toList]
  · rintro rfl
    exact isNameOf_name token

end Placeholder

end ApiCatalog
