import ApiCatalog.Pattern.Basic

/-!
# Searching a text

A searcher finds a match in a text at or after a given place; all that is asked of it is that the
match lies inside the text. A pattern is searched from left to right: the first place where it
matches counts, and there the most preferred run.

Places are counted in characters.
-/

namespace ApiCatalog

/-- The stretch of a text from `start` up to `stop`. -/
def slice (text : List Char) (start stop : Nat) : List Char := (text.take stop).drop start

/-- Where a match lies, and where its groups lie. -/
structure Match where
  start : Nat
  stop : Nat
  /-- Index, start and stop of the remembered groups. -/
  groups : List (Nat × Nat × Nat)
deriving Repr, DecidableEq

/-- What a match captured, by group; the group `0` is the whole match. -/
abbrev Captures := Nat → Option (List Char)

/-- The captures of a match in a text. -/
def Match.captures (text : List Char) (m : Match) : Captures := fun index =>
  if index = 0 then some (slice text m.start m.stop)
  else (m.groups.lookup index).map fun span => slice text span.1 span.2

/-- The text of a group, empty if the group did not take part. -/
def Captures.text (captures : Captures) (index : Nat) : List Char := (captures index).getD []

/-- A way of finding matches in texts. -/
structure Searcher where
  /-- The match found at or after a place. -/
  find? : List Char → Nat → Option Match
  /-- A match lies inside the text, at or after the place. -/
  inside : ∀ {text : List Char} {place : Nat} {m : Match}, find? text place = some m →
    place ≤ m.start ∧ m.start ≤ m.stop ∧ m.stop ≤ text.length

namespace Pattern

/-- The match at a place, given what follows there. -/
def matchHere? (p : Pattern) (rest : List Char) (place : Nat) : Option Match :=
  p.first ⟨place, rest, []⟩ fun t => some ⟨place, t.position, t.groups⟩

/-- The leftmost match, given the place and what follows there. -/
def searchFrom? (p : Pattern) : List Char → Nat → Option Match
  | [], place => p.matchHere? [] place
  | c :: cs, place => p.matchHere? (c :: cs) place <|> searchFrom? p cs (place + 1)

/-- The leftmost match at or after a place in a text. -/
def find? (p : Pattern) (text : List Char) (place : Nat) : Option Match :=
  if place ≤ text.length then p.searchFrom? (text.drop place) place else none

theorem matchHere?_inside {p : Pattern} {rest : List Char} {place : Nat} {m : Match}
    (h : p.matchHere? rest place = some m) :
    m.start = place ∧ place ≤ m.stop ∧ m.stop ≤ place + rest.length := by
  rw [matchHere?, first_eq] at h
  obtain ⟨t, ht, hm⟩ := List.exists_of_findSome?_eq_some h
  obtain ⟨between, hrest, hposition⟩ := reaches_of_mem_runs ht
  simp only [Option.some.injEq] at hm
  subst hm
  simp only at hrest hposition
  have hl : rest.length = between.length + t.rest.length := by simp [hrest]
  refine ⟨rfl, ?_, ?_⟩ <;> simp only <;> omega

theorem searchFrom?_inside {p : Pattern} {rest : List Char} {place : Nat} {m : Match}
    (h : p.searchFrom? rest place = some m) :
    place ≤ m.start ∧ m.start ≤ m.stop ∧ m.stop ≤ place + rest.length := by
  induction rest generalizing place with
  | nil =>
    obtain ⟨h1, h2, h3⟩ := matchHere?_inside h
    omega
  | cons c cs ih =>
    simp only [searchFrom?, Option.orElse_eq_orElse, Option.orElse_eq_or, Option.or_eq_some_iff]
      at h
    simp only [List.length_cons]
    rcases h with h | ⟨_, h⟩
    · obtain ⟨h1, h2, h3⟩ := matchHere?_inside h
      simp only [List.length_cons] at h3
      omega
    · have := ih h
      omega

/-- The leftmost search for a pattern. -/
def searcher (p : Pattern) : Searcher where
  find? := p.find?
  inside := by
    intro text place m h
    simp only [find?] at h
    split at h
    · have := searchFrom?_inside h
      simp only [List.length_drop] at this
      omega
    · simp at h

end Pattern

end ApiCatalog
