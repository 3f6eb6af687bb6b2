/-!
# Patterns and the order of their runs

A pattern describes stretches of text by character classes, sequence, choice, repetition and
groups that remember where they matched. From one place a pattern can run on in several ways;
`runs` lists where it can end, in order of preference: the left alternative before the right one,
one more round of a greedy repetition before none, and none before one more of a lazy repetition.
A round of a repetition has to consume something.

`first` looks for the most preferred run after which a continuation succeeds, without listing the
others, and `first_eq` says that it finds the one that the list would give.
-/

namespace ApiCatalog

/-- A pattern of text. -/
inductive Pattern where
  /-- Matches nothing but the empty stretch. -/
  | empty
  /-- One character of a class. -/
  | one (member : Char → Bool)
  | seq (p q : Pattern)
  /-- `p`, or if that does not lead to a match, `q`. -/
  | alt (p q : Pattern)
  /-- Any number of rounds of `p`: as many as possible if greedy, else as few as possible. -/
  | star (p : Pattern) (greedy : Bool)
  /-- A `p` whose place is remembered as the group `index`. -/
  | group (index : Nat) (p : Pattern)
  /-- The empty stretch at the end of the text. -/
  | atEnd

namespace Pattern

/-! ## Abbreviations -/

/-- One given character. -/
def only (c : Char) : Pattern := .one (· == c)

/-- A given text. -/
def literal : List Char → Pattern
  | [] => .empty
  | c :: cs => .seq (only c) (literal cs)

/-- Any number of characters of a class, as many as possible. -/
def many (member : Char → Bool) : Pattern := .star (.one member) true

/-- At least one character of a class, as many as possible. -/
def atLeastOne (member : Char → Bool) : Pattern := .seq (.one member) (many member)

/-- `p` if possible, else nothing. -/
def optional (p : Pattern) : Pattern := .alt p .empty

/-- The patterns one after the other. -/
def chain : List Pattern → Pattern
  | [] => .empty
  | [p] => p
  | p :: ps => .seq p (chain ps)

/-! ## Runs -/

/-- A place in a text, with what follows it and the groups remembered so far, most recent
first. -/
structure Cursor where
  position : Nat
  rest : List Char
  groups : List (Nat × Nat × Nat)
deriving Repr, DecidableEq

/-- The cursor with a group remembered that started at `start` and ends here. -/
def Cursor.remember (t : Cursor) (index start : Nat) : Cursor :=
  { t with groups := (index, start, t.position) :: t.groups }

/-- Whether a round from `s` to `t` consumed something. -/
def Cursor.advanced (s t : Cursor) : Bool := s.position < t.position

/-- The ends of all runs of at most `rounds` rounds, given the ends of one round. -/
def roundRuns (round : Cursor → List Cursor) (greedy : Bool) : Nat → Cursor → List Cursor
  | 0, s => [s]
  | rounds + 1, s =>
    let more := ((round s).filter s.advanced).flatMap (roundRuns round greedy rounds)
    if greedy then more ++ [s] else s :: more

/-- The ends of all runs of the pattern from `s`, most preferred first. -/
def runs : Pattern → Cursor → List Cursor
  | .empty, s => [s]
  | .one member, s =>
    match s.rest with
    | [] => []
    | c :: cs => if member c then [{ s with position := s.position + 1, rest := cs }] else []
  | .seq p q, s => (runs p s).flatMap (runs q)
  | .alt p q, s => runs p s ++ runs q s
  | .star p greedy, s => roundRuns (runs p) greedy s.rest.length s
  | .group index p, s => (runs p s).map fun t => t.remember index s.position
  | .atEnd, s => if s.rest.isEmpty then [s] else []

/-! ## The most preferred run -/

variable {α : Type}

/-- The first success after at most `rounds` rounds, given how to succeed after one. -/
def roundFirst (round : Cursor → (Cursor → Option α) → Option α) (greedy : Bool) :
    Nat → Cursor → (Cursor → Option α) → Option α
  | 0, s, next => next s
  | rounds + 1, s, next =>
    let more := fun _ : Unit =>
      round s fun t => if s.advanced t then roundFirst round greedy rounds t next else none
    if greedy then more () <|> next s else next s <|> more ()

/-- The success of `next` after the most preferred run that has one. -/
def first : Pattern → Cursor → (Cursor → Option α) → Option α
  | .empty, s, next => next s
  | .one member, s, next =>
    match s.rest with
    | [] => none
    | c :: cs => if member c then next { s with position := s.position + 1, rest := cs } else none
  | .seq p q, s, next => first p s fun t => first q t next
  | .alt p q, s, next => first p s next <|> first q s next
  | .star p greedy, s, next => roundFirst (first p) greedy s.rest.length s next
  | .group index p, s, next => first p s fun t => next (t.remember index s.position)
  | .atEnd, s, next => if s.rest.isEmpty then next s else none

/-- Rounds that succeed like the list of their ends do so any number of times. -/
theorem roundFirst_eq {round : Cursor → (Cursor → Option α) → Option α}
    {ends : Cursor → List Cursor} (h : ∀ s next, round s next = (ends s).findSome? next)
    (greedy : Bool) (rounds : Nat) (s : Cursor) (next : Cursor → Option α) :
    roundFirst round greedy rounds s next = (roundRuns ends greedy rounds s).findSome? next := by
  induction rounds generalizing s with
  | zero => simp [roundFirst, roundRuns]
  | succ rounds ih =>
    have more : (round s fun t =>
        if s.advanced t then roundFirst round greedy rounds t next else none) =
        (((ends s).filter s.advanced).flatMap (roundRuns ends greedy rounds)).findSome? next := by
      simp only [h, ih]
      induction ends s with
      | nil => simp
      | cons t ts iht =>
        by_cases ha : s.advanced t
        · simp only [List.findSome?_cons, ha, if_true, iht, List.filter_cons_of_pos,
            List.flatMap_cons, List.findSome?_append]
          cases (roundRuns ends greedy rounds t).findSome? next <;> simp
        · simp [ha, iht]
    cases greedy
    · simp only [roundFirst, roundRuns, Bool.false_eq_true, if_false, more, List.findSome?_cons]
      cases next s <;> simp
    · simp only [roundFirst, roundRuns, if_true, more, List.findSome?_append]
      cases List.findSome? next _ <;> simp

/-- `first` succeeds as the first run that has a success does. -/
theorem first_eq (p : Pattern) (s : Cursor) (next : Cursor → Option α) :
    first p s next = (runs p s).findSome? next := by
  induction p generalizing s next with
  | empty => simp [first, runs]
  | one member =>
    cases h : s.rest with
    | nil => simp [first, runs, h]
    | cons c cs => by_cases hc : member c <;> simp [first, runs, h, hc]
  | seq p q ihp ihq =>
    simp only [first, runs, ihp, ihq]
    induction runs p s with
    | nil => rfl
    | cons t ts ih =>
      simp only [List.findSome?_cons, ih, List.flatMap_cons, List.findSome?_append]
      cases (runs q t).findSome? next <;> simp
  | alt p q ihp ihq =>
    simp only [first, runs, ihp, ihq, List.findSome?_append]
    cases (runs p s).findSome? next <;> simp
  | star p greedy ih => simpa [first, runs] using roundFirst_eq ih greedy s.rest.length s next
  | group index p ih =>
    simp only [first, runs, ih, List.findSome?_map]
    rfl
  | atEnd => by_cases h : s.rest.isEmpty <;> simp [first, runs, h]

/-! ## Where runs end -/

/-- The classes of the characters that a pattern consumes. -/
def classes : Pattern → List (Char → Bool)
  | .empty => []
  | .one member => [member]
  | .seq p q => classes p ++ classes q
  | .alt p q => classes p ++ classes q
  | .star p _ => classes p
  | .group _ p => classes p
  | .atEnd => []

section Relation

variable {R : Cursor → Cursor → Prop}

/-- What holds between the ends of each round holds between the ends of several. -/
theorem rel_of_mem_roundRuns (refl : ∀ s, R s s) (trans : ∀ s t u, R s t → R t u → R s u)
    {ends : Cursor → List Cursor} (h : ∀ s t, t ∈ ends s → R s t) (greedy : Bool) (rounds : Nat)
    (s t : Cursor) (ht : t ∈ roundRuns ends greedy rounds s) : R s t := by
  induction rounds generalizing s with
  | zero =>
    simp only [roundRuns, List.mem_singleton] at ht
    exact ht ▸ refl s
  | succ rounds ih =>
    have cases : t = s ∨ ∃ u ∈ ends s, t ∈ roundRuns ends greedy rounds u := by
      cases greedy <;> simp [roundRuns] at ht <;> grind
    rcases cases with rfl | ⟨u, hu, htu⟩
    · exact refl t
    · exact trans s u t (h s u hu) (ih u htu)

/-- What holds between the ends of each consumed character, and is not changed by remembering a
group, holds between the ends of every run. -/
theorem rel_of_mem_runs (refl : ∀ s, R s s) (trans : ∀ s t u, R s t → R t u → R s u)
    (remember : ∀ s t index, R s t → R s (t.remember index s.position)) {p : Pattern}
    (step : ∀ member ∈ p.classes, ∀ s c cs, s.rest = c :: cs → member c = true →
      R s { s with position := s.position + 1, rest := cs })
    {s t : Cursor} (ht : t ∈ runs p s) : R s t := by
  induction p generalizing s t with
  | empty =>
    simp only [runs, List.mem_singleton] at ht
    exact ht ▸ refl s
  | one member =>
    cases hr : s.rest with
    | nil => simp [runs, hr] at ht
    | cons c cs =>
      simp only [runs, hr] at ht
      split at ht
      · rename_i hc
        simp only [List.mem_singleton] at ht
        exact ht ▸ step member (by simp [classes]) s c cs hr hc
      · simp at ht
  | seq p q ihp ihq =>
    simp only [classes, List.mem_append] at step
    simp only [runs, List.mem_flatMap] at ht
    obtain ⟨u, hu, htu⟩ := ht
    exact trans s u t (ihp (fun member hm => step member (.inl hm)) hu)
      (ihq (fun member hm => step member (.inr hm)) htu)
  | alt p q ihp ihq =>
    simp only [classes, List.mem_append] at step
    simp only [runs, List.mem_append] at ht
    rcases ht with ht | ht
    · exact ihp (fun member hm => step member (.inl hm)) ht
    · exact ihq (fun member hm => step member (.inr hm)) ht
  | star p greedy ih =>
    exact rel_of_mem_roundRuns refl trans (fun _ _ => ih step) greedy s.rest.length s t ht
  | group index p ih =>
    simp only [runs, List.mem_map] at ht
    obtain ⟨u, hu, rfl⟩ := ht
    exact remember s u index (ih step hu)
  | atEnd =>
    simp only [runs] at ht
    split at ht
    · simp only [List.mem_singleton] at ht
      exact ht ▸ refl s
    · simp at ht

end Relation

/-- `t` comes after `s` in one text: what lies between them was consumed. -/
def Cursor.Reaches (s t : Cursor) : Prop :=
  ∃ between : List Char, s.rest = between ++ t.rest ∧ t.position = s.position + between.length

theorem Cursor.Reaches.refl (s : Cursor) : s.Reaches s := ⟨[], by simp, by simp⟩

theorem Cursor.Reaches.trans {s t u : Cursor} (hst : s.Reaches t) (htu : t.Reaches u) :
    s.Reaches u := by
  obtain ⟨a, ha, hpa⟩ := hst
  obtain ⟨b, hb, hpb⟩ := htu
  exact ⟨a ++ b, by simp [ha, hb], by simp [hpa, hpb]; omega⟩

/-- Runs only move forward in the text. -/
theorem reaches_of_mem_runs {p : Pattern} {s t : Cursor} (ht : t ∈ runs p s) : s.Reaches t := by
  refine rel_of_mem_runs Cursor.Reaches.refl (fun _ _ _ => Cursor.Reaches.trans) ?_ ?_ ht
  · intro s t index hst
    exact hst
  · intro member _ s c cs hr _
    exact ⟨[c], by simp [hr], rfl⟩

end Pattern

end ApiCatalog
