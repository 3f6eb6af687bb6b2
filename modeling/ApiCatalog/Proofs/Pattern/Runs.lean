import ApiCatalog.Pattern.Search

/-!
# What the runs of a pattern consume

Membership in `runs` is read off the pattern, constructor by constructor: each run of a repeated
class consumes members of the class, each run of a literal consumes the literal, and so on. With
`first_eq` this says what a match has consumed and captured.

Which of the runs is preferred matters only for a repeated class. If what follows the class cannot
start with a member, the repetition takes every member it meets (`first_many_of_refuses`), and if
what follows succeeds after all of them, that is what is preferred (`first_many_of_succeeds`).

Of any pattern it can be read off which characters its runs consume (`consumed_of_mem_runs`) and
whether they consume any (`lt_of_mem_runs`).
-/

namespace ApiCatalog.Pattern

variable {t : Cursor} {i : Nat} {r : List Char} {g : List (Nat × Nat × Nat)}
variable {member : Char → Bool}

/-! ## Membership -/

theorem mem_runs_only {c : Char} :
    t ∈ runs (only c) ⟨i, r, g⟩ ↔ ∃ v, r = c :: v ∧ t = ⟨i + 1, v, g⟩ := by
  cases r with
  | nil => simp [only, runs]
  | cons d ds =>
    by_cases hd : d = c
    · simp [only, runs, hd]
    · simp [only, runs, hd]

theorem mem_runs_seq {p q : Pattern} {s : Cursor} :
    t ∈ runs (.seq p q) s ↔ ∃ u ∈ runs p s, t ∈ runs q u := by
  simp [runs]

theorem mem_runs_group {index : Nat} {p : Pattern} :
    t ∈ runs (.group index p) ⟨i, r, g⟩ ↔ ∃ u ∈ runs p ⟨i, r, g⟩, t = u.remember index i := by
  simp only [runs, List.mem_map]
  constructor
  · intro hex
    rcases hex with ⟨u, hu, rfl⟩
    exact ⟨u, hu, rfl⟩
  · intro hex
    rcases hex with ⟨u, hu, rfl⟩
    exact ⟨u, hu, rfl⟩

theorem mem_runs_literal {word : List Char} :
    t ∈ runs (literal word) ⟨i, r, g⟩ ↔ ∃ v, r = word ++ v ∧ t = ⟨i + word.length, v, g⟩ := by
  induction word generalizing i r with
  | nil => simp [literal, runs]
  | cons c cs ih =>
    simp only [literal, mem_runs_seq, mem_runs_only]
    constructor
    · intro hex
      rcases hex with ⟨u, ⟨v, rfl, rfl⟩, ht⟩
      obtain ⟨w, rfl, rfl⟩ := ih.1 ht
      exact ⟨w, rfl, by simp only [List.length_cons]; congr 1; omega⟩
    · intro hex
      rcases hex with ⟨v, rfl, rfl⟩
      refine ⟨_, ⟨cs ++ v, rfl, rfl⟩, ih.2 ⟨v, rfl, ?_⟩⟩
      simp only [List.length_cons]
      congr 1
      omega

theorem runs_many_nil : runs (many member) ⟨i, [], g⟩ = [⟨i, [], g⟩] := rfl

/-- The rounds after the first are those of the rest of the text. -/
theorem runs_many_cons (c : Char) (cs : List Char) :
    runs (many member) ⟨i, c :: cs, g⟩ =
      (if member c then runs (many member) ⟨i + 1, cs, g⟩ else []) ++ [⟨i, c :: cs, g⟩] := by
  by_cases hc : member c <;> simp [many, runs, roundRuns, hc, Cursor.advanced]

theorem mem_runs_many :
    t ∈ runs (many member) ⟨i, r, g⟩ ↔
      ∃ u v, r = u ++ v ∧ (∀ c ∈ u, member c = true) ∧ t = ⟨i + u.length, v, g⟩ := by
  induction r generalizing i with
  | nil =>
    rw [runs_many_nil, List.mem_singleton]
    constructor
    · intro heq
      subst heq
      exact ⟨[], [], rfl, by simp, rfl⟩
    · intro hex
      rcases hex with ⟨u, v, hr, -, rfl⟩
      obtain ⟨rfl, rfl⟩ := List.append_eq_nil_iff.1 hr.symm
      rfl
  | cons c cs ih =>
    rw [runs_many_cons, List.mem_append, List.mem_singleton]
    constructor
    · intro hor
      rcases hor with h | rfl
      · split at h
        · rename_i hc
          obtain ⟨u, v, rfl, hu, rfl⟩ := ih.1 h
          exact ⟨c :: u, v, rfl, by simpa [hc] using hu, by simp; omega⟩
        · simp at h
      · exact ⟨[], c :: cs, rfl, by simp, rfl⟩
    · intro hex
      rcases hex with ⟨u, v, hr, hu, rfl⟩
      -- the run that takes nothing comes last, after all that take the first character
      cases u with
      | nil =>
        right
        simp [hr]
      | cons d u =>
        left
        obtain ⟨rfl, rfl⟩ := List.cons.inj hr
        rw [if_pos (hu c (by simp))]
        exact ih.2 ⟨u, v, rfl, fun e he => hu e (by simp [he]), by simp; omega⟩

theorem mem_runs_atLeastOne :
    t ∈ runs (atLeastOne member) ⟨i, r, g⟩ ↔
      ∃ u v, r = u ++ v ∧ u ≠ [] ∧ (∀ c ∈ u, member c = true) ∧
        t = ⟨i + u.length, v, g⟩ := by
  rw [atLeastOne, mem_runs_seq]
  cases r with
  | nil =>
    simp only [runs, List.not_mem_nil, false_and, exists_false, false_iff]
    intro hex
    rcases hex with ⟨u, v, hr, hne, -⟩
    exact hne (List.append_eq_nil_iff.1 hr.symm).1
  | cons c cs =>
    simp only [runs]
    constructor
    · intro hex
      rcases hex with ⟨s, hs, ht⟩
      split at hs
      · rename_i hc
        obtain rfl := List.mem_singleton.1 hs
        obtain ⟨u, v, rfl, hu, rfl⟩ := mem_runs_many.1 ht
        exact ⟨c :: u, v, rfl, by simp, by simpa [hc] using hu, by simp; omega⟩
      · simp at hs
    · intro hex
      rcases hex with ⟨u, v, hr, hne, hu, rfl⟩
      cases u with
      | nil => exact absurd rfl hne
      | cons d u =>
        obtain ⟨rfl, rfl⟩ := List.cons.inj hr
        refine ⟨⟨i + 1, u ++ v, g⟩, by simp [hu c (by simp)], ?_⟩
        exact mem_runs_many.2 ⟨u, v, rfl, fun e he => hu e (by simp [he]), by simp; omega⟩

/-! ## Preference -/

variable {α : Type} {next : Cursor → Option α}

theorem first_many_nil : first (many member) ⟨i, [], g⟩ next = next ⟨i, [], g⟩ := rfl

theorem first_many_cons (c : Char) (cs : List Char) :
    first (many member) ⟨i, c :: cs, g⟩ next =
      ((if member c then first (many member) ⟨i + 1, cs, g⟩ next else none) <|>
        next ⟨i, c :: cs, g⟩) := by
  by_cases hc : member c <;> simp [first_eq, runs_many_cons, hc]

/-- A text that does not go on with a member of a class. -/
def Stops (member : Char → Bool) (text : List Char) : Prop := ∀ c ∈ text.head?, member c = false

theorem stops_nil : Stops member [] := by simp [Stops]

theorem stops_cons {c : Char} {cs : List Char} : Stops member (c :: cs) ↔ member c = false := by
  simp [Stops]

/-- If what follows cannot start with a member, every member is taken. -/
theorem first_many_of_refuses {u v : List Char} (hu : ∀ c ∈ u, member c = true)
    (hv : Stops member v) (refuses : ∀ j c cs, member c = true → next ⟨j, c :: cs, g⟩ = none) :
    first (many member) ⟨i, u ++ v, g⟩ next = next ⟨i + u.length, v, g⟩ := by
  induction u generalizing i with
  | nil =>
    cases v with
    | nil => simp [first_many_nil]
    | cons c cs => simp [first_many_cons, stops_cons.1 hv]
  | cons c cs ih =>
    have hc : member c = true := hu c (by simp)
    rw [List.cons_append, first_many_cons, if_pos hc, ih (fun d hd => hu d (by simp [hd])),
      refuses _ _ _ hc]
    simp only [List.length_cons, Option.orElse_eq_orElse, Option.orElse_eq_or, Option.or_none]
    congr 2
    omega

/-- If what follows succeeds after every member, that is preferred. -/
theorem first_many_of_succeeds {u v : List Char} {x : α} (hu : ∀ c ∈ u, member c = true)
    (hv : Stops member v) (succeeds : next ⟨i + u.length, v, g⟩ = some x) :
    first (many member) ⟨i, u ++ v, g⟩ next = some x := by
  induction u generalizing i with
  | nil =>
    cases v with
    | nil => simpa [first_many_nil] using succeeds
    | cons c cs => simpa [first_many_cons, stops_cons.1 hv] using succeeds
  | cons c cs ih =>
    have hc : member c = true := hu c (by simp)
    have hnext : next ⟨i + 1 + cs.length, v, g⟩ = some x := by
      rw [← succeeds]
      simp only [List.length_cons]
      congr 2
      omega
    rw [List.cons_append, first_many_cons, if_pos hc, ih (fun d hd => hu d (by simp [hd])) hnext]
    simp

/-- A repetition fails if what follows succeeds nowhere. -/
theorem first_many_of_fails (fails : ∀ a w, r = a ++ w → ∀ j, next ⟨j, w, g⟩ = none) :
    first (many member) ⟨i, r, g⟩ next = none := by
  rw [first_eq, List.findSome?_eq_none_iff]
  intro t ht
  obtain ⟨u, v, rfl, -, rfl⟩ := mem_runs_many.1 ht
  exact fails u v rfl _

/-- The last place where what follows succeeds is preferred. -/
theorem first_many_of_last {u v : List Char} {x : α} (hu : ∀ c ∈ u, member c = true)
    (fails : ∀ a w, v = a ++ w → a ≠ [] → ∀ j, next ⟨j, w, g⟩ = none)
    (succeeds : next ⟨i + u.length, v, g⟩ = some x) :
    first (many member) ⟨i, u ++ v, g⟩ next = some x := by
  induction u generalizing i with
  | nil =>
    cases v with
    | nil => simpa [first_many_nil] using succeeds
    | cons c cs =>
      have hrest : first (many member) ⟨i + 1, cs, g⟩ next = none :=
        first_many_of_fails fun a w hcs j => fails (c :: a) w (by rw [hcs]; rfl) (by simp) j
      rw [List.nil_append, first_many_cons, hrest, ite_self]
      exact succeeds
  | cons c cs ih =>
    have hnext : next ⟨i + 1 + cs.length, v, g⟩ = some x := by
      rw [← succeeds]
      simp only [List.length_cons]
      congr 2
      omega
    rw [List.cons_append, first_many_cons, if_pos (hu c (by simp)),
      ih (fun d hd => hu d (by simp [hd])) hnext]
    simp

theorem first_atLeastOne_cons (c : Char) (cs : List Char) :
    first (atLeastOne member) ⟨i, c :: cs, g⟩ next =
      if member c then first (many member) ⟨i + 1, cs, g⟩ next else none := by
  simp only [atLeastOne, first]

theorem first_atLeastOne_of_refuses {u v : List Char} (hne : u ≠ [])
    (hu : ∀ c ∈ u, member c = true) (hv : Stops member v)
    (refuses : ∀ j c cs, member c = true → next ⟨j, c :: cs, g⟩ = none) :
    first (atLeastOne member) ⟨i, u ++ v, g⟩ next = next ⟨i + u.length, v, g⟩ := by
  cases u with
  | nil => exact absurd rfl hne
  | cons c cs =>
    rw [List.cons_append, first_atLeastOne_cons, if_pos (hu c (by simp)),
      first_many_of_refuses (fun d hd => hu d (by simp [hd])) hv refuses]
    simp only [List.length_cons]
    congr 2
    omega

theorem first_atLeastOne_of_succeeds {u v : List Char} {x : α} (hne : u ≠ [])
    (hu : ∀ c ∈ u, member c = true) (hv : Stops member v)
    (succeeds : next ⟨i + u.length, v, g⟩ = some x) :
    first (atLeastOne member) ⟨i, u ++ v, g⟩ next = some x := by
  cases u with
  | nil => exact absurd rfl hne
  | cons c cs =>
    rw [List.cons_append, first_atLeastOne_cons, if_pos (hu c (by simp))]
    refine first_many_of_succeeds (fun d hd => hu d (by simp [hd])) hv ?_
    rw [← succeeds]
    simp only [List.length_cons]
    congr 2
    omega

/-- A class that needs a member fails where the text does not go on with one. -/
theorem first_atLeastOne_of_stops (hr : Stops member r) :
    first (atLeastOne member) ⟨i, r, g⟩ next = none := by
  cases r with
  | nil => rfl
  | cons c cs => simp [first_atLeastOne_cons, stops_cons.1 hr]

@[simp] theorem first_only_nil (c : Char) : first (only c) ⟨i, [], g⟩ next = none := rfl

@[simp] theorem first_only_cons (c d : Char) (ds : List Char) :
    first (only c) ⟨i, d :: ds, g⟩ next = if d = c then next ⟨i + 1, ds, g⟩ else none := by
  simp [only, first]

/-! ## What is consumed -/

/-- Whether every run of a pattern consumes something. -/
def consumes : Pattern → Bool
  | .empty => false
  | .one _ => true
  | .seq p q => consumes p || consumes q
  | .alt p q => consumes p && consumes q
  | .star _ _ => false
  | .group _ p => consumes p
  | .atEnd => false

/-- The stretch that a run consumes is made of characters of the classes of the pattern. -/
theorem consumed_of_mem_runs {p : Pattern} {s : Cursor} (ht : t ∈ runs p s) :
    ∃ between, s.rest = between ++ t.rest ∧ t.position = s.position + between.length ∧
      ∀ c ∈ between, ∃ member ∈ p.classes, member c = true := by
  refine rel_of_mem_runs (R := fun s t => ∃ between, s.rest = between ++ t.rest ∧
    t.position = s.position + between.length ∧
      ∀ c ∈ between, ∃ member ∈ p.classes, member c = true) ?_ ?_ ?_ ?_ ht
  · intro s
    exact ⟨[], rfl, rfl, by simp⟩
  · rintro s t u ⟨a, ha, hpa, hma⟩ ⟨b, hb, hpb, hmb⟩
    refine ⟨a ++ b, by rw [ha, hb, List.append_assoc], ?_, ?_⟩
    · rw [hpb, hpa, List.length_append, Nat.add_assoc]
    · intro c hc
      exact (List.mem_append.1 hc).elim (hma c) (hmb c)
  · intro s t index hst
    exact hst
  · intro member hmember s c cs hr hc
    exact ⟨[c], hr, rfl, by simpa using ⟨member, hmember, hc⟩⟩

theorem lt_of_mem_runs {p : Pattern} (hp : p.consumes = true) {s : Cursor} (ht : t ∈ runs p s) :
    s.position < t.position := by
  induction p generalizing s t with
  | empty => simp [consumes] at hp
  | one member =>
    obtain ⟨position, rest, groups⟩ := s
    cases rest with
    | nil => simp [runs] at ht
    | cons c cs =>
      simp only [runs] at ht
      split at ht
      · obtain rfl := List.mem_singleton.1 ht
        exact Nat.lt_succ_self position
      · simp at ht
  | seq p q ihp ihq =>
    simp only [consumes, Bool.or_eq_true] at hp
    obtain ⟨u, hu, htu⟩ := mem_runs_seq.1 ht
    obtain ⟨a, -, ha⟩ := reaches_of_mem_runs hu
    obtain ⟨b, -, hb⟩ := reaches_of_mem_runs htu
    rcases hp with hp | hq
    · have := ihp hp hu
      omega
    · have := ihq hq htu
      omega
  | alt p q ihp ihq =>
    simp only [consumes, Bool.and_eq_true] at hp
    simp only [runs, List.mem_append] at ht
    exact ht.elim (ihp hp.1) (ihq hp.2)
  | star p greedy => simp [consumes] at hp
  | group index p ih =>
    obtain ⟨position, rest, groups⟩ := s
    obtain ⟨u, hu, rfl⟩ := mem_runs_group.1 ht
    show position < u.position
    exact ih hp hu
  | atEnd => simp [consumes] at hp

end ApiCatalog.Pattern
