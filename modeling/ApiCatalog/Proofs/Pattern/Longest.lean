import ApiCatalog.Proofs.Pattern.Cut
import ApiCatalog.Proofs.Pattern.Runs

/-!
# Patterns that prefer the longest match

The preferred run of a pattern is not in general its longest one. It is for a pattern whose runs
come from the longest to the shortest (`LongestFirst`): one that may end in several places only
where it repeats a class greedily, and after that goes on in one way. A match of such a pattern ends
at the last place where a match can end (`matchHere?_longest`).

Which stretches a pattern matches as a whole (`Fits`) does not depend on the order of its runs. For
a pattern that does not ask for the end of the text these are the ends of its runs on any text
(`exists_run_append_iff_fits`).
-/

namespace ApiCatalog.Pattern

/-! ## The order of runs -/

/-- Each run ends before all that are preferred to it. -/
def LongestFirst (p : Pattern) : Prop :=
  ∀ s, (runs p s).Pairwise fun t u => u.position < t.position

/-- There is at most one run from each place. -/
def Unforked (p : Pattern) : Prop := ∀ s, (runs p s).length ≤ 1

variable {p q : Pattern} {member : Char → Bool}

theorem Unforked.eq_nil_or_singleton (hp : Unforked p) (s : Cursor) :
    runs p s = [] ∨ ∃ t, runs p s = [t] := by
  have hs := hp s
  match hruns : runs p s with
  | [] => exact .inl rfl
  | [t] => exact .inr ⟨t, rfl⟩
  | _ :: _ :: _ => simp [hruns] at hs

theorem unforked_one (member : Char → Bool) : Unforked (.one member) := by
  rintro ⟨i, rest, groups⟩
  cases rest with
  | nil => simp [runs]
  | cons c cs => by_cases hc : member c <;> simp [runs, hc]

theorem unforked_only (c : Char) : Unforked (only c) := unforked_one _

theorem Unforked.seq (hp : Unforked p) (hq : Unforked q) : Unforked (.seq p q) := by
  intro s
  rw [runs]
  rcases hp.eq_nil_or_singleton s with hruns | ⟨t, hruns⟩
  · simp [hruns]
  · simpa [hruns] using hq t

theorem unforked_literal (word : List Char) : Unforked (literal word) := by
  induction word with
  | nil => exact fun s => Nat.le_refl 1
  | cons c cs ih => exact (unforked_only c).seq ih

/-- Members of a class and then one character that is none can be taken in one way only. -/
theorem unforked_many_only {c : Char} (hc : member c = false) :
    Unforked (.seq (many member) (only c)) := by
  rintro ⟨i, rest, groups⟩
  rw [runs]
  induction rest generalizing i with
  | nil => simp [runs_many_nil, only, runs]
  | cons d ds ih =>
    rw [runs_many_cons, List.flatMap_append]
    -- the repetition can go on or stop, but not both: a member does not match what comes next
    by_cases hd : member d = true
    · have hne : d ≠ c := by
        rintro rfl
        rw [hc] at hd
        exact absurd hd (by decide)
      rw [if_pos hd]
      simpa [only, runs, hne] using ih (i + 1)
    · rw [if_neg hd]
      simpa using unforked_only c ⟨i, d :: ds, groups⟩

theorem longestFirst_many (member : Char → Bool) : LongestFirst (many member) := by
  rintro ⟨i, rest, groups⟩
  induction rest generalizing i with
  | nil => simp [runs_many_nil]
  | cons c cs ih =>
    have hlater : ∀ t ∈ runs (many member) ⟨i + 1, cs, groups⟩, i < t.position := by
      intro t ht
      obtain ⟨between, -, hposition⟩ := reaches_of_mem_runs ht
      rw [hposition]
      exact Nat.lt_of_lt_of_le (Nat.lt_succ_self i) (Nat.le_add_right _ _)
    rw [runs_many_cons]
    split
    · rw [List.pairwise_append]
      exact ⟨ih (i + 1), by simp, by simpa using hlater⟩
    · simp

theorem LongestFirst.group (hp : LongestFirst p) (index : Nat) : LongestFirst (.group index p) := by
  intro s
  rw [runs, List.pairwise_map]
  exact hp s

/-- One character after the runs moves their ends by one. -/
theorem LongestFirst.seq_only (hp : LongestFirst p) (c : Char) :
    LongestFirst (.seq p (only c)) := by
  have hnext : ∀ s, ∀ t ∈ runs (only c) s, t.position = s.position + 1 := by
    rintro ⟨i, rest, groups⟩ t ht
    obtain ⟨v, -, rfl⟩ := mem_runs_only.1 ht
    rfl
  intro s
  rw [runs, List.pairwise_flatMap]
  constructor
  · intro t _
    rcases (unforked_only c).eq_nil_or_singleton t with hruns | ⟨u, hruns⟩ <;> simp [hruns]
  · refine (hp s).imp fun hlt t ht u hu => ?_
    rw [hnext _ t ht, hnext _ u hu]
    exact Nat.succ_lt_succ hlt

/-- What comes first and leaves no choice does not change the order. -/
theorem Unforked.seq_longestFirst (hp : Unforked p) (hq : LongestFirst q) :
    LongestFirst (.seq p q) := by
  intro s
  rw [runs]
  rcases hp.eq_nil_or_singleton s with hruns | ⟨t, hruns⟩
  · simp [hruns]
  · simpa [hruns] using hq t

theorem runs_seq_assoc (p q r : Pattern) (s : Cursor) :
    runs (.seq p (.seq q r)) s = runs (.seq (.seq p q) r) s := by
  simp only [runs, List.flatMap_assoc]

/-! ## Stretches that match -/

/-- The pattern matches the stretch as a whole. -/
def Fits (p : Pattern) (stretch : List Char) : Prop := ∃ t ∈ runs p ⟨0, stretch, []⟩, t.rest = []

instance (p : Pattern) : DecidablePred (Fits p) := fun stretch =>
  inferInstanceAs (Decidable (∃ t ∈ runs p ⟨0, stretch, []⟩, t.rest = []))

variable {text : List Char} {m : Match} {stop : Nat}

/-- The runs on a text that end with its first part are those that match this part. -/
theorem exists_run_append_iff_fits (hp : p.unanchored = true) {a b : List Char} :
    (∃ t ∈ runs p ⟨0, a ++ b, []⟩, t.position = a.length) ↔ Fits p a := by
  have hruns : (runs p ⟨0, a ++ b, []⟩).filter (·.leaves b.length) =
      (runs p ⟨0, a, []⟩).map (·.extend b) := runs_extend p hp b ⟨0, a, []⟩
  have hends : ∀ u ∈ runs p ⟨0, a, []⟩, u.position = a.length ↔ u.rest = [] := by
    intro u hu
    obtain ⟨between, hrest, hposition⟩ := reaches_of_mem_runs hu
    have hlen := congrArg List.length hrest
    simp only [List.length_append, Nat.zero_add] at hlen hposition
    rw [← List.length_eq_zero_iff]
    omega
  constructor
  · rintro ⟨t, ht, hposition⟩
    have hmem := List.mem_filter.2 ⟨ht, (leaves_iff_of_mem_runs ht).2 (Nat.le_of_eq hposition)⟩
    rw [hruns] at hmem
    obtain ⟨u, hu, rfl⟩ := List.mem_map.1 hmem
    exact ⟨u, hu, (hends u hu).1 hposition⟩
  · rintro ⟨u, hu, hrest⟩
    have hmem := List.mem_map_of_mem (f := (·.extend b)) hu
    rw [← hruns] at hmem
    exact ⟨_, (List.mem_filter.1 hmem).1, (hends u hu).2 hrest⟩

theorem exists_run_iff_fits (hp : p.unanchored = true) (hstop : stop ≤ text.length) :
    (∃ t ∈ runs p ⟨0, text, []⟩, t.position = stop) ↔ Fits p (text.take stop) := by
  have hiff := exists_run_append_iff_fits hp (a := text.take stop) (b := text.drop stop)
  rwa [List.take_append_drop, List.length_take_of_le hstop] at hiff

theorem position_le_of_mem_runs {t : Cursor} (ht : t ∈ runs p ⟨0, text, []⟩) :
    t.position ≤ text.length := by
  obtain ⟨between, hrest, hposition⟩ := reaches_of_mem_runs ht
  have hlength := congrArg List.length hrest
  simp only [List.length_append, Nat.zero_add] at hlength hposition
  omega

/-- Nothing is found where no stretch matches. -/
theorem matchHere?_eq_none_iff (hp : p.unanchored = true) :
    p.matchHere? text 0 = none ↔ ∀ stop ≤ text.length, ¬ Fits p (text.take stop) := by
  rw [matchHere?_eq_head?, Option.map_eq_none_iff, List.head?_eq_none_iff]
  constructor
  · intro hnone stop hstop hfits
    obtain ⟨t, ht, -⟩ := (exists_run_iff_fits hp hstop).2 hfits
    rw [hnone] at ht
    exact absurd ht List.not_mem_nil
  · intro hnone
    refine List.eq_nil_iff_forall_not_mem.2 fun t ht => ?_
    have hstop := position_le_of_mem_runs ht
    exact hnone t.position hstop ((exists_run_iff_fits hp hstop).1 ⟨t, ht, rfl⟩)

/-- What is found is a stretch that matches. -/
theorem fits_of_matchHere? (hp : p.unanchored = true) (h : p.matchHere? text 0 = some m) :
    m.stop ≤ text.length ∧ Fits p (text.take m.stop) := by
  obtain ⟨t, ht, rfl⟩ := exists_run_of_matchHere? h
  have hstop := position_le_of_mem_runs ht
  exact ⟨hstop, (exists_run_iff_fits hp hstop).1 ⟨t, ht, rfl⟩⟩

/-- A pattern that prefers the longest match finds it. -/
theorem matchHere?_longest (hp : p.unanchored = true) (hlongest : LongestFirst p)
    (h : p.matchHere? text 0 = some m) (hstop : stop ≤ text.length)
    (hfits : Fits p (text.take stop)) : stop ≤ m.stop := by
  rw [matchHere?_eq_head?] at h
  obtain ⟨t, ht, rfl⟩ := Option.map_eq_some_iff.1 h
  obtain ⟨u, hu, rfl⟩ := (exists_run_iff_fits hp hstop).2 hfits
  obtain ⟨ts, hruns⟩ := List.head?_eq_some_iff.1 ht
  have horder := hlongest ⟨0, text, []⟩
  rw [hruns] at hu horder
  rcases List.mem_cons.1 hu with rfl | hu
  · exact Nat.le_refl _
  · exact Nat.le_of_lt ((List.pairwise_cons.1 horder).1 u hu)

end ApiCatalog.Pattern
