import ApiCatalog.Proofs.Pattern.Place

/-!
# Splicing a text

A replacement of matches that do not overlap is a splice: what is written for each match, with the
stretches of the text that stand between the matches. Where no match reaches over a place, the
splice is cut there (`splice_append`), and a stretch that no match touches is part of it as it
stands (`splice_of_le`). `replaceAll` splices what stands for the matches that a search finds from
left to right.
-/

namespace ApiCatalog

/-- The text from `last` on, with the given texts in place of the matches. -/
def splice (text : List Char) : Nat → List (Match × List Char) → List Char
  | last, [] => text.drop last
  | last, (m, written) :: rows => slice text last m.start ++ written ++ splice text m.stop rows

/-- Matches from `last` up to `stop` that come one after the other and do not overlap. -/
def InOrder (stop : Nat) : Nat → List Match → Prop
  | last, [] => last ≤ stop
  | last, m :: ms => last ≤ m.start ∧ m.start ≤ m.stop ∧ InOrder stop m.stop ms

variable {text : List Char} {ms : List Match} {rows rows₁ rows₂ : List (Match × List Char)}
variable {last start stop : Nat}

/-! ## Order -/

theorem InOrder.le (h : InOrder stop last ms) : last ≤ stop := by
  induction ms generalizing last with
  | nil => exact h
  | cons m ms ih =>
    obtain ⟨hstart, hm, hms⟩ := h
    have := ih hms
    omega

theorem InOrder.of_le (h : InOrder stop last ms) (hle : start ≤ last) : InOrder stop start ms := by
  cases ms with
  | nil => exact Nat.le_trans hle h
  | cons m ms => exact ⟨Nat.le_trans hle h.1, h.2⟩

/-- Matches that do not end inside a stretch either lie on its sides, or one contains it. -/
theorem InOrder.split {size : Nat} (h : InOrder size last ms) (hlast : last ≤ start)
    (hstop : stop ≤ size)
    (hbeside : ∀ m ∈ ms, (m.start ≤ start ∨ stop ≤ m.start) ∧ (m.stop ≤ start ∨ stop ≤ m.stop)) :
    (∃ m ∈ ms, m.start ≤ start ∧ stop ≤ m.stop) ∨
      ∃ ms₁ ms₂, ms = ms₁ ++ ms₂ ∧ InOrder start last ms₁ ∧ InOrder size stop ms₂ := by
  induction ms generalizing last with
  | nil => exact .inr ⟨[], [], rfl, hlast, hstop⟩
  | cons m ms ih =>
    obtain ⟨hstart, hm, hms⟩ := h
    obtain ⟨hopen, hclose⟩ := hbeside m (by simp)
    rcases hopen with hopen | hafter
    · rcases hclose with hbefore | hclose
      · rcases ih hms hbefore fun m hm => hbeside m (by simp [hm]) with hin | hsides
        · obtain ⟨m', hm', hcontains⟩ := hin
          exact .inl ⟨m', by simp [hm'], hcontains⟩
        · obtain ⟨ms₁, ms₂, rfl, h₁, h₂⟩ := hsides
          exact .inr ⟨m :: ms₁, ms₂, rfl, ⟨hstart, hm, h₁⟩, h₂⟩
      · exact .inl ⟨m, by simp, hopen, hclose⟩
    · exact .inr ⟨[], m :: ms, rfl, hlast, ⟨hafter, hm, hms⟩⟩

/-! ## Stretches -/

theorem slice_eq_drop (h : text.length ≤ stop) : slice text start stop = text.drop start := by
  rw [slice, List.take_of_length_le h]

/-- A stretch and what follows it. -/
theorem slice_append_drop (text : List Char) (h : start ≤ stop) :
    slice text start stop ++ text.drop stop = text.drop start := by
  rcases Nat.le_total stop text.length with hstop | hstop
  · rw [← slice_eq_drop (Nat.le_refl text.length), slice_append_slice text h hstop,
      slice_eq_drop (Nat.le_refl text.length)]
  · rw [slice_eq_drop hstop, List.drop_eq_nil_of_le hstop, List.append_nil]

theorem slice_take (h : stop ≤ last) : slice (text.take last) start stop = slice text start stop := by
  rw [slice, slice, List.take_take, Nat.min_eq_left h]

/-! ## Splices -/

/-- If each match is written as it stands, so is the text. -/
theorem splice_slices (h : InOrder stop last ms) :
    splice text last (ms.map fun m => (m, slice text m.start m.stop)) = text.drop last := by
  induction ms generalizing last with
  | nil => rfl
  | cons m ms ih =>
    obtain ⟨hstart, hm, hms⟩ := h
    rw [List.map_cons, splice, ih hms, List.append_assoc, slice_append_drop text hm,
      slice_append_drop text hstart]

/-- A stretch before the first match is written as it stands. -/
theorem splice_of_le (hle : start ≤ last) (h : InOrder stop last (rows.map Prod.fst)) :
    splice text start rows = slice text start last ++ splice text last rows := by
  cases rows with
  | nil => exact (slice_append_drop text hle).symm
  | cons row rows =>
    rw [splice, splice, ← slice_append_slice text hle h.1, List.append_assoc, List.append_assoc,
      List.append_assoc]

/-- Where no match reaches over a place, the splice is cut there. -/
theorem splice_append {cut : Nat} (h₁ : InOrder cut last (rows₁.map Prod.fst))
    (h₂ : InOrder stop cut (rows₂.map Prod.fst)) :
    splice text last (rows₁ ++ rows₂) =
      splice (text.take cut) last rows₁ ++ splice text cut rows₂ := by
  induction rows₁ generalizing last with
  | nil => exact splice_of_le h₁ h₂
  | cons row rows₁ ih =>
    obtain ⟨hstart, hrow, hrows⟩ := h₁
    have hcut : row.1.start ≤ cut := Nat.le_trans hrow hrows.le
    rw [List.cons_append, splice, splice, ih hrows, slice_take hcut]
    simp only [List.append_assoc]

/-! ## All matches -/

/-- The matches that are found one after the other from a place on, given where the one before them
ended: an empty match right there is passed over. -/
def matchesFrom (searcher : Searcher) (text : List Char) (previous : Option Nat) (place : Nat) :
    List Match :=
  if place ≤ text.length then
    match _h : searcher.find? text place with
    | none => []
    | some m =>
      if m.start = m.stop ∧ previous = some m.stop then
        matchesFrom searcher text previous (m.stop + 1)
      else m :: matchesFrom searcher text (some m.stop) m.stop
  else []
termination_by 2 * (text.length + 1 - place) + if previous = some place then 0 else 1
decreasing_by
  all_goals have hin := searcher.inside _h
  · split <;> split <;> omega
  · rename_i hmove
    by_cases hstop : m.stop = place
    · have hprevious : previous ≠ some place := fun h => hmove ⟨by omega, hstop ▸ h⟩
      simp [hprevious, hstop]
    · split <;> omega

/-- The text with all matches replaced, from left to right. -/
def replaceAll (searcher : Searcher) (replacement : Captures → List Char) (text : List Char) :
    List Char :=
  splice text 0 ((matchesFrom searcher text none 0).map fun m => (m, replacement (m.captures text)))

theorem matchesFrom_of_none {searcher : Searcher} {previous : Option Nat} {place : Nat}
    (h : place ≤ text.length → searcher.find? text place = none) :
    matchesFrom searcher text previous place = [] := by
  rw [matchesFrom]
  split
  · rename_i hplace
    split
    · rfl
    · rename_i m hm
      simp [h hplace] at hm
  · rfl

/-- After a match that is not empty the search goes on at its end. -/
theorem matchesFrom_of_some {searcher : Searcher} {previous : Option Nat} {place : Nat} {m : Match}
    (h : searcher.find? text place = some m) (hplace : place ≤ text.length)
    (hm : m.start < m.stop) :
    matchesFrom searcher text previous place = m :: matchesFrom searcher text (some m.stop) m.stop := by
  rw [matchesFrom, if_pos hplace]
  split
  · simp_all
  · rename_i found hfound
    obtain rfl := Option.some.inj (h.symm.trans hfound)
    exact if_neg fun hempty => Nat.ne_of_lt hm hempty.1

end ApiCatalog
