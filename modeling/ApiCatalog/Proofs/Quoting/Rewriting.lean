import ApiCatalog.Proofs.Pattern.Place
import ApiCatalog.Proofs.Quoting.Literals
import ApiCatalog.Quoting.Substitution

/-!
# Substitution as rewriting from left to right

`substitute` searches a whole text over and over, from places that move on. `rewrite` goes through
the text once and decides at each place, from what follows there, whether a match is replaced or
one character is kept. `substitute_eq_rewrite` says that the two agree for every pattern, so the
replacement of a text can be computed piece by piece: `rewrite_of_none` keeps a character,
`rewrite_of_some` replaces a match.
-/

namespace ApiCatalog.Quoting

/-- Whether the place after the first `count` characters of a text is outside quotes, given whether
an odd run of backslashes precedes the text. -/
def outsideAt (escaped : Bool) (text : List Char) (count : Nat) : Bool :=
  pairsUp (escapedAfter escaped (text.take count)) (text.drop count)

/-- What a retreat settles on at the start of a text, below `stop`. -/
def retreatHere? (p : Pattern) (escaped : Bool) (text : List Char) (stop : Nat) : Option Match :=
  if 0 < stop then
    match _h : p.matchHere? (text.take (stop - 1)) 0 with
    | none => none
    | some m =>
      if outsideAt escaped text m.stop then some m else retreatHere? p escaped text m.stop
  else none
termination_by stop
decreasing_by
  have := (Pattern.matchHere?_inside _h).2.2
  simp only [List.length_take] at this
  omega

/-- The match that is replaced at the start of a text, if there is one. -/
def settleHere? (p : Pattern) (escaped : Bool) (text : List Char) : Option Match :=
  if pairsUp escaped text then
    match p.matchHere? text 0 with
    | none => none
    | some m =>
      if outsideAt escaped text m.stop then some m else retreatHere? p escaped text m.stop
  else none

/-- What is settled on starts where the text does, and lies inside it. -/
theorem retreatHere?_inside {p : Pattern} {escaped : Bool} {text : List Char} {stop : Nat}
    {m : Match} (h : retreatHere? p escaped text stop = some m) :
    m.start = 0 ∧ m.stop ≤ text.length := by
  induction stop using Nat.strongRecOn with
  | ind stop ih =>
    rw [retreatHere?] at h
    split at h
    · split at h
      · simp at h
      · rename_i found hfound
        have hin := Pattern.matchHere?_inside hfound
        simp only [List.length_take] at hin
        split at h
        · obtain rfl := Option.some.inj h
          omega
        · exact ih found.stop (by omega) h
    · simp at h

theorem settleHere?_inside {p : Pattern} {escaped : Bool} {text : List Char} {m : Match}
    (h : settleHere? p escaped text = some m) : m.start = 0 ∧ m.stop ≤ text.length := by
  simp only [settleHere?] at h
  split at h
  · split at h
    · simp at h
    · rename_i found hfound
      have hin := Pattern.matchHere?_inside hfound
      split at h
      · obtain rfl := Option.some.inj h
        omega
      · exact retreatHere?_inside h
  · simp at h

/-- The text with the matches outside quotes replaced, given whether an odd run of backslashes
precedes it. -/
def rewrite (p : Pattern) (replacement : Replacement) (escaped : Bool) :
    List Char → List Char
  | [] =>
    match settleHere? p escaped [] with
    | none => []
    | some m => replacement (m.captures [])
  | c :: cs =>
    match settleHere? p escaped (c :: cs) with
    | none => c :: rewrite p replacement (c == '\\' && !escaped) cs
    | some m =>
      if m.stop = 0 then
        replacement (m.captures (c :: cs)) ++
          c :: rewrite p replacement (c == '\\' && !escaped) cs
      else
        replacement (m.captures (c :: cs)) ++
          rewrite p replacement (escapedAfter escaped ((c :: cs).take m.stop))
            ((c :: cs).drop m.stop)
termination_by text => text.length
decreasing_by
  · simp
  · simp
  · simp only [List.length_drop, List.length_cons]
    omega

variable {p : Pattern} {replacement : Replacement} {escaped : Bool}

theorem rewrite_nil :
    rewrite p replacement escaped [] =
      match settleHere? p escaped [] with
      | none => []
      | some m => replacement (m.captures []) := by
  rw [rewrite]

theorem rewrite_cons {c : Char} {cs : List Char} :
    rewrite p replacement escaped (c :: cs) =
      match settleHere? p escaped (c :: cs) with
      | none => c :: rewrite p replacement (c == '\\' && !escaped) cs
      | some m =>
        if m.stop = 0 then
          replacement (m.captures (c :: cs)) ++
            c :: rewrite p replacement (c == '\\' && !escaped) cs
        else
          replacement (m.captures (c :: cs)) ++
            rewrite p replacement (escapedAfter escaped ((c :: cs).take m.stop))
              ((c :: cs).drop m.stop) := by
  rw [rewrite]

theorem rewrite_nil_of_none (h : settleHere? p escaped [] = none) :
    rewrite p replacement escaped [] = [] := by
  rw [rewrite_nil, h]

theorem rewrite_of_none {c : Char} {cs : List Char}
    (h : settleHere? p escaped (c :: cs) = none) :
    rewrite p replacement escaped (c :: cs) =
      c :: rewrite p replacement (c == '\\' && !escaped) cs := by
  rw [rewrite_cons, h]

theorem rewrite_of_some {text : List Char} {m : Match}
    (h : settleHere? p escaped text = some m) (hm : m.stop ≠ 0) :
    rewrite p replacement escaped text =
      replacement (m.captures text) ++
        rewrite p replacement (escapedAfter escaped (text.take m.stop)) (text.drop m.stop) := by
  have hle := (settleHere?_inside h).2
  cases text with
  | nil => simp_all
  | cons c cs =>
    rw [rewrite_cons, h]
    exact if_neg hm

theorem rewrite_nil_of_some {m : Match} (h : settleHere? p escaped [] = some m) :
    rewrite p replacement escaped [] = replacement (m.captures []) := by
  rw [rewrite_nil, h]

/-- An empty match is replaced, and the character after it is kept. -/
theorem rewrite_of_empty {c : Char} {cs : List Char} {m : Match}
    (h : settleHere? p escaped (c :: cs) = some m) (hm : m.stop = 0) :
    rewrite p replacement escaped (c :: cs) =
      replacement (m.captures (c :: cs)) ++
        c :: rewrite p replacement (c == '\\' && !escaped) cs := by
  rw [rewrite_cons, h]
  exact if_pos hm

/-! ## What is kept -/

theorem settleHere?_of_quoted {text : List Char} (h : pairsUp escaped text = false) :
    settleHere? p escaped text = none := by
  simp [settleHere?, h]

theorem settleHere?_of_none {text : List Char} (h : p.matchHere? text 0 = none) :
    settleHere? p escaped text = none := by
  simp [settleHere?, h]

/-- A stretch is kept if nothing is replaced at any of its places. -/
theorem rewrite_append_of_none {u rest : List Char}
    (h : ∀ a c b, u = a ++ c :: b →
      settleHere? p (escapedAfter escaped a) (c :: (b ++ rest)) = none) :
    rewrite p replacement escaped (u ++ rest) =
      u ++ rewrite p replacement (escapedAfter escaped u) rest := by
  induction u generalizing escaped with
  | nil => rfl
  | cons c cs ih =>
    have hcs : rewrite p replacement (c == '\\' && !escaped) (cs ++ rest) =
        cs ++ rewrite p replacement (escapedAfter (c == '\\' && !escaped) cs) rest :=
      ih fun a d b hab => by
        have := h (c :: a) d b (by rw [hab]; rfl)
        rwa [escapedAfter_cons] at this
    have hc : settleHere? p escaped (c :: (cs ++ rest)) = none := h [] c cs rfl
    rw [List.cons_append, rewrite_of_none hc, hcs]
    rfl

/-- A literal is kept if no match is replaced where it opens. -/
theorem rewrite_literal_of_none {l rest : List Char} (hl : IsLiteral l)
    (hrest : pairsUp false rest = true) (h : settleHere? p false (l ++ rest) = none) :
    rewrite p replacement false (l ++ rest) = l ++ rewrite p replacement false rest := by
  have hcopy : rewrite p replacement false (l ++ rest) =
      l ++ rewrite p replacement (escapedAfter false l) rest :=
    rewrite_append_of_none fun a c b hab => by
      cases a with
      | nil =>
        rw [hab] at h
        exact h
      | cons d a =>
        rw [hab] at hl
        exact settleHere?_of_quoted (hl.not_pairsUp_inside (by simp) (by simp) hrest)
  rw [hcopy, hl.escapedAfter]

/-! ## Agreement with the search -/

variable {before text : List Char} {m : Match}

theorem isUnquoted_append_add {count : Nat} (h : count ≤ text.length) :
    isUnquoted (before ++ text) (before.length + count) =
      outsideAt (escapedAfter false before) text count := by
  have hcut : before ++ text = before ++ text.take count ++ text.drop count := by simp
  have hlen : before.length + count = (before ++ text.take count).length := by
    rw [List.length_append, List.length_take_of_le h]
  rw [hlen, hcut, isUnquoted_append, escapedAfter_append, outsideAt]

/-- What a search finds if there is no match at its place. -/
theorem find?_of_none {c : Char} {cs : List Char} (h : p.matchHere? (c :: cs) 0 = none) :
    p.find? (before ++ c :: cs) before.length =
      p.find? (before ++ c :: cs) (before.length + 1) := by
  have hd : (before ++ c :: cs).drop (before.length + 1) = cs := by simp [List.drop_append]
  simp only [Pattern.find?, List.length_append, List.length_cons]
  rw [if_pos (by omega), if_pos (by omega), List.drop_left, hd, Pattern.searchFrom?,
    Pattern.matchHere?_moved, h]
  simp

theorem find?_nil_of_none (h : p.matchHere? [] 0 = none) :
    p.find? (before ++ []) before.length = none := by
  rw [Pattern.find?, if_pos (by simp), List.drop_left, Pattern.searchFrom?,
    Pattern.matchHere?_moved, h]
  rfl

/-- What a search finds if there is a match at its place. -/
theorem find?_of_some (h : p.matchHere? text 0 = some m) :
    p.find? (before ++ text) before.length = some (m.moved before.length) := by
  rw [Pattern.find?, if_pos (by simp), List.drop_left]
  cases text <;> simp [Pattern.searchFrom?, Pattern.matchHere?_moved p _ before.length, h]

/-- If there is no match at its place, a search finds nothing there. -/
theorem start_ne_of_none (h : p.matchHere? text 0 = none)
    (hm : p.find? (before ++ text) before.length = some m) : m.start ≠ before.length := by
  cases text with
  | nil =>
    rw [find?_nil_of_none h] at hm
    simp at hm
  | cons c cs =>
    rw [find?_of_none h] at hm
    have := (p.searcher.inside hm).1
    omega

theorem retreatHere?_of_none {stop : Nat} (h : p.matchHere? (text.take (stop - 1)) 0 = none) :
    retreatHere? p escaped text stop = none := by
  rw [retreatHere?]
  split
  · split
    · rfl
    · simp_all
  · rfl

theorem retreatHere?_of_some {stop : Nat} (hstop : 0 < stop)
    (h : p.matchHere? (text.take (stop - 1)) 0 = some m) :
    retreatHere? p escaped text stop =
      if outsideAt escaped text m.stop then some m
      else retreatHere? p escaped text m.stop := by
  rw [retreatHere?, if_pos hstop]
  split
  · simp_all
  · rename_i found hfound
    obtain rfl := Option.some.inj (h.symm.trans hfound)
    rfl

/-- A retreat inside a text is a retreat at the start of what follows its place. -/
theorem retreat?_eq (stop : Nat) :
    retreat? p.searcher (before ++ text) before.length (before.length + stop) =
      (retreatHere? p (escapedAfter false before) text stop).map (Match.moved before.length) := by
  induction stop using Nat.strongRecOn with
  | ind stop ih =>
    by_cases hstop : 0 < stop
    · have htake : (before ++ text).take (before.length + stop - 1) =
          before ++ text.take (stop - 1) := by
        rw [Nat.add_sub_assoc hstop, List.take_length_add_append]
      rw [retreat?, if_pos (by omega)]
      cases hm : p.matchHere? (text.take (stop - 1)) 0 with
      | none =>
        rw [retreatHere?_of_none hm]
        split
        · rfl
        · rename_i found hfound
          rw [htake] at hfound
          rw [if_neg (start_ne_of_none hm hfound)]
          rfl
      | some m =>
        rw [retreatHere?_of_some hstop hm]
        have hin := Pattern.matchHere?_inside hm
        simp only [List.length_take] at hin
        split
        · rename_i hfound
          rw [htake] at hfound
          exact absurd ((find?_of_some hm).symm.trans hfound) (by simp)
        · rename_i found hfound
          rw [htake] at hfound
          obtain rfl := Option.some.inj ((find?_of_some hm).symm.trans hfound)
          simp only [Match.moved, hin.1, Nat.add_zero, if_true,
            isUnquoted_append_add (show m.stop ≤ text.length by omega)]
          -- where the match ends inside quotes, the retreat goes on from before its end
          split
          · simp [Match.moved, hin.1]
          · exact ih m.stop (by omega)
    · rw [retreat?, retreatHere?, if_neg (by omega), if_neg hstop]
      rfl

/-- What is replaced inside a text is decided by what follows its place. -/
theorem settle?_eq (h : p.matchHere? text 0 = some m) :
    settle? p.searcher (before ++ text) (m.moved before.length) =
      (settleHere? p (escapedAfter false before) text).map (Match.moved before.length) := by
  have hin := Pattern.matchHere?_inside h
  have hstart : isUnquoted (before ++ text) (m.moved before.length).start =
      pairsUp (escapedAfter false before) text := by
    simp only [Match.moved, hin.1, Nat.add_zero]
    exact isUnquoted_append before text
  have hstop : isUnquoted (before ++ text) (m.moved before.length).stop =
      outsideAt (escapedAfter false before) text m.stop :=
    isUnquoted_append_add (by omega)
  have hretreat : retreat? p.searcher (before ++ text) before.length (before.length + m.stop) =
      (retreatHere? p (escapedAfter false before) text m.stop).map (Match.moved before.length) :=
    retreat?_eq m.stop
  rw [settle?, settleHere?, h, hstart, hstop]
  split
  · simp only
    split
    · rfl
    · rw [← hretreat]
      simp [Match.moved, hin.1]
  · rfl

/-! ### One step of the substitution -/

variable {searcher : Searcher} {last place : Nat} {found : Match}

theorem substituteFrom_of_beyond (h : text.length < place) :
    substituteFrom searcher replacement text last place = text.drop last := by
  rw [substituteFrom, substituteFromM_of_beyond h]
  rfl

theorem substituteFrom_of_find_none (h : searcher.find? text place = none) :
    substituteFrom searcher replacement text last place = text.drop last := by
  rw [substituteFrom, substituteFromM_of_find_none h]
  rfl

theorem substituteFrom_of_settle_none (hplace : place ≤ text.length)
    (h : searcher.find? text place = some found) (hs : settle? searcher text found = none) :
    substituteFrom searcher replacement text last place =
      substituteFrom searcher replacement text last (found.start + 1) := by
  rw [substituteFrom, substituteFromM_of_settle_none hplace h hs, substituteFrom]

theorem substituteFrom_of_settle_some (hplace : place ≤ text.length)
    (h : searcher.find? text place = some found) (hs : settle? searcher text found = some m) :
    substituteFrom searcher replacement text last place =
      slice text last m.start ++ replacement (m.captures text) ++
        substituteFrom searcher replacement text m.stop (resume m) := by
  rw [substituteFrom, substituteFromM_of_settle_some hplace h hs, substituteFrom]
  rfl

/-- Places from which the search finds the same are as good as one another. -/
theorem substituteFrom_congr {other : Nat} (hplace : place ≤ text.length)
    (hother : other ≤ text.length) (h : searcher.find? text place = searcher.find? text other) :
    substituteFrom searcher replacement text last place =
      substituteFrom searcher replacement text last other := by
  cases hfind : searcher.find? text other with
  | none => rw [substituteFrom_of_find_none hfind, substituteFrom_of_find_none (h.trans hfind)]
  | some found =>
    cases hs : settle? searcher text found with
    | none =>
      rw [substituteFrom_of_settle_none hother hfind hs,
        substituteFrom_of_settle_none hplace (h.trans hfind) hs]
    | some m =>
      rw [substituteFrom_of_settle_some hother hfind hs,
        substituteFrom_of_settle_some hplace (h.trans hfind) hs]

/-- Where nothing is replaced, the search goes on at the next character. -/
theorem substituteFrom_of_none (hs : settleHere? p (escapedAfter false before) text = none) :
    substituteFrom p.searcher replacement (before ++ text) last before.length =
      substituteFrom p.searcher replacement (before ++ text) last (before.length + 1) := by
  cases hm : p.matchHere? text 0 with
  | some found =>
    have hsettle : settle? p.searcher (before ++ text) (found.moved before.length) = _ :=
      settle?_eq hm
    rw [hs] at hsettle
    have hstart : (found.moved before.length).start = before.length := by
      simp [Match.moved, (Pattern.matchHere?_inside hm).1]
    rw [substituteFrom_of_settle_none (by simp) (find?_of_some hm) hsettle, hstart]
  | none =>
    cases text with
    | nil =>
      rw [substituteFrom_of_find_none (find?_nil_of_none hm), substituteFrom_of_beyond (by simp)]
    | cons c cs => exact substituteFrom_congr (by simp) (by simp) (find?_of_none hm)

/-- Where a match is replaced, the search goes on after it. -/
theorem substituteFrom_of_some (hs : settleHere? p (escapedAfter false before) text = some m) :
    substituteFrom p.searcher replacement (before ++ text) last before.length =
      slice (before ++ text) last before.length ++ replacement (m.captures text) ++
        substituteFrom p.searcher replacement (before ++ text) (before.length + m.stop)
          (resume (m.moved before.length)) := by
  cases hm : p.matchHere? text 0 with
  | none => simp [settleHere?, hm] at hs
  | some found =>
    have hsettle : settle? p.searcher (before ++ text) (found.moved before.length) = _ :=
      settle?_eq hm
    rw [hs] at hsettle
    rw [substituteFrom_of_settle_some (by simp) (find?_of_some hm) hsettle, captures_moved]
    simp [Match.moved, (settleHere?_inside hs).1]

/-- What was not copied yet, when one more character is kept. -/
theorem slice_succ {c : Char} {cs : List Char} (hlast : last ≤ before.length) :
    slice (before ++ c :: cs) last (before.length + 1) =
      slice (before ++ c :: cs) last before.length ++ [c] := by
  have hc := slice_middle before [c] cs
  rw [← slice_append_slice _ hlast (Nat.le_succ _)]
  exact congrArg _ hc

theorem resume_of_empty (h : m.start = m.stop) : resume m = m.stop + 1 := by
  rw [resume, if_neg (by omega)]

/-- Substitution from a place on: what was not copied yet, and the rest rewritten. -/
theorem substituteFrom_eq (p : Pattern) (replacement : Replacement) (before text : List Char)
    {last : Nat} (hlast : last ≤ before.length) :
    substituteFrom p.searcher replacement (before ++ text) last before.length =
      slice (before ++ text) last before.length ++
        rewrite p replacement (escapedAfter false before) text := by
  -- by the length of what is still to be searched; `last` is where the last match ended
  cases hs : settleHere? p (escapedAfter false before) text with
  | none =>
    rw [substituteFrom_of_none hs]
    cases text with
    | nil =>
      rw [substituteFrom_of_beyond (by simp), rewrite_nil_of_none hs]
      simp [slice]
    | cons c cs =>
      have ih := substituteFrom_eq p replacement (before ++ [c]) cs
        (show last ≤ (before ++ [c]).length by simp; omega)
      simp only [List.append_assoc, List.singleton_append, List.length_append,
        List.length_singleton, escapedAfter_append, escapedAfter_cons, escapedAfter_nil] at ih
      rw [ih, rewrite_of_none hs, slice_succ hlast]
      simp
  | some m =>
    obtain ⟨hstart, hle⟩ := settleHere?_inside hs
    rw [substituteFrom_of_some hs]
    by_cases hm : m.stop = 0
    · -- an empty match is replaced, and the search goes on one character later
      cases text with
      | nil =>
        rw [rewrite_nil_of_some hs, hm, resume_of_empty (by simp [Match.moved, hstart, hm]),
          substituteFrom_of_beyond (by simp [Match.moved, hm])]
        simp
      | cons c cs =>
        have ih := substituteFrom_eq p replacement (before ++ [c]) cs
          (show before.length ≤ (before ++ [c]).length by simp)
        simp only [List.append_assoc, List.singleton_append, List.length_append,
          List.length_singleton, escapedAfter_append, escapedAfter_cons, escapedAfter_nil] at ih
        rw [rewrite_of_empty hs hm, hm, resume_of_empty (by simp [Match.moved, hstart, hm]),
          Match.moved, hm, Nat.add_zero, ih, slice_succ (Nat.le_refl _), slice_self]
        simp
    · have ih := substituteFrom_eq p replacement (before ++ text.take m.stop) (text.drop m.stop)
        (Nat.le_refl _)
      rw [List.append_assoc, List.take_append_drop, List.length_append,
        List.length_take_of_le hle, slice_self, escapedAfter_append] at ih
      have hresume : resume (m.moved before.length) = before.length + m.stop := by
        simp only [resume, Match.moved, hstart]
        rw [if_pos (by omega)]
      rw [rewrite_of_some hs hm, hresume, ih]
      simp
termination_by text.length

/-- Substitution is rewriting from left to right. -/
theorem substitute_eq_rewrite (p : Pattern) (replacement : Replacement) (text : List Char) :
    substitute p.searcher replacement text = rewrite p replacement false text := by
  have := substituteFrom_eq p replacement [] text (Nat.le_refl 0)
  simpa [substitute, slice] using this

end ApiCatalog.Quoting
