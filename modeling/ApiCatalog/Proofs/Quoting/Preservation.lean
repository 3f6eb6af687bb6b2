import ApiCatalog.Proofs.Quoting.Rewriting

/-!
# Substitutions that keep literals

A substitution cuts a well-quoted text only at places outside quotes, so each match is a well-quoted
text of its own. If the replacement of every such match keeps its literals, perhaps with further
ones in between, so does the substitution as a whole (`substitute_keeps`).
-/

namespace ApiCatalog.Quoting

/-- `Enriched added ks ls`: the literals `ks` in order, with some that are `added` in between, are
`ls`. -/
inductive Enriched (added : List Char → Prop) : List (List Char) → List (List Char) → Prop where
  | nil : Enriched added [] []
  | keep {l : List Char} {ks ls : List (List Char)} (rest : Enriched added ks ls) :
      Enriched added (l :: ks) (l :: ls)
  | add {l : List Char} {ks ls : List (List Char)} (hl : added l) (rest : Enriched added ks ls) :
      Enriched added ks (l :: ls)

namespace Enriched

variable {added : List Char → Prop} {js ks ls : List (List Char)}

theorem refl (ls : List (List Char)) : Enriched added ls ls := by
  induction ls with
  | nil => exact .nil
  | cons l ls ih => exact .keep ih

theorem append {ks' ls' : List (List Char)} (h : Enriched added ks ls)
    (h' : Enriched added ks' ls') : Enriched added (ks ++ ks') (ls ++ ls') := by
  induction h with
  | nil => exact h'
  | keep _ ih => exact .keep ih
  | add hl _ ih => exact .add hl ih

theorem trans (h : Enriched added js ks) (h' : Enriched added ks ls) : Enriched added js ls := by
  induction h' generalizing js with
  | nil => exact h
  | keep _ ih =>
    cases h with
    | keep rest => exact .keep (ih rest)
    | add hl rest => exact .add hl (ih rest)
  | add hl _ ih => exact .add hl (ih h)

/-- All literals are new. -/
theorem of_added (h : ∀ l ∈ ls, added l) : Enriched added [] ls := by
  induction ls with
  | nil => exact .nil
  | cons l ls ih => exact .add (h l (by simp)) (ih fun k hk => h k (by simp [hk]))

end Enriched

/-- A text that is well quoted and has the literals of another, perhaps with some that are `added`
in between. -/
structure Keeps (added : List Char → Prop) (before after : List Char) : Prop where
  wellQuoted : WellQuoted after
  literals : Enriched added (literals before) (literals after)

theorem Keeps.trans {added : List Char → Prop} {a b c : List Char} (hab : Keeps added a b)
    (hbc : Keeps added b c) : Keeps added a c :=
  ⟨hbc.wellQuoted, hab.literals.trans hbc.literals⟩

/-- A replacement that keeps the literals of every match that is a well-quoted text of its own. The
match is found in a part of the text, and consumes something. -/
def KeepsMatches (added : List Char → Prop) (p : Pattern) (replacement : Replacement) : Prop :=
  ∀ part rest m ls, p.matchHere? part 0 = some m → Parted (part.take m.stop) ls →
    m.stop ≠ 0 ∧ ∃ ls', Parted (replacement (m.captures (part ++ rest))) ls' ∧ Enriched added ls ls'

/-- What a retreat settles on was found in a part of the text and ends outside quotes. -/
theorem exists_part_of_retreatHere? {p : Pattern} {escaped : Bool} {text : List Char} {stop : Nat}
    {m : Match} (h : retreatHere? p escaped text stop = some m) :
    outsideAt escaped text m.stop = true ∧
      ∃ part rest, text = part ++ rest ∧ p.matchHere? part 0 = some m := by
  induction stop using Nat.strongRecOn with
  | ind stop ih =>
    rw [retreatHere?] at h
    split at h
    · split at h
      · simp at h
      · rename_i found hfound
        have hin := Pattern.matchHere?_inside hfound
        simp only [List.length_take] at hin
        split at h
        · rename_i hout
          obtain rfl := Option.some.inj h
          exact ⟨hout, _, text.drop (stop - 1), (List.take_append_drop _ _).symm, hfound⟩
        · exact ih found.stop (by omega) h
    · simp at h

theorem exists_part_of_settleHere? {p : Pattern} {escaped : Bool} {text : List Char} {m : Match}
    (h : settleHere? p escaped text = some m) :
    outsideAt escaped text m.stop = true ∧
      ∃ part rest, text = part ++ rest ∧ p.matchHere? part 0 = some m := by
  simp only [settleHere?] at h
  split at h
  · split at h
    · simp at h
    · rename_i found hfound
      split at h
      · rename_i hout
        obtain rfl := Option.some.inj h
        exact ⟨hout, text, [], by simp, hfound⟩
      · exact exists_part_of_retreatHere? h
  · simp at h

variable {added : List Char → Prop} {p : Pattern} {replacement : Replacement}

/-- A pattern whose replacements all begin with a character other than `d`. -/
def Avoids (d : Char) (p : Pattern) (replacement : Replacement) : Prop :=
  ∀ part rest m, p.matchHere? part 0 = some m →
    ∃ c v, replacement (m.captures (part ++ rest)) = c :: v ∧ c ≠ d

/-- Rewriting keeps the first character of a text, or begins a replacement. -/
theorem rewrite_head {d : Char} (hp : Avoids d p replacement) (c : Char) (cs : List Char) :
    ∃ e v, rewrite p replacement false (c :: cs) = e :: v ∧ (e = c ∨ e ≠ d) := by
  cases hs : settleHere? p false (c :: cs) with
  | none => exact ⟨c, _, rewrite_of_none hs, .inl rfl⟩
  | some m =>
    obtain ⟨-, part, rest, htext, hm⟩ := exists_part_of_settleHere? hs
    obtain ⟨e, v, hreplacement, he⟩ := hp part rest m hm
    rw [← htext] at hreplacement
    rw [rewrite_cons, hs]
    by_cases hstop : m.stop = 0 <;> simp only [hstop, if_true, if_false, hreplacement]
    · exact ⟨e, _, rfl, .inr he⟩
    · exact ⟨e, _, rfl, .inr he⟩

/-- Rewriting leaves some text. -/
theorem rewrite_ne_nil {d : Char} (hp : Avoids d p replacement) {text : List Char}
    (h : text ≠ []) : rewrite p replacement false text ≠ [] := by
  obtain ⟨c, cs, rfl⟩ := List.exists_cons_of_ne_nil h
  obtain ⟨e, v, hev, -⟩ := rewrite_head hp c cs
  rw [hev]
  exact List.cons_ne_nil e v

/-- Rewriting keeps literals if the replacement of every match does. -/
theorem rewrite_parted (hp : KeepsMatches added p replacement) {text : List Char}
    {ls : List (List Char)} (h : Parted text ls) :
    ∃ ls', Parted (rewrite p replacement false text) ls' ∧ Enriched added ls ls' := by
  -- by the length of the text: a match may consume several plain characters and literals
  generalize hn : text.length = n
  induction n using Nat.strongRecOn generalizing text ls with
  | ind n ih =>
    subst hn
    cases hs : settleHere? p false text with
    | some m =>
      obtain ⟨hout, part, rest, rfl, hm⟩ := exists_part_of_settleHere? hs
      have hle := (Pattern.matchHere?_inside hm).2.2
      -- the match ends outside quotes, so the text and its literals are cut there
      have htext := h
      rw [← List.take_append_drop m.stop (part ++ rest)] at htext
      obtain ⟨la, lb, rfl, ha, hb⟩ := htext.split hout
      rw [List.take_append_of_le_length (by omega)] at ha
      obtain ⟨hne, la', hla', hadd⟩ := hp part rest m la hm ha
      obtain ⟨lb', hlb', haddb⟩ := ih _ (by simp; omega) hb rfl
      rw [rewrite_of_some hs hne, List.take_append_of_le_length (by omega), ha.escapedAfter]
      exact ⟨la' ++ lb', hla'.append hlb', hadd.append haddb⟩
    | none =>
      cases h with
      | nil => exact ⟨[], by rw [rewrite_nil_of_none hs]; exact .nil, .nil⟩
      | plain hq hb rest =>
        obtain ⟨ls', hls', hadd⟩ := ih _ (by simp) rest rfl
        refine ⟨ls', ?_, hadd⟩
        rw [rewrite_of_none hs, beq_false_of_ne hb, Bool.false_and]
        exact .plain hq hb hls'
      | literal hl rest =>
        -- no match begins at the literal, and none inside it, so it is copied
        obtain ⟨ls', hls', hadd⟩ := ih _ (by simpa using hl.length_pos) rest rfl
        refine ⟨_ :: ls', ?_, .keep hadd⟩
        rw [rewrite_literal_of_none hl rest.pairsUp hs]
        exact .literal hl hls'

/-- Substitution keeps literals if the replacement of every match does. -/
theorem substitute_keeps (hp : KeepsMatches added p replacement) {text : List Char}
    (h : WellQuoted text) :
    Keeps added text (substitute p.searcher replacement text) := by
  obtain ⟨ls, hls, hadd⟩ := rewrite_parted hp h.parted
  rw [substitute_eq_rewrite]
  exact ⟨hls.wellQuoted, by rwa [hls.literals_eq]⟩

end ApiCatalog.Quoting
