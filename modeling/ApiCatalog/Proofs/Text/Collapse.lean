import ApiCatalog.Text.Blank

/-!
# Collapsing the blanks of a text, from left to right

`collapse` joins the words of a text. `spaced` reads the text once and writes a space when a
character follows a run of blanks; `collapse_eq` says that this is the same after the leading
blanks. What stands between two characters that are no blanks is then collapsed on its own
(`spaced_append`): `oneSpaced` replaces its runs of blanks, and leaves it alone if it is tidy.
-/

namespace ApiCatalog.Text

/-- A text whose runs of blanks are replaced by single spaces; blanks at the end are dropped. The
flag says whether a blank precedes the text. -/
def spaced (afterBlank : Bool) : List Char → List Char
  | [] => []
  | c :: cs =>
    if isBlank c then spaced true cs
    else if afterBlank then ' ' :: c :: spaced false cs
    else c :: spaced false cs

/-- A stretch whose runs of blanks are replaced by single spaces, wherever they stand. The flag says
whether the run that precedes the stretch was replaced already. -/
def oneSpaced (blank : Char → Bool) (afterBlank : Bool) : List Char → List Char
  | [] => []
  | c :: cs =>
    if blank c then
      if afterBlank then oneSpaced blank true cs else ' ' :: oneSpaced blank true cs
    else c :: oneSpaced blank false cs

/-- A stretch whose only blanks are spaces, no two of them side by side. -/
structure Tidy (blank : Char → Bool) (cs : List Char) : Prop where
  spaces : ∀ c ∈ cs, blank c = true → c = ' '
  apart : ∀ a b, cs ≠ a ++ ' ' :: ' ' :: b

/-! ## Collapsing -/

/-- What follows an open word, and what follows a blank. -/
theorem spaced_eq (cs : List Char) :
    (∀ w ≠ [], [' '].intercalate (wordsFrom w cs) = w.reverse ++ spaced false cs) ∧
      spaced true cs = if words cs = [] then [] else ' ' :: collapse cs := by
  induction cs with
  | nil => exact ⟨fun w hw => by simp [wordsFrom, hw, spaced], rfl⟩
  | cons c cs ih =>
    obtain ⟨ihword, ihblank⟩ := ih
    by_cases hc : isBlank c = true
    · have hwords : words (c :: cs) = words cs := by simp [words, wordsFrom, hc]
      refine ⟨?_, ?_⟩
      · intro w hw
        have hcut : wordsFrom w (c :: cs) = w.reverse :: words cs := by
          simp [words, wordsFrom, hc, hw]
        rw [hcut, spaced, if_pos hc, ihblank, collapse]
        cases words cs with
        | nil => simp
        | cons v vs => simp
      · rw [collapse, hwords, spaced, if_pos hc, ihblank, collapse]
    · refine ⟨?_, ?_⟩
      · intro w hw
        rw [wordsFrom, if_neg hc, ihword _ (by simp), spaced, if_neg hc]
        simp
      · have hopen : words (c :: cs) = wordsFrom [c] cs := by simp [words, wordsFrom, hc]
        rw [collapse, hopen, if_neg (wordsFrom_ne_nil_of_open (by simp) cs), ihword _ (by simp),
          spaced, if_neg hc]
        simp

/-- Collapsing drops the blanks at the start and spaces the rest. -/
theorem collapse_eq (cs : List Char) : collapse cs = spaced false (trimStart cs) := by
  induction cs with
  | nil => rfl
  | cons c cs ih =>
    by_cases hc : isBlank c = true
    · have hwords : words (c :: cs) = words cs := by simp [words, wordsFrom, hc]
      have htrim : trimStart (c :: cs) = trimStart cs := by simp [trimStart, hc]
      rw [htrim, ← ih, collapse, hwords, collapse]
    · have hopen : words (c :: cs) = wordsFrom [c] cs := by simp [words, wordsFrom, hc]
      rw [collapse, hopen, (spaced_eq cs).1 [c] (by simp),
        trimStart_cons_of_not_blank (Bool.eq_false_iff.2 hc), spaced, if_neg hc]
      simp

/-! ## Stretches -/

/-- A stretch before a character that is no blank is collapsed on its own. -/
theorem spaced_append {c : Char} (hc : isBlank c = false) (afterBlank : Bool)
    (u cs : List Char) :
    spaced afterBlank (u ++ c :: cs) =
      (if afterBlank then [' '] else []) ++ oneSpaced isBlank afterBlank u ++
        c :: spaced false cs := by
  induction u generalizing afterBlank with
  | nil => cases afterBlank <;> simp [spaced, oneSpaced, hc]
  | cons d u ih =>
    by_cases hd : isBlank d = true
    · rw [List.cons_append, spaced, if_pos hd, ih, oneSpaced, if_pos hd]
      cases afterBlank <;> simp
    · rw [List.cons_append, spaced, if_neg hd, ih, oneSpaced, if_neg hd]
      cases afterBlank <;> simp

/-- Blanks at the end are dropped. -/
theorem spaced_of_blank (afterBlank : Bool) {cs : List Char} (h : ∀ c ∈ cs, isBlank c = true) :
    spaced afterBlank cs = [] := by
  induction cs generalizing afterBlank with
  | nil => rfl
  | cons c cs ih =>
    rw [spaced, if_pos (h c (by simp))]
    exact ih true fun d hd => h d (by simp [hd])

theorem oneSpaced_of_blank {blank : Char → Bool} {cs : List Char} (h : ∀ c ∈ cs, blank c = true)
    (hne : cs ≠ []) : oneSpaced blank false cs = [' '] := by
  have hafter : ∀ ds : List Char, (∀ c ∈ ds, blank c = true) → oneSpaced blank true ds = [] := by
    intro ds hds
    induction ds with
    | nil => rfl
    | cons d ds ih => simpa [oneSpaced, hds d (by simp)] using ih fun e he => hds e (by simp [he])
  obtain ⟨c, cs, rfl⟩ := List.exists_cons_of_ne_nil hne
  rw [oneSpaced, if_pos (h c (by simp)), if_neg (by decide),
    hafter cs fun d hd => h d (by simp [hd])]

/-! ## Tidy stretches -/

variable {blank : Char → Bool} {c : Char} {cs : List Char}

theorem Tidy.tail (h : Tidy blank (c :: cs)) : Tidy blank cs where
  spaces d hd := h.spaces d (by simp [hd])
  apart a b hcs := h.apart (c :: a) b (by rw [hcs]; rfl)

theorem tidy_cons_of_not_blank (hspace : blank ' ' = true) (hc : blank c = false) :
    Tidy blank (c :: cs) ↔ Tidy blank cs := by
  refine ⟨Tidy.tail, fun h => ⟨?_, ?_⟩⟩
  · intro d hd hb
    rcases List.mem_cons.1 hd with rfl | hd
    · rw [hc] at hb
      exact absurd hb (by decide)
    · exact h.spaces d hd hb
  · intro a b hcs
    cases a with
    | nil =>
      obtain ⟨rfl, -⟩ := List.cons.inj hcs
      rw [hspace] at hc
      exact absurd hc (by decide)
    | cons d a => exact h.apart a b (List.cons.inj hcs).2

theorem tidy_cons_of_blank (hspace : blank ' ' = true) (hc : blank c = true) :
    Tidy blank (c :: cs) ↔ c = ' ' ∧ (∀ d ∈ cs.head?, blank d = false) ∧ Tidy blank cs := by
  constructor
  · intro h
    have hcspace := h.spaces c (by simp) hc
    refine ⟨hcspace, ?_, h.tail⟩
    intro d hd
    obtain ⟨ds, rfl⟩ : ∃ ds, cs = d :: ds := by
      cases cs with
      | nil => simp at hd
      | cons e ds => exact ⟨ds, by simpa using hd⟩
    refine Bool.eq_false_iff.2 ?_
    intro hb
    have hdspace := h.spaces d (by simp) hb
    exact h.apart [] ds (by rw [hcspace, hdspace]; rfl)
  · intro hex
    rcases hex with ⟨rfl, hhead, h⟩
    refine ⟨?_, ?_⟩
    · intro d hd hb
      rcases List.mem_cons.1 hd with rfl | hd
      · rfl
      · exact h.spaces d hd hb
    · intro a b hcs
      cases a with
      | nil =>
        have := hhead ' ' (by simp [(List.cons.inj hcs).2])
        rw [hspace] at this
        exact absurd this (by decide)
      | cons d a => exact h.apart a b (List.cons.inj hcs).2

theorem tidy_of_no_blank (hspace : blank ' ' = true) (h : ∀ c ∈ cs, blank c = false) :
    Tidy blank cs := by
  induction cs with
  | nil => exact ⟨by simp, by simp⟩
  | cons c cs ih =>
    exact (tidy_cons_of_not_blank hspace (h c (by simp))).2 (ih fun d hd => h d (by simp [hd]))

theorem length_oneSpaced_le (afterBlank : Bool) :
    (oneSpaced blank afterBlank cs).length ≤ cs.length := by
  induction cs generalizing afterBlank with
  | nil => simp [oneSpaced]
  | cons c cs ih =>
    have := ih true
    have := ih false
    rw [oneSpaced]
    split
    · split <;> simp <;> omega
    · simp
      omega

/-- A stretch after a blank stays exactly if it begins with none and stays on its own. -/
theorem oneSpaced_true_eq_self_iff :
    oneSpaced blank true cs = cs ↔
      (∀ d ∈ cs.head?, blank d = false) ∧ oneSpaced blank false cs = cs := by
  cases cs with
  | nil => simp [oneSpaced]
  | cons d ds =>
    cases hd : blank d with
    | false => simp [oneSpaced, hd]
    | true =>
      have hne : oneSpaced blank true (d :: ds) ≠ d :: ds := by
        intro h
        have hlen : (oneSpaced blank true ds).length ≤ ds.length := length_oneSpaced_le true
        rw [oneSpaced, if_pos hd, if_pos rfl] at h
        rw [h, List.length_cons] at hlen
        omega
      simp [hne, hd]

/-- A stretch is tidy exactly if nothing in it is replaced. -/
theorem oneSpaced_eq_self_iff (hspace : blank ' ' = true) :
    oneSpaced blank false cs = cs ↔ Tidy blank cs := by
  induction cs with
  | nil => exact ⟨fun _ => ⟨by simp, by simp⟩, fun _ => rfl⟩
  | cons c cs ih =>
    cases hc : blank c with
    | false =>
      rw [tidy_cons_of_not_blank hspace hc, ← ih, oneSpaced, if_neg (by simp [hc])]
      simp
    | true =>
      rw [tidy_cons_of_blank hspace hc, ← ih, ← oneSpaced_true_eq_self_iff, oneSpaced,
        if_pos hc, if_neg (by decide), List.cons.injEq]
      exact and_congr_left fun _ => eq_comm

/-- What is left of a stretch is tidy, and after a blank it does not begin with one. -/
theorem tidy_oneSpaced (hspace : blank ' ' = true) (afterBlank : Bool) :
    Tidy blank (oneSpaced blank afterBlank cs) ∧
      (afterBlank = true → ∀ d ∈ (oneSpaced blank afterBlank cs).head?, blank d = false) := by
  induction cs generalizing afterBlank with
  | nil => exact ⟨tidy_of_no_blank hspace (by simp [oneSpaced]), by simp [oneSpaced]⟩
  | cons c cs ih =>
    obtain ⟨htidy, hhead⟩ := ih true
    rw [oneSpaced]
    cases hc : blank c with
    | true =>
      cases afterBlank with
      | true => exact ⟨htidy, hhead⟩
      | false =>
        refine ⟨(tidy_cons_of_blank hspace hspace).2 ⟨rfl, hhead rfl, htidy⟩, ?_⟩
        intro hafter
        cases hafter
    | false =>
      refine ⟨(tidy_cons_of_not_blank hspace hc).2 (ih false).1, ?_⟩
      intro _ d hd
      rwa [← Option.some.inj hd]

end ApiCatalog.Text
