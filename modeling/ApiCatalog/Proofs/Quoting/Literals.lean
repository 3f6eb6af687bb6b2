import ApiCatalog.Quoting.Basic

/-!
# The literals of a text

A well-quoted text, whose real quotes pair up and which has no backslash outside them, is a row of
plain characters and of string literals (`WellQuoted.parted`), and can be taken apart in one way
only: `literals` finds the very same literals. Such texts can be put together, and they can be cut
wherever an even number of real quotes follows; the literals are shared out between the parts
(`Parted.split`).
-/

namespace ApiCatalog.Quoting

/-! ## Reading on after a stretch of text -/

/-- Whether an odd run of backslashes ends a stretch, given whether one precedes it. -/
def escapedAfter (escaped : Bool) (stretch : List Char) : Bool :=
  stretch.foldl (fun e c => c == '\\' && !e) escaped

@[simp] theorem escapedAfter_nil (escaped : Bool) : escapedAfter escaped [] = escaped := rfl

@[simp] theorem escapedAfter_cons (escaped : Bool) (c : Char) (cs : List Char) :
    escapedAfter escaped (c :: cs) = escapedAfter (c == '\\' && !escaped) cs := rfl

theorem escapedAfter_append (escaped : Bool) (a b : List Char) :
    escapedAfter escaped (a ++ b) = escapedAfter (escapedAfter escaped a) b := by
  simp [escapedAfter]

theorem marksAfter_append (escaped : Bool) (a b : List Char) :
    marksAfter escaped (a ++ b) = marksAfter escaped a ++ marksAfter (escapedAfter escaped a) b := by
  induction a generalizing escaped with
  | nil => rfl
  | cons c cs ih => simp [marksAfter, ih]

/-- Whether the real quotes of a stretch pair up, given whether an odd run of backslashes precedes
it. -/
def pairsUp (escaped : Bool) (stretch : List Char) : Bool :=
  (marksAfter escaped stretch).count true % 2 == 0

@[simp] theorem pairsUp_nil (escaped : Bool) : pairsUp escaped [] = true := rfl

theorem pairsUp_of_no_quotes {escaped : Bool} {cs : List Char}
    (h : ∀ mark ∈ marksAfter escaped cs, mark = false) : pairsUp escaped cs = true := by
  rw [pairsUp, List.count_eq_zero.2 fun hmem => absurd (h true hmem) (by decide)]
  rfl

/-- A real quote turns the parity of what follows. -/
theorem pairsUp_cons (escaped : Bool) (c : Char) (cs : List Char) :
    pairsUp escaped (c :: cs) =
      (pairsUp (c == '\\' && !escaped) cs == !(c == '"' && !escaped)) := by
  simp only [pairsUp, marksAfter, List.count_cons]
  cases hq : (c == '"' && !escaped)
  · simp
  · rw [Bool.eq_iff_iff]
    simp
    omega

/-- A plain character changes nothing. -/
theorem pairsUp_cons_of_plain {c : Char} (hq : c ≠ '"') (hb : c ≠ '\\') (cs : List Char) :
    pairsUp false (c :: cs) = pairsUp false cs := by
  simp [pairsUp_cons, beq_false_of_ne hq, beq_false_of_ne hb]

theorem escapedAfter_cons_of_plain {c : Char} (hb : c ≠ '\\') (cs : List Char) :
    escapedAfter false (c :: cs) = escapedAfter false cs := by
  simp [beq_false_of_ne hb]

theorem pairsUp_append (escaped : Bool) (a b : List Char) :
    pairsUp escaped (a ++ b) = (pairsUp escaped a == pairsUp (escapedAfter escaped a) b) := by
  simp only [pairsUp, marksAfter_append, List.count_append]
  rw [Bool.eq_iff_iff]
  simp only [Bool.beq_eq_decide_eq, decide_eq_true_eq]
  grind

/-- A place is outside quotes if the real quotes pair up from there on. -/
theorem isUnquoted_append (before text : List Char) :
    isUnquoted (before ++ text) before.length = pairsUp (escapedAfter false before) text := by
  have hd : (marks (before ++ text)).drop before.length =
      marksAfter (escapedAfter false before) text := by
    rw [marks, marksAfter_append, List.drop_left' (length_marksAfter false before)]
  rw [isUnquoted, quotesFrom, hd, pairsUp]

theorem isUnquoted_zero (text : List Char) : isUnquoted text 0 = pairsUp false text :=
  isUnquoted_append [] text

/-! ## String literals -/

/-- A stretch that can stand between quotes: it has no real quote and ends in no open escape. -/
def IsBody (body : List Char) : Prop :=
  (∀ mark ∈ marksAfter false body, mark = false) ∧ escapedAfter false body = false

/-- A string literal: quotes around a body. -/
def IsLiteral (text : List Char) : Prop := ∃ body, text = '"' :: (body ++ ['"']) ∧ IsBody body

/-- The string literals of a text whose characters are marked as real quotes or not, where those
of an open literal, most recent first, have been read. -/
def literalsFrom (read : Option (List Char)) : List (Char × Bool) → List (List Char)
  | [] => []
  | (c, isQuote) :: rest =>
    match read with
    | none => literalsFrom (if isQuote then some [c] else none) rest
    | some cs =>
      if isQuote then (c :: cs).reverse :: literalsFrom none rest
      else literalsFrom (some (c :: cs)) rest

/-- The string literals of a text in order, quotes included: each runs from a real quote to the
next. -/
def literals (text : List Char) : List (List Char) := literalsFrom none (text.zip (marks text))

/-- Quotes pair up, and a backslash stands inside quotes only. -/
structure WellQuoted (text : List Char) : Prop where
  paired : isUnquoted text 0 = true
  backslashes : ∀ place, text[place]? = some '\\' → isUnquoted text place = false

/-- A character that neither opens a literal nor escapes one. -/
def IsPlain (c : Char) : Prop := c ≠ '"' ∧ c ≠ '\\'

instance (c : Char) : Decidable (IsPlain c) := inferInstanceAs (Decidable (_ ∧ _))

/-- That a given text is plain is checked by evaluation. -/
theorem isPlain_of_all {text : List Char} (h : text.all (fun c => decide (IsPlain c)) = true) :
    ∀ c ∈ text, IsPlain c := by
  simpa using h

/-- `Parted text ls`: the text is made of plain characters and of the literals `ls`. -/
inductive Parted : List Char → List (List Char) → Prop where
  | nil : Parted [] []
  | plain {c : Char} {text : List Char} {ls : List (List Char)} (hq : c ≠ '"') (hb : c ≠ '\\')
      (rest : Parted text ls) : Parted (c :: text) ls
  | literal {l text : List Char} {ls : List (List Char)} (hl : IsLiteral l)
      (rest : Parted text ls) : Parted (l ++ text) (l :: ls)

namespace Parted

variable {a b text : List Char} {ks ls : List (List Char)}

theorem append (ha : Parted a ks) (hb : Parted b ls) : Parted (a ++ b) (ks ++ ls) := by
  induction ha with
  | nil => exact hb
  | plain hq hbs _ ih => exact .plain hq hbs ih
  | literal hl _ ih =>
    rw [List.append_assoc]
    exact .literal hl ih

theorem single {l : List Char} (hl : IsLiteral l) : Parted l [l] := by
  have := Parted.literal hl .nil
  rwa [List.append_nil] at this

/-- Plain characters on their own. -/
theorem of_plain (h : ∀ c ∈ text, IsPlain c) : Parted text [] := by
  induction text with
  | nil => exact .nil
  | cons c cs ih =>
    obtain ⟨hq, hb⟩ := h c (by simp)
    exact .plain hq hb (ih fun d hd => h d (by simp [hd]))

end Parted

theorem IsLiteral.pairsUp {l : List Char} (hl : IsLiteral l) : pairsUp false l = true := by
  obtain ⟨body, rfl, hm, he⟩ := hl
  have hbody : Quoting.pairsUp false body = true := pairsUp_of_no_quotes hm
  simp [pairsUp_cons, pairsUp_append, hbody, he]

theorem IsLiteral.escapedAfter {l : List Char} (hl : IsLiteral l) :
    escapedAfter false l = false := by
  obtain ⟨body, rfl, -, he⟩ := hl
  simp [escapedAfter_append, he]

theorem IsLiteral.length_pos {l : List Char} (hl : IsLiteral l) : 0 < l.length := by
  obtain ⟨body, rfl, -⟩ := hl
  simp

/-- Inside a literal, between its quotes, an odd number of real quotes follows. -/
theorem IsLiteral.not_pairsUp_inside {u v text : List Char} (hl : IsLiteral (u ++ v))
    (hu : u ≠ []) (hv : v ≠ []) (htext : Quoting.pairsUp false text = true) :
    Quoting.pairsUp (Quoting.escapedAfter false u) (v ++ text) = false := by
  obtain ⟨body, hl, hm, he⟩ := hl
  obtain ⟨c, u, rfl⟩ := List.exists_cons_of_ne_nil hu
  obtain ⟨rfl, hbody⟩ := List.cons.inj hl
  obtain ⟨v, d, rfl⟩ : ∃ v' d, v = v' ++ [d] := ⟨_, _, (List.dropLast_concat_getLast hv).symm⟩
  change u ++ (v ++ [d]) = _ at hbody
  rw [← List.append_assoc] at hbody
  obtain ⟨rfl, hd⟩ := List.append_inj' hbody rfl
  obtain rfl := List.singleton_inj.1 hd
  rw [marksAfter_append] at hm
  rw [escapedAfter_append] at he
  have hv : Quoting.pairsUp (Quoting.escapedAfter false u) v = true :=
    pairsUp_of_no_quotes fun mark hmark => hm mark (by simp [hmark])
  simp [pairsUp_append, pairsUp_cons, hv, he, htext]

namespace Parted

variable {a b text : List Char} {ks ls : List (List Char)}

theorem escapedAfter (h : Parted text ls) : escapedAfter false text = false := by
  induction h with
  | nil => rfl
  | plain _ hb _ ih => rw [escapedAfter_cons_of_plain hb, ih]
  | literal hl _ ih => rw [escapedAfter_append, hl.escapedAfter, ih]

theorem pairsUp (h : Parted text ls) : pairsUp false text = true := by
  induction h with
  | nil => rfl
  | plain hq hb _ ih => rw [pairsUp_cons_of_plain hq hb, ih]
  | literal hl _ ih => rw [pairsUp_append, hl.pairsUp, hl.escapedAfter, ih]; rfl

/-- A text is cut, literals and all, wherever the real quotes after the cut pair up. -/
theorem split (h : Parted (a ++ b) ls)
    (hcut : Quoting.pairsUp (Quoting.escapedAfter false a) b = true) :
    ∃ la lb, ls = la ++ lb ∧ Parted a la ∧ Parted b lb := by
  generalize hab : a ++ b = text at h
  induction h generalizing a with
  | nil =>
    obtain ⟨rfl, rfl⟩ := List.append_eq_nil_iff.1 hab
    exact ⟨[], [], rfl, .nil, .nil⟩
  | @plain c text ls hq hb rest ih =>
    cases a with
    | nil =>
      rw [List.nil_append] at hab
      exact ⟨[], ls, rfl, .nil, hab ▸ .plain hq hb rest⟩
    | cons d a =>
      obtain ⟨rfl, htext⟩ := List.cons.inj hab
      rw [escapedAfter_cons_of_plain hb] at hcut
      obtain ⟨la, lb, rfl, hla, hlb⟩ := ih hcut htext
      exact ⟨la, lb, rfl, .plain hq hb hla, hlb⟩
  | @literal l text ls hl rest ih =>
    rcases List.append_eq_append_iff.1 hab with ⟨v, rfl, rfl⟩ | ⟨a', rfl, rfl⟩
    · -- the cut is at the literal or inside it
      by_cases ha : a = []
      · subst ha
        exact ⟨[], _ :: ls, rfl, .nil, .literal hl rest⟩
      · by_cases hv : v = []
        · subst hv
          rw [List.append_nil] at hl ⊢
          exact ⟨[a], ls, rfl, .single hl, rest⟩
        · -- inside a literal the quotes after the cut do not pair up
          rw [hl.not_pairsUp_inside ha hv rest.pairsUp] at hcut
          exact absurd hcut (by decide)
    · -- the cut is after the literal
      rw [escapedAfter_append, hl.escapedAfter] at hcut
      obtain ⟨la, lb, rfl, hla, hlb⟩ := ih hcut rfl
      exact ⟨l :: la, lb, rfl, .literal hl hla, hlb⟩

/-! ## The literals that are found -/

/-- The characters of a body are read into the open literal. -/
theorem literalsFrom_body {body : List Char} {escaped : Bool}
    (hm : ∀ mark ∈ marksAfter escaped body, mark = false) (read : List Char)
    (rest : List (Char × Bool)) :
    literalsFrom (some read) (body.zip (marksAfter escaped body) ++ rest) =
      literalsFrom (some (body.reverse ++ read)) rest := by
  induction body generalizing escaped read with
  | nil => rfl
  | cons c cs ih =>
    simp only [marksAfter, List.mem_cons, forall_eq_or_imp] at hm
    simp only [marksAfter, hm.1, List.zip_cons_cons, List.cons_append, literalsFrom,
      Bool.false_eq_true, if_false, ih hm.2, List.reverse_cons, List.append_assoc, List.nil_append]

theorem zip_marks_append (a b : List Char) :
    (a ++ b).zip (marks (a ++ b)) =
      a.zip (marks a) ++ b.zip (marksAfter (Quoting.escapedAfter false a) b) := by
  rw [marks, marksAfter_append, List.zip_append (by simp), marks]

/-- A literal is found as the first of those that follow. -/
theorem literals_append_of_isLiteral {l : List Char} (hl : IsLiteral l) (text : List Char) :
    literals (l ++ text) = l :: literals text := by
  have he := hl.escapedAfter
  obtain ⟨body, rfl, hm, hbody⟩ := hl
  rw [literals, zip_marks_append, he]
  have hq : ('"' :: (body ++ ['"'])).zip (marks ('"' :: (body ++ ['"']))) =
      ('"', true) :: (body.zip (marksAfter false body) ++ [('"', true)]) := by
    simp [marks, marksAfter, marksAfter_append, hbody, List.zip_append]
  rw [hq]
  simp only [List.cons_append, literalsFrom, if_true, List.append_assoc, literalsFrom_body hm]
  simp [literals, marks]

theorem literals_eq (h : Parted text ls) : literals text = ls := by
  induction h with
  | nil => rfl
  | @plain c text ls hq hb _ ih =>
    rw [← ih]
    simp [literals, marks, marksAfter, literalsFrom, beq_false_of_ne hq, beq_false_of_ne hb]
  | literal hl _ ih => rw [literals_append_of_isLiteral hl, ih]

theorem eq_nil_of_plain (h : Parted text ls) (hplain : ∀ c ∈ text, IsPlain c) : ls = [] :=
  h.literals_eq.symm.trans (of_plain hplain).literals_eq

/-- Plain characters before a text are no part of its literals. -/
theorem of_plain_append (h : Parted (a ++ b) ls) (ha : ∀ c ∈ a, IsPlain c) : Parted b ls := by
  have hb : Quoting.pairsUp (Quoting.escapedAfter false a) b = true := by
    have := h.pairsUp
    rwa [pairsUp_append, (of_plain ha).pairsUp, Bool.true_beq] at this
  obtain ⟨la, lb, rfl, hla, hlb⟩ := h.split hb
  rwa [hla.eq_nil_of_plain ha]

/-- Nor is a plain character after it. -/
theorem of_append_plain {c : Char} (h : Parted (a ++ [c]) ls) (hc : IsPlain c) : Parted a ls := by
  have hb : Quoting.pairsUp (Quoting.escapedAfter false a) [c] = true := by
    simp [pairsUp_cons, beq_false_of_ne hc.1]
  obtain ⟨la, lb, rfl, hla, hlb⟩ := h.split hb
  rwa [hlb.eq_nil_of_plain (by simpa using hc), List.append_nil]

theorem not_backslash_cons : ¬ Parted ('\\' :: text) ls := by
  intro h
  generalize hc : '\\' :: text = t at h
  cases h with
  | nil => simp at hc
  | plain _ hb _ => exact hb (List.cons.inj hc).1.symm
  | literal hl _ =>
    obtain ⟨body, rfl, -⟩ := hl
    simp at hc

/-- A text that is made of plain characters and literals is well quoted. -/
theorem wellQuoted (h : Parted text ls) : WellQuoted text where
  paired := by rw [isUnquoted_zero, h.pairsUp]
  backslashes := by
    intro place hplace
    obtain ⟨hlt, hc⟩ := List.getElem?_eq_some_iff.1 hplace
    have hcut : text = text.take place ++ '\\' :: text.drop (place + 1) := by
      rw [← hc, ← List.drop_eq_getElem_cons hlt, List.take_append_drop]
    refine Bool.eq_false_iff.2 ?_
    intro hu
    have hlen : (text.take place).length = place := List.length_take_of_le (by omega)
    have hpairs : Quoting.pairsUp (Quoting.escapedAfter false (text.take place))
        ('\\' :: text.drop (place + 1)) = true := by
      rw [← isUnquoted_append, ← hcut, hlen, hu]
    rw [hcut] at h
    obtain ⟨_, _, -, -, hb⟩ := h.split hpairs
    exact not_backslash_cons hb

end Parted

/-- A text has no real quotes, or there are none up to the first of them. -/
theorem exists_first_quote (escaped : Bool) (cs : List Char) :
    (∀ mark ∈ marksAfter escaped cs, mark = false) ∨
      ∃ body rest, cs = body ++ '"' :: rest ∧ (∀ mark ∈ marksAfter escaped body, mark = false) ∧
        escapedAfter escaped body = false := by
  induction cs generalizing escaped with
  | nil => exact .inl (by simp [marksAfter])
  | cons c cs ih =>
    cases hq : (c == '"' && !escaped) with
    | true =>
      obtain ⟨hc, he⟩ : c = '"' ∧ escaped = false := by simpa using hq
      subst hc he
      exact .inr ⟨[], cs, rfl, by simp [marksAfter], rfl⟩
    | false =>
      rcases ih (c == '\\' && !escaped) with hnone | hfirst
      · exact .inl (by simpa [marksAfter, hq] using hnone)
      · obtain ⟨body, rest, rfl, hm, he⟩ := hfirst
        exact .inr ⟨c :: body, rest, rfl, by simpa [marksAfter, hq] using hm, he⟩

/-- An odd number of real quotes: the first of them closes what is quoted before it. -/
theorem exists_closing_quote {escaped : Bool} {cs : List Char} (h : pairsUp escaped cs = false) :
    ∃ body rest, cs = body ++ '"' :: rest ∧ (∀ mark ∈ marksAfter escaped body, mark = false) ∧
      escapedAfter escaped body = false ∧ pairsUp false rest = true := by
  rcases exists_first_quote escaped cs with hnone | hfirst
  · rw [pairsUp_of_no_quotes hnone] at h
    exact absurd h (by decide)
  · obtain ⟨body, rest, rfl, hm, he⟩ := hfirst
    rw [pairsUp_append, pairsUp_of_no_quotes hm, he, pairsUp_cons] at h
    exact ⟨body, rest, rfl, hm, he, by simpa using h⟩

theorem IsBody.append {a b : List Char} (ha : IsBody a) (hb : IsBody b) : IsBody (a ++ b) := by
  refine ⟨?_, by rw [escapedAfter_append, ha.2, hb.2]⟩
  intro mark hmark
  rw [marksAfter_append, ha.2] at hmark
  exact (List.mem_append.1 hmark).elim (ha.1 mark) (hb.1 mark)

theorem isBody_of_plain {w : List Char} (h : ∀ c ∈ w, IsPlain c) : IsBody w := by
  refine ⟨?_, (Parted.of_plain h).escapedAfter⟩
  induction w with
  | nil => simp [marksAfter]
  | cons c cs ih =>
    have hc := h c (by simp)
    have hcs := ih fun d hd => h d (by simp [hd])
    simpa [marksAfter, beq_false_of_ne hc.1, beq_false_of_ne hc.2] using hcs

/-- Plain text in quotes is a literal. -/
theorem isLiteral_quoted {w : List Char} (h : ∀ c ∈ w, IsPlain c) :
    IsLiteral ('"' :: w ++ ['"']) :=
  ⟨w, rfl, isBody_of_plain h⟩

/-- A text without an unquoted backslash whose real quotes pair up can be taken apart. -/
theorem exists_parted {text : List Char} (hp : pairsUp false text = true)
    (hb : ∀ a b, text = a ++ '\\' :: b → pairsUp (escapedAfter false a) ('\\' :: b) = false) :
    ∃ ls, Parted text ls := by
  match text with
  | [] => exact ⟨[], .nil⟩
  | c :: cs =>
    by_cases hq : c = '"'
    · subst hq
      have hodd : pairsUp false cs = false := by simpa [pairsUp_cons] using hp
      obtain ⟨body, rest, rfl, hm, he, hrest⟩ := exists_closing_quote hodd
      have hl : IsLiteral ('"' :: (body ++ ['"'])) := ⟨body, rfl, hm, he⟩
      obtain ⟨ls, hls⟩ := exists_parted hrest fun a b hab => by
        have := hb ('"' :: (body ++ ['"']) ++ a) b (by simp [hab])
        rwa [escapedAfter_append, hl.escapedAfter] at this
      exact ⟨_, by simpa using Parted.literal hl hls⟩
    · have hc : c ≠ '\\' := by
        intro heq
        subst heq
        have := hb [] cs rfl
        rw [escapedAfter_nil, hp] at this
        exact absurd this (by decide)
      rw [pairsUp_cons_of_plain hq hc] at hp
      obtain ⟨ls, hls⟩ := exists_parted hp fun a b hab => by
        have := hb (c :: a) b (by simp [hab])
        rwa [escapedAfter_cons_of_plain hc] at this
      exact ⟨ls, .plain hq hc hls⟩
termination_by text.length

/-- A well-quoted text is made of plain characters and of its literals. -/
theorem WellQuoted.parted {text : List Char} (h : WellQuoted text) :
    Parted text (literals text) := by
  obtain ⟨ls, hls⟩ := exists_parted (isUnquoted_zero text ▸ h.paired) fun a b hab => by
    rw [← isUnquoted_append, ← hab]
    exact h.backslashes a.length (by simp [hab])
  rwa [hls.literals_eq]

end ApiCatalog.Quoting
