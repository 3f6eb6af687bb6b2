import ApiCatalog.Proofs.Response.Parsing
import ApiCatalog.Proofs.Response.Preferred

/-!
# What expansions leave alone

A stretch is kept if the pattern matches at none of its characters (`rewrite_copy`). A pattern that
begins with a word is held against every phrase that does: it leaves the phrase alone if what the
pattern has after the word does not come after the word of the phrase (`rewrite_wordLed_phrase`).
-/

namespace ApiCatalog.Response

open ApiCatalog.Json (Punctuation)
open ApiCatalog.Pattern
open ApiCatalog.Quoting
open ApiCatalog.Text

/-! ## Stretches that a pattern leaves alone -/

section Copying

variable {p q : Pattern} {r : Replacement} {u v w : List Char}

theorem rewrite_char {c : Char} (hb : c ≠ '\\') (h : p.matchHere? (c :: v) 0 = none) :
    rewrite p r false (c :: v) = c :: rewrite p r false v := by
  rw [rewrite_of_none (settleHere?_of_none h), beq_false_of_ne hb]
  rfl

/-- Plain text is kept if the pattern matches at none of its places. -/
theorem rewrite_copy (hu : ∀ c ∈ u, IsPlain c)
    (h : ∀ a c b, u = a ++ c :: b → p.matchHere? (c :: (b ++ v)) 0 = none) :
    rewrite p r false (u ++ v) = u ++ rewrite p r false v := by
  induction u with
  | nil => rfl
  | cons c u ih =>
    rw [List.cons_append, rewrite_char (hu c (by simp)).2 (h [] c u rfl),
      ih (fun d hd => hu d (by simp [hd])) fun a d b hab => h (c :: a) d b (by rw [hab]; rfl)]
    rfl

/-- Plain text is kept if the pattern does not match at any of its characters. -/
theorem rewrite_copy_of_refused (hu : ∀ c ∈ u, IsPlain c)
    (h : ∀ c ∈ u, ∀ v, p.matchHere? (c :: v) 0 = none) :
    rewrite p r false (u ++ v) = u ++ rewrite p r false v :=
  rewrite_copy hu fun a c b hab => h c (by simp [hab]) (b ++ v)

/-- A literal is kept if the pattern does not match at a quote. -/
theorem rewrite_literal {l : List Char} (hl : IsLiteral l)
    (hquote : ∀ t, p.matchHere? ('"' :: t) 0 = none) (hv : pairsUp false v = true) :
    rewrite p r false (l ++ v) = l ++ rewrite p r false v := by
  refine rewrite_literal_of_none hl hv (settleHere?_of_none ?_)
  obtain ⟨body, rfl, -⟩ := hl
  exact hquote _

/-- A plain match is replaced. -/
theorem rewrite_match {m : Match} (hm : p.matchHere? (u ++ v) 0 = some m)
    (hstop : m.stop = u.length) (hne : u ≠ []) (hu : ∀ c ∈ u, IsPlain c)
    (hv : pairsUp false v = true) :
    rewrite p r false (u ++ v) = r (m.captures (u ++ v)) ++ rewrite p r false v := by
  have hparted := Parted.of_plain hu
  have hout : outsideAt false (u ++ v) m.stop = true := by
    rw [outsideAt, hstop, List.take_left, List.drop_left, hparted.escapedAfter, hv]
  have hpairs : pairsUp false (u ++ v) = true := by
    rw [pairsUp_append, hparted.pairsUp, hparted.escapedAfter, hv]
    rfl
  have hsettle : settleHere? p false (u ++ v) = some m := by
    rw [settleHere?, if_pos hpairs, hm]
    exact if_pos hout
  have hpos : m.stop ≠ 0 := by
    rw [hstop]
    exact fun h => hne (List.length_eq_zero_iff.1 h)
  rw [rewrite_of_some hsettle hpos, hstop, List.take_left, List.drop_left, hparted.escapedAfter]

end Copying

/-! ## Patterns that begin with a word -/

/-- A pattern that does not match at the start of a text, whatever precedes. -/
def Refuses (q : Pattern) (v : List Char) : Prop :=
  ∀ i g (next : Cursor → Option Match), first q ⟨i, v, g⟩ next = none

section WordLed

variable {q : Pattern} {r : Replacement} {u v w : List Char}

theorem matchHere?_wordLed_of_not_word (h : Stops isWordChar v) :
    (Pattern.seq (.group 1 word) q).matchHere? v 0 = none :=
  first_atLeastOne_of_stops h

/-- Text without word characters is kept. -/
theorem rewrite_wordLed_copy (hu : ∀ c ∈ u, IsPlain c) (hw : ∀ c ∈ u, isWordChar c = false) :
    rewrite (.seq (.group 1 word) q) r false (u ++ v) =
      u ++ rewrite (.seq (.group 1 word) q) r false v :=
  rewrite_copy_of_refused hu fun c hc _ => matchHere?_wordLed_of_not_word (stops_cons.2 (hw c hc))

/-- A word is kept if the rest of the pattern does not match after it. -/
theorem rewrite_wordLed_word (hq : ∀ c cs, isWordChar c = true → Refuses q (c :: cs))
    (hw : IsWord w) (hstop : Stops isWordChar v) (hv : Refuses q v) :
    rewrite (.seq (.group 1 word) q) r false (w ++ v) =
      w ++ rewrite (.seq (.group 1 word) q) r false v := by
  refine rewrite_copy hw.isPlain ?_
  intro a c b hab
  -- what is left of the word is a word
  have hrest : IsWord (c :: b) := by
    refine ⟨List.cons_ne_nil c b, fun d hd => hw.2 d ?_⟩
    rw [hab]
    exact List.mem_append.2 (.inr hd)
  rw [← List.cons_append, matchHere?, first_word hrest hstop fun i d ds g hd => hq d ds hd i g _]
  exact hv _ _ _

/-- A text before which a word ends: after a gap it goes on with a comma or a closing bracket or
brace, if it goes on. -/
def EndsWord (text : List Char) : Prop :=
  ∃ b v, text = b ++ v ∧ Gap isSpace b ∧ ∀ c ∈ v.head?, c = ',' ∨ c = ']' ∨ c = '}'

theorem EndsWord.stops (h : EndsWord v) : Stops isWordChar v := by
  obtain ⟨b, v, rfl, hb, hv⟩ := h
  refine hb.stops_word ?_
  intro c hc
  rcases hv c hc with rfl | rfl | rfl <;> decide

theorem Gap.isPlain {b : List Char} (h : Gap isSpace b) : ∀ c ∈ b, IsPlain c := h.isGap.isPlain

theorem Gap.not_word {b : List Char} (h : Gap isSpace b) : ∀ c ∈ b, isWordChar c = false :=
  fun c hc => not_word_of_isSpace (h c hc)

/-- A phrase is kept by a pattern that begins with a word if the rest of the pattern matches after
none of its words. -/
theorem rewrite_wordLed_phrase (hq : ∀ c cs, isWordChar c = true → Refuses q (c :: cs))
    {l : Phrase} {text : List Char} (hu : l.Writes isSpace u) (htext : pairsUp false text = true)
    (hend : l.endsInWord = true → EndsWord text ∧ Refuses q text)
    (hlist : ∀ t, l = .listType t → Refuses q ("[]".toList ++ text))
    (hkey : ∀ n, l = .key n → ∀ b, Gap isSpace b → Refuses q (b ++ ([':'] ++ text)))
    (hfield : ∀ n t, l = .typedField n t → ∀ b b', Gap isSpace b → Gap isSpace b' →
      Refuses q (b ++ ("::".toList ++ (b' ++ (t.chars ++ text))))) :
    rewrite (.seq (.group 1 word) q) r false (u ++ text) =
      u ++ rewrite (.seq (.group 1 word) q) r false text := by
  have hcolons : ∀ c ∈ "::".toList, isWordChar c = false := by simp; decide
  have hplain : ∀ c ∈ "::".toList, IsPlain c := isPlain_of_all (by decide)
  cases hu with
  | mark p =>
    refine rewrite_wordLed_copy ?_ ?_ <;> cases p <;>
      simp only [markChar, List.mem_singleton, forall_eq] <;> decide
  | word w =>
    obtain ⟨hends, hrefuses⟩ := hend rfl
    exact rewrite_wordLed_word hq w.isWord hends.stops hrefuses
  | negative w =>
    obtain ⟨hends, hrefuses⟩ := hend rfl
    rw [List.cons_append, rewrite_char (by decide)
      (matchHere?_wordLed_of_not_word (stops_cons.2 (by decide))),
      rewrite_wordLed_word hq w.isWord hends.stops hrefuses]
    rfl
  | literal l =>
    exact rewrite_literal l.isLiteral
      (fun t => matchHere?_wordLed_of_not_word (stops_cons.2 (by decide))) htext
  | listType t =>
    have hbrackets : Stops isWordChar ("[]".toList ++ text) := stops_cons.2 (by decide)
    rw [List.append_assoc, rewrite_wordLed_word hq t.isWord hbrackets (hlist t rfl),
      rewrite_wordLed_copy (isPlain_of_all (by decide)) (by simp; decide), List.append_assoc]
  | @key n b hb =>
    have hcolon : Stops isWordChar ([':'] ++ text) := stops_cons.2 (by decide)
    simp only [List.append_assoc]
    rw [rewrite_wordLed_word hq n.isWord (hb.stops_word hcolon) (hkey n rfl b hb),
      rewrite_wordLed_copy hb.isPlain hb.not_word,
      rewrite_wordLed_copy (isPlain_of_all (by decide)) (by simp; decide)]
  | @typedField n t b b' hb hb' =>
    obtain ⟨hends, hrefuses⟩ := hend rfl
    simp only [List.append_assoc]
    rw [rewrite_wordLed_word hq n.isWord (hb.stops_word stops_colons) (hfield n t rfl b b' hb hb'),
      rewrite_wordLed_copy hb.isPlain hb.not_word, rewrite_wordLed_copy hplain hcolons,
      rewrite_wordLed_copy hb'.isPlain hb'.not_word,
      rewrite_wordLed_word hq t.isWord hends.stops hrefuses]
  | @namedType t b hb =>
    obtain ⟨hends, hrefuses⟩ := hend rfl
    simp only [List.append_assoc]
    rw [rewrite_wordLed_copy hplain hcolons, rewrite_wordLed_copy hb.isPlain hb.not_word,
      rewrite_wordLed_word hq t.isWord hends.stops hrefuses]
  | @typedOpen b hb =>
    simp only [List.append_assoc]
    rw [rewrite_wordLed_copy hplain hcolons, rewrite_wordLed_copy hb.isPlain hb.not_word,
      rewrite_wordLed_copy (isPlain_of_all (by decide)) (by simp; decide)]

end WordLed

/-! ## Where the rest of a pattern does not match -/

section Refusals

variable {q : Pattern} {b v text : List Char}

theorem refuses_literal {d : Char} {ds : List Char} (h : ∀ c ∈ v.head?, c ≠ d) :
    Refuses (literal (d :: ds)) v := by
  intro i g next
  cases v with
  | nil => rfl
  | cons c cs => exact first_literal_of_ne (h c rfl)

theorem refuses_colons (h : NoColon v) : Refuses colons v := by
  intro i g next
  cases v with
  | nil => rfl
  | cons c cs => exact first_colons_of_ne (noColon_cons.1 h)

theorem refuses_colonsAndWord {index : Nat} (h : NoColon v) : Refuses (colonsAndWord index) v := by
  intro i g next
  cases v with
  | nil => rfl
  | cons c cs => exact first_colonsAndWord_of_ne (noColon_cons.1 h)

/-- One colon is not enough for a pattern that begins with two. -/
theorem refuses_colonsAndWord_one {index : Nat} (h : NoColon v) :
    Refuses (colonsAndWord index) (':' :: v) := by
  intro i g next
  cases v with
  | nil => rfl
  | cons c cs => simp [colonsAndWord, literal, first, noColon_cons.1 h]

/-- Blanks are passed over. -/
theorem refuses_blanks (hq : ∀ c cs, isBlank c = true → Refuses q (c :: cs)) (hb : Gap isSpace b)
    (hv : Stops isBlank v) (h : Refuses q v) : Refuses (.seq blanks q) (b ++ v) := by
  intro i g next
  rw [first_blanks hb.isGap hv fun i c cs hc => hq c cs hc i g next]
  exact h _ g next

theorem noColon_of_isBlank {c : Char} (h : isBlank c = true) : NoColon (c :: v) :=
  noColon_cons.2 (ne_of_isBlank h (by decide))

theorem noColon_of_isWordChar {c : Char} (h : isWordChar c = true) : NoColon (c :: v) :=
  noColon_cons.2 (ne_of_isWordChar h (by decide))

theorem Gap.noColon (hb : Gap isSpace b) (hv : NoColon v) : NoColon (b ++ v) := by
  cases b with
  | nil => exact hv
  | cons c b => exact noColon_of_isBlank (hb.isGap c (by simp))

theorem refuses_blanks_colons (hb : Gap isSpace b) (hv : Stops isBlank v) (h : NoColon v) :
    Refuses (.seq blanks colons) (b ++ v) :=
  refuses_blanks (fun _ _ hc => refuses_colons (noColon_of_isBlank hc)) hb hv (refuses_colons h)

theorem refuses_blanks_colonsAndWord {index : Nat} (hb : Gap isSpace b) (hv : Stops isBlank v)
    (h : Refuses (colonsAndWord index) v) : Refuses (.seq blanks (colonsAndWord index)) (b ++ v) :=
  refuses_blanks (fun _ _ hc => refuses_colonsAndWord (noColon_of_isBlank hc)) hb hv h

/-- After a word that ends before a stop no bracket opens and no colon comes. -/
theorem EndsWord.refuses (h : EndsWord text) :
    Refuses (literal ['[', ']']) text ∧ Refuses (.seq blanks colons) text ∧
      ∀ index, Refuses (.seq blanks (colonsAndWord index)) text := by
  obtain ⟨b, v, rfl, hb, hv⟩ := h
  have hblank : Stops isBlank v := by
    intro c hc
    rcases hv c hc with rfl | rfl | rfl <;> decide
  have hcolon : NoColon v := by
    intro c hc
    rcases hv c hc with rfl | rfl | rfl <;> decide
  refine ⟨refuses_literal ?_, refuses_blanks_colons hb hblank hcolon, ?_⟩
  · intro c hc
    cases b with
    | nil => rcases hv c hc with rfl | rfl | rfl <;> decide
    | cons d b =>
      obtain rfl : d = c := by simpa using hc
      exact ne_of_isBlank (hb.isGap d (by simp)) (by decide)
  · intro index
    exact refuses_blanks_colonsAndWord hb hblank (refuses_colonsAndWord hcolon)

end Refusals

end ApiCatalog.Response
