import ApiCatalog.Proofs.Response.Phrases

/-!
# The preferred match of a phrase

What each pattern of the response shorthand matches at a phrase of its own kind: the whole phrase,
and the gap before it if the pattern begins with blanks. Words and gaps are taken as a whole, since
what follows them in a pattern cannot begin inside them.
-/

namespace ApiCatalog.Response

open ApiCatalog.Pattern
open ApiCatalog.Quoting
open ApiCatalog.Text

section Preferred

variable {w n t b b' v : List Char}

theorem not_word_of_isSpace {c : Char} (h : isSpace c = true) : isWordChar c = false := by
  rw [eq_of_beq h]
  decide

theorem Gap.isGap (h : Gap isSpace b) : IsGap b := fun c hc => by
  rw [eq_of_beq (h c hc)]
  decide

theorem Gap.stops_word (h : Gap isSpace b) (hv : Stops isWordChar v) :
    Stops isWordChar (b ++ v) := by
  cases b with
  | nil => exact hv
  | cons c b => exact stops_cons.2 (not_word_of_isSpace (h c (by simp)))

theorem stops_colons : Stops isWordChar ("::".toList ++ v) := stops_cons.2 (by decide)

/-! ## Words, gaps and literals -/

section First

variable {α : Type} {i index : Nat} {g : List (Nat × Nat × Nat)} {q : Pattern}
variable {next : Cursor → Option α} {c : Char} {cs : List Char}

/-- A pattern that begins with a word takes the whole word, if what follows cannot begin with a
word character. -/
theorem first_word (hw : IsWord w) (hv : Stops isWordChar v)
    (hq : ∀ i c cs g, isWordChar c = true → first q ⟨i, c :: cs, g⟩ next = none) :
    first (.seq (.group index word) q) ⟨i, w ++ v, g⟩ next =
      first q ⟨i + w.length, v, (index, i, i + w.length) :: g⟩ next := by
  show first (atLeastOne isWordChar) ⟨i, w ++ v, g⟩ _ = _
  rw [first_atLeastOne_of_refuses hw.1 hw.2 hv fun j c cs hc => hq j c cs _ hc]
  rfl

/-- Blanks are all taken, if what follows them cannot begin with one. -/
theorem first_blanks (hb : IsGap b) (hv : Stops isBlank v)
    (hq : ∀ i c cs, isBlank c = true → first q ⟨i, c :: cs, g⟩ next = none) :
    first (.seq blanks q) ⟨i, b ++ v, g⟩ next = first q ⟨i + b.length, v, g⟩ next := by
  show first (many isBlank) ⟨i, b ++ v, g⟩ _ = _
  rw [first_many_of_refuses hb hv fun j c cs hc => hq j c cs hc]

theorem first_blanks_of_not_blank (hc : isBlank c = false)
    (hq : ∀ i c cs, isBlank c = true → first q ⟨i, c :: cs, g⟩ next = none) :
    first (.seq blanks q) ⟨i, c :: cs, g⟩ next = first q ⟨i, c :: cs, g⟩ next := by
  have hnil : IsGap [] := by simp [IsGap]
  have h : first (.seq blanks q) ⟨i, [] ++ c :: cs, g⟩ next = first q ⟨i + 0, c :: cs, g⟩ next :=
    first_blanks hnil (stops_cons.2 hc) hq
  exact h

theorem first_literal {text : List Char} :
    first (literal text) ⟨i, text ++ v, g⟩ next = next ⟨i + text.length, v, g⟩ := by
  induction text generalizing i with
  | nil => rfl
  | cons d ds ih =>
    rw [literal, first, List.cons_append, first_only_cons, if_pos rfl, ih, List.length_cons]
    congr 2
    omega

theorem first_literal_of_ne {d : Char} {ds : List Char} (h : c ≠ d) :
    first (literal (d :: ds)) ⟨i, c :: cs, g⟩ next = none := by
  rw [literal, first, first_only_cons, if_neg h]

/-- The one or two colons after a key. -/
def colons : Pattern := .group 2 (.seq (.only ':') (.optional (.only ':')))

theorem first_colons_of_ne (h : c ≠ ':') : first colons ⟨i, c :: cs, g⟩ next = none := by
  simp [colons, first, h]

theorem first_colons_one (h : NoColon v) :
    first colons ⟨i, [':'] ++ v, g⟩ next = next ⟨i + 1, v, (2, i, i + 1) :: g⟩ := by
  cases v with
  | nil => simp [colons, first, Pattern.optional, Cursor.remember]
  | cons d ds => simp [colons, first, Pattern.optional, Cursor.remember, noColon_cons.1 h]

theorem first_colons_two {x : α} (h : next ⟨i + 2, v, (2, i, i + 2) :: g⟩ = some x) :
    first colons ⟨i, "::".toList ++ v, g⟩ next = some x := by
  simp [colons, first, Pattern.optional, Cursor.remember, h]

end First

/-! ## The phrases -/

theorem matchHere?_listType (hw : IsWord w) :
    listType.matchHere? (w ++ ("[]".toList ++ v)) 0 = some (listTypeMatch w) := by
  have hbracket : Stops isWordChar (['[', ']'] ++ v) := stops_cons.2 (by decide)
  show first (.seq (.group 1 word) (literal ['[', ']'])) ⟨0, w ++ (['[', ']'] ++ v), []⟩ _ = _
  rw [first_word hw hbracket fun i c cs g hc =>
    first_literal_of_ne (ne_of_isWordChar hc (by decide)), first_literal]
  simp [listTypeMatch]

/-- No word character and no blank is a colon. -/
theorem first_blanks_colons_of_word {α : Type} {i : Nat} {g : List (Nat × Nat × Nat)}
    {next : Cursor → Option α} {c : Char} {cs : List Char} (hc : isWordChar c = true) :
    first (.seq blanks colons) ⟨i, c :: cs, g⟩ next = none := by
  rw [first_blanks_of_not_blank (isBlank_of_isWordChar hc) fun i d ds hd =>
    first_colons_of_ne (ne_of_isBlank hd (by decide))]
  exact first_colons_of_ne (ne_of_isWordChar hc (by decide))

theorem first_keyAndColons {α : Type} {next : Cursor → Option α} (hw : IsWord w)
    (hb : Gap isSpace b) :
    first keyAndColons ⟨0, w ++ (b ++ ':' :: v), []⟩ next =
      first colons ⟨w.length + b.length, ':' :: v, [(1, 0, w.length)]⟩ next := by
  have hstop : Stops isWordChar (b ++ ':' :: v) := hb.stops_word (stops_cons.2 (by decide))
  show first (.seq (.group 1 word) (.seq blanks colons)) _ _ = _
  rw [first_word hw hstop fun i c cs g hc => first_blanks_colons_of_word hc,
    first_blanks hb.isGap (stops_cons.2 (by decide)) fun i c cs hc =>
      first_colons_of_ne (ne_of_isBlank hc (by decide))]
  simp

theorem matchHere?_keyAndColons_one (hw : IsWord w) (hb : Gap isSpace b) (hv : NoColon v) :
    keyAndColons.matchHere? (w ++ (b ++ ([':'] ++ v))) 0 = some (keyMatch w b [':']) := by
  rw [matchHere?]
  show first keyAndColons ⟨0, w ++ (b ++ ':' :: v), []⟩ _ = _
  rw [first_keyAndColons hw hb, ← List.singleton_append, first_colons_one hv]
  simp [keyMatch]

theorem matchHere?_keyAndColons_two (hw : IsWord w) (hb : Gap isSpace b) :
    keyAndColons.matchHere? (w ++ (b ++ ("::".toList ++ v))) 0 = some (keyMatch w b "::".toList) := by
  rw [matchHere?]
  show first keyAndColons ⟨0, w ++ (b ++ ':' :: ':' :: v), []⟩ _ = _
  rw [first_keyAndColons hw hb]
  exact first_colons_two (by simp [keyMatch])

section Typed

variable {α : Type} {i index : Nat} {g : List (Nat × Nat × Nat)} {next : Cursor → Option α}

/-- Two colons, blanks and a remembered word. -/
def colonsAndWord (index : Nat) : Pattern :=
  .seq (.literal "::".toList) (.seq blanks (.group index word))

theorem first_colonsAndWord_of_ne {c : Char} {cs : List Char} (h : c ≠ ':') :
    first (colonsAndWord index) ⟨i, c :: cs, g⟩ next = none := by
  rw [colonsAndWord, first]
  exact first_literal_of_ne h

theorem first_colonsAndWord {x : α} (hb : Gap isSpace b) (ht : IsWord t) (hv : Stops isWordChar v)
    (hnext : next ⟨i + 2 + b.length + t.length, v,
      (index, i + 2 + b.length, i + 2 + b.length + t.length) :: g⟩ = some x) :
    first (colonsAndWord index) ⟨i, "::".toList ++ (b ++ (t ++ v)), g⟩ next = some x := by
  have hblank : Stops isBlank (t ++ v) := by
    obtain ⟨c, cs, rfl⟩ := List.exists_cons_of_ne_nil ht.1
    exact stops_cons.2 (isBlank_of_isWordChar (ht.2 c (by simp)))
  have hword : ∀ i c cs, isBlank c = true →
      first (.group index word) ⟨i, c :: cs, g⟩ next = none := fun i c cs hc => by
    rw [first]
    exact first_atLeastOne_of_stops (stops_cons.2 (isWordChar_of_isBlank hc))
  rw [colonsAndWord, first, first_literal, first_blanks hb.isGap hblank hword, first]
  exact first_atLeastOne_of_succeeds ht.1 ht.2 hv hnext

end Typed

theorem matchHere?_typedField (hn : IsWord n) (hb : Gap isSpace b) (hb' : Gap isSpace b')
    (ht : IsWord t) (hv : Stops isWordChar v) :
    typedField.matchHere? (n ++ (b ++ ("::".toList ++ (b' ++ (t ++ v))))) 0 =
      some (typedFieldMatch n b b' t) := by
  have hcolon : Stops isBlank ("::".toList ++ (b' ++ (t ++ v))) := stops_cons.2 (by decide)
  show first (.seq (.group 1 word) (.seq blanks (colonsAndWord 2))) ⟨0, _, []⟩ _ = _
  rw [first_word hn (hb.stops_word stops_colons) fun i c cs g hc => ?_,
    first_blanks hb.isGap hcolon fun i c cs hc =>
      first_colonsAndWord_of_ne (ne_of_isBlank hc (by decide))]
  · exact first_colonsAndWord hb' ht hv (by simp [typedFieldMatch])
  · rw [first_blanks_of_not_blank (isBlank_of_isWordChar hc) fun i d ds hd =>
      first_colonsAndWord_of_ne (ne_of_isBlank hd (by decide))]
    exact first_colonsAndWord_of_ne (ne_of_isWordChar hc (by decide))

theorem matchHere?_namedType (hb : Gap isSpace b) (hb' : Gap isSpace b') (ht : IsWord t)
    (hv : Stops isWordChar v) :
    namedType.matchHere? (b ++ ("::".toList ++ (b' ++ (t ++ v)))) 0 =
      some (namedTypeMatch b b' t) := by
  show first (.seq blanks (colonsAndWord 1)) ⟨0, _, []⟩ _ = _
  have hcolon : Stops isBlank ("::".toList ++ (b' ++ (t ++ v))) := stops_cons.2 (by decide)
  rw [first_blanks hb.isGap hcolon fun i c cs hc =>
      first_colonsAndWord_of_ne (ne_of_isBlank hc (by decide))]
  exact first_colonsAndWord hb' ht hv (by simp [namedTypeMatch])

end Preferred

end ApiCatalog.Response
