import ApiCatalog.Proofs.Json.Strings
import ApiCatalog.Proofs.Response.Matches
import ApiCatalog.Proofs.Text.Collapse

/-!
# Phrases of the response shorthand

A text in the shorthand is a row of phrases with gaps around and inside them: punctuation, words,
string literals, and the phrases of the shorthand itself, such as a key with its colon or a type
with the two colons before it. `Layout` says which texts lay out a row of phrases. Where the gaps
may hold blanks of any kind, collapsing makes them single spaces and leaves the phrases as they are
(`Layout.collapse`).
-/

namespace ApiCatalog.Response

open ApiCatalog.Json
open ApiCatalog.Quoting
open ApiCatalog.Text

/-! ## Words and literals -/

/-- A word. -/
structure Word where
  chars : List Char
  isWord : IsWord chars

/-- A string literal that collapsing leaves alone: its only blanks are spaces, no two of them side
by side. -/
structure Literal where
  glyphs : List Glyph
  tidy : Tidy isBlank (glyphsText glyphs)

namespace Literal

/-- The literal as it is written, quotes included. -/
def text (l : Literal) : List Char := quoteGlyphs l.glyphs

/-- The characters that the literal stands for. -/
def chars (l : Literal) : List Char := glyphsChars l.glyphs

theorem isLiteral (l : Literal) : IsLiteral l.text := isLiteral_quoteGlyphs l.glyphs

end Literal

/-- The character of a punctuation mark. -/
def markChar : Punctuation → Char
  | .openArray => '['
  | .closeArray => ']'
  | .openObject => '{'
  | .closeObject => '}'
  | .comma => ','
  | .colon => ':'

/-! ## Phrases -/

/-- A phrase of the shorthand. -/
inductive Phrase where
  /-- Punctuation: a bracket, a brace, a comma, or the colon after a quoted key. -/
  | mark (p : Punctuation)
  /-- A word on its own, such as `true` or `12`. -/
  | word (w : Word)
  /-- A minus sign and a word. -/
  | negative (w : Word)
  | literal (l : Literal)
  /-- `T[]` -/
  | listType (t : Word)
  /-- `name:` -/
  | key (n : Word)
  /-- `name :: T` -/
  | typedField (n t : Word)
  /-- `:: T` -/
  | namedType (t : Word)
  /-- The opening of a typed object: two colons and a brace. -/
  | typedOpen

/-- A gap between phrases or inside one. -/
def Gap (blank : Char → Bool) (b : List Char) : Prop := ∀ c ∈ b, blank c = true

/-- How a phrase is written, with gaps of the given blanks inside. -/
inductive Phrase.Writes (blank : Char → Bool) : Phrase → List Char → Prop where
  | mark (p : Punctuation) : Writes blank (.mark p) [markChar p]
  | word (w : Word) : Writes blank (.word w) w.chars
  | negative (w : Word) : Writes blank (.negative w) ('-' :: w.chars)
  | literal (l : Literal) : Writes blank (.literal l) l.text
  | listType (t : Word) : Writes blank (.listType t) (t.chars ++ "[]".toList)
  | key (n : Word) {b : List Char} (hb : Gap blank b) :
      Writes blank (.key n) (n.chars ++ (b ++ [':']))
  | typedField (n t : Word) {b b' : List Char} (hb : Gap blank b) (hb' : Gap blank b') :
      Writes blank (.typedField n t) (n.chars ++ (b ++ ("::".toList ++ (b' ++ t.chars))))
  | namedType (t : Word) {b : List Char} (hb : Gap blank b) :
      Writes blank (.namedType t) ("::".toList ++ (b ++ t.chars))
  | typedOpen {b : List Char} (hb : Gap blank b) :
      Writes blank .typedOpen ("::".toList ++ (b ++ ['\x7b']))

namespace Phrase

/-- Whether the phrase ends in a colon. -/
def endsInColon : Phrase → Bool
  | mark .colon => true
  | key _ => true
  | _ => false

/-- Whether the phrase ends in a word. -/
def endsInWord : Phrase → Bool
  | word _ => true
  | negative _ => true
  | typedField _ _ => true
  | namedType _ => true
  | _ => false

/-- Whether the phrase may follow a word: a comma or a closing bracket or brace. -/
def endsWord : Phrase → Bool
  | mark .comma => true
  | mark .closeArray => true
  | mark .closeObject => true
  | _ => false

/-- Whether the phrase opens a typed object. -/
def opens : Phrase → Bool
  | typedOpen => true
  | _ => false

end Phrase

/-- A row that goes on, after a word, with a comma or a closing bracket or brace, if it goes on. -/
def WordStop (ls : List Phrase) : Prop := ∀ l ∈ ls.head?, l.endsWord = true

/-- A row in which every word is followed so. -/
def Orderly : List Phrase → Prop
  | [] => True
  | l :: ls => (l.endsInWord = true → WordStop ls) ∧ Orderly ls

/-- A text that does not begin with a colon. -/
def NoColon (text : List Char) : Prop := ∀ c ∈ text.head?, c ≠ ':'

/-- `Layout blank ls text`: the text is the row of phrases `ls` with gaps of blanks around and
inside them. A colon at the end of a phrase is not followed by another one without a gap. -/
inductive Layout (blank : Char → Bool) : List Phrase → List Char → Prop where
  | nil {b : List Char} (hb : Gap blank b) : Layout blank [] b
  | cons {l : Phrase} {ls : List Phrase} {b u text : List Char} (hb : Gap blank b)
      (hu : l.Writes blank u) (hcolon : l.endsInColon = true → NoColon text)
      (rest : Layout blank ls text) : Layout blank (l :: ls) (b ++ (u ++ text))

/-! ## Putting layouts together and taking them apart -/

section Layouts

variable {blank : Char → Bool} {ks ls : List Phrase} {b s t text : List Char}

theorem Gap.append {a : List Char} (ha : Gap blank a) (hb : Gap blank b) : Gap blank (a ++ b) :=
  fun c hc => (List.mem_append.1 hc).elim (ha c) (hb c)

theorem gap_nil : Gap blank [] := by simp [Gap]

theorem noColon_nil : NoColon [] := by simp [NoColon]

theorem noColon_cons {c : Char} : NoColon (c :: text) ↔ c ≠ ':' := by simp [NoColon]

theorem NoColon.append (hs : NoColon s) (ht : s = [] → NoColon t) : NoColon (s ++ t) := by
  cases s with
  | nil => exact ht rfl
  | cons c s => exact noColon_cons.2 (noColon_cons.1 hs)

theorem Phrase.Writes.ne_nil {l : Phrase} {u : List Char} (hu : l.Writes blank u) : u ≠ [] := by
  cases hu with
  | word w => exact w.isWord.1
  | literal l => simp [Literal.text, quoteGlyphs]
  | _ => simp

/-- Only an empty row is laid out as the empty text. -/
theorem Layout.eq_nil (h : Layout blank ls []) : ls = [] := by
  generalize ht : ([] : List Char) = t at h
  cases h with
  | nil => rfl
  | cons _ hu _ _ =>
    rw [List.nil_eq, List.append_eq_nil_iff, List.append_eq_nil_iff] at ht
    exact absurd ht.2.1 hu.ne_nil

theorem Layout.gap_append (hb : Gap blank b) (h : Layout blank ls text) :
    Layout blank ls (b ++ text) := by
  cases h with
  | nil hb' => exact .nil (hb.append hb')
  | cons hb' hu hcolon rest =>
    rw [← List.append_assoc]
    exact .cons (hb.append hb') hu hcolon rest

/-- A phrase without a gap before it. -/
theorem Layout.next {l : Phrase} {u : List Char} (hu : l.Writes blank u)
    (hcolon : l.endsInColon = true → NoColon text) (h : Layout blank ls text) :
    Layout blank (l :: ls) (u ++ text) :=
  .cons gap_nil hu hcolon h

/-- A phrase on its own. -/
theorem Layout.single {l : Phrase} {u : List Char} (hb : Gap blank b) (hu : l.Writes blank u) :
    Layout blank [l] (b ++ u) := by
  have := Layout.cons hb hu (fun _ => noColon_nil) (.nil gap_nil)
  rwa [List.append_nil] at this

/-- Layouts are put together if no colons come side by side. -/
theorem Layout.append (hs : Layout blank ks s) (ht : Layout blank ls t)
    (hcolon : ∀ l ∈ ks.getLast?, l.endsInColon = true → NoColon t) :
    Layout blank (ks ++ ls) (s ++ t) := by
  induction hs with
  | nil hb => exact ht.gap_append hb
  | @cons k ks b u s hb hu hk rest ih =>
    rw [List.append_assoc, List.append_assoc]
    refine .cons hb hu (fun hl => (hk hl).append ?_) (ih fun l hmem => hcolon l ?_)
    · -- only where nothing is laid out between does the colon see what `t` begins with
      intro hs
      subst hs
      obtain rfl := rest.eq_nil
      exact hcolon k (by simp) hl
    · rw [List.getLast?_cons, Option.mem_def.1 hmem]
      rfl

/-- The layout of two rows is cut between them. -/
theorem Layout.split (h : Layout blank (ks ++ ls) text) :
    ∃ s t, text = s ++ t ∧ Layout blank ks s ∧ Layout blank ls t ∧
      ∀ l ∈ ks.getLast?, l.endsInColon = true → NoColon t := by
  induction ks generalizing text with
  | nil => exact ⟨[], text, rfl, .nil gap_nil, h, by simp⟩
  | cons k ks ih =>
    cases h with
    | @cons _ _ b u rest hb hu hcolon h =>
      cases ks with
      | nil =>
        refine ⟨b ++ u, rest, by simp, .single hb hu, h, ?_⟩
        intro l hl hend
        obtain rfl : k = l := by simpa using hl
        exact hcolon hend
      | cons k' ks =>
        obtain ⟨s, t, rfl, hs, ht, hlast⟩ := ih h
        refine ⟨b ++ (u ++ s), t, by simp, .cons hb hu ?_ hs, ht, ?_⟩
        · -- the cut may leave the colon without a text after it
          intro hk
          have := hcolon hk
          cases s with
          | nil => exact noColon_nil
          | cons c s => exact noColon_cons.2 (noColon_cons.1 this)
        · simpa using hlast

end Layouts

/-! ## Collapsing -/

section Collapse

/-- The gap that is left of a gap. -/
def spaceOf (b : List Char) : List Char := if b = [] then [] else [' ']

/-- Whether a character is a space. -/
def isSpace (c : Char) : Bool := c == ' '

theorem gap_spaceOf (b : List Char) : Gap isSpace (spaceOf b) := by
  intro c hc
  rw [spaceOf] at hc
  split at hc
  · simp at hc
  · rw [List.mem_singleton.1 hc]
    rfl

variable {b u text : List Char}

/-- A stretch without blanks is kept. -/
theorem spaced_solid (hu : ∀ c ∈ u, isBlank c = false) :
    spaced false (u ++ text) = u ++ spaced false text := by
  induction u with
  | nil => rfl
  | cons c u ih =>
    rw [List.cons_append, spaced, if_neg (by simp [hu c (by simp)]), if_neg (by decide),
      ih fun d hd => hu d (by simp [hd])]
    rfl

/-- A gap before a character that is no blank becomes one space, unless it is empty. -/
theorem spaced_gap (hb : IsGap b) {c : Char} (hc : isBlank c = false) :
    spaced false (b ++ c :: text) = spaceOf b ++ c :: spaced false text := by
  rw [spaced_append hc]
  by_cases hne : b = []
  · simp [hne, spaceOf, oneSpaced]
  · simp [hne, spaceOf, oneSpaced_of_blank hb hne]

theorem spaced_gap_solid (hb : IsGap b) (hne : u ≠ []) (hu : ∀ c ∈ u, isBlank c = false) :
    spaced false (b ++ (u ++ text)) = spaceOf b ++ (u ++ spaced false text) := by
  obtain ⟨c, u, rfl⟩ := List.exists_cons_of_ne_nil hne
  rw [List.cons_append, spaced_gap hb (hu c (by simp)), spaced_solid fun d hd => hu d (by simp [hd])]
  rfl

theorem Word.solid (w : Word) : ∀ c ∈ w.chars, isBlank c = false := fun c hc =>
  isBlank_of_isWordChar (w.isWord.2 c hc)

theorem spaced_gap_word (hb : IsGap b) (w : Word) :
    spaced false (b ++ (w.chars ++ text)) = spaceOf b ++ (w.chars ++ spaced false text) :=
  spaced_gap_solid hb w.isWord.1 w.solid

theorem spaced_gap_colons (hb : IsGap b) :
    spaced false (b ++ ("::".toList ++ text)) = spaceOf b ++ ("::".toList ++ spaced false text) :=
  spaced_gap_solid hb (by decide) (by simp; decide)

/-- A literal is kept because it is tidy. -/
theorem spaced_gap_literal (hb : IsGap b) (l : Literal) :
    spaced false (b ++ (l.text ++ text)) = spaceOf b ++ (l.text ++ spaced false text) := by
  have hquote : isBlank '"' = false := by decide
  have htidy : oneSpaced isBlank false (glyphsText l.glyphs) = glyphsText l.glyphs :=
    (oneSpaced_eq_self_iff (by decide)).2 l.tidy
  rw [Literal.text, quoteGlyphs, List.cons_append, spaced_gap hb hquote, List.append_assoc,
    List.singleton_append, spaced_append hquote, htidy]
  simp

/-- Collapsing a phrase and the gap before it. -/
theorem Phrase.Writes.spaced {l : Phrase} (hu : l.Writes isBlank u) (hb : IsGap b) :
    ∃ u', l.Writes isSpace u' ∧
      ∀ text, Text.spaced false (b ++ (u ++ text)) = spaceOf b ++ (u' ++ Text.spaced false text) := by
  cases hu with
  | mark p =>
    refine ⟨_, .mark p, fun text => spaced_gap_solid hb (by simp) ?_⟩
    cases p <;> simp [markChar] <;> decide
  | word w => exact ⟨_, .word w, fun text => spaced_gap_word hb w⟩
  | negative w =>
    refine ⟨_, .negative w, fun text => spaced_gap_solid hb (by simp) ?_⟩
    exact List.forall_mem_cons.2 ⟨by decide, w.solid⟩
  | literal l => exact ⟨_, .literal l, fun text => spaced_gap_literal hb l⟩
  | listType t =>
    refine ⟨_, .listType t, ?_⟩
    intro text
    have hbrackets : ∀ c ∈ "[]".toList, isBlank c = false := by simp; decide
    rw [List.append_assoc, spaced_gap_word hb, spaced_solid hbrackets, List.append_assoc]
  | @key n b₁ hb' =>
    refine ⟨_, .key n (gap_spaceOf b₁), ?_⟩
    intro text
    rw [List.append_assoc, List.append_assoc, spaced_gap_word hb,
      spaced_gap_solid hb' (by simp) (by simp; decide), List.append_assoc, List.append_assoc]
  | @typedField n t b₁ b₂ hb' hb'' =>
    refine ⟨_, .typedField n t (gap_spaceOf b₁) (gap_spaceOf b₂), ?_⟩
    intro text
    simp only [List.append_assoc]
    rw [spaced_gap_word hb, spaced_gap_colons hb', spaced_gap_word hb'']
  | @namedType t b₁ hb' =>
    refine ⟨_, .namedType t (gap_spaceOf b₁), ?_⟩
    intro text
    simp only [List.append_assoc]
    rw [spaced_gap_colons hb, spaced_gap_word hb']
  | @typedOpen b₁ hb' =>
    refine ⟨_, .typedOpen (gap_spaceOf b₁), ?_⟩
    intro text
    simp only [List.append_assoc]
    rw [spaced_gap_colons hb, spaced_gap_solid hb' (by simp) (by simp; decide)]

theorem NoColon.spaced (h : NoColon text) : NoColon (Text.spaced false text) := by
  cases text with
  | nil => exact h
  | cons c cs =>
    rw [Text.spaced]
    split
    · rw [(spaced_eq cs).2]
      split
      · exact noColon_nil
      · exact noColon_cons.2 (by decide)
    · rw [if_neg (by decide)]
      exact noColon_cons.2 (noColon_cons.1 h)

theorem Layout.spaced {ls : List Phrase} (h : Layout isBlank ls text) :
    Layout isSpace ls (Text.spaced false text) := by
  induction h with
  | nil hb =>
    rw [spaced_of_blank false hb]
    exact .nil gap_nil
  | cons hb hu hcolon rest ih =>
    obtain ⟨u', hu', hspaced⟩ := hu.spaced hb
    rw [hspaced]
    exact .cons (gap_spaceOf _) hu' (fun hl => (hcolon hl).spaced) ih

/-- No phrase begins with a blank. -/
theorem Phrase.Writes.exists_head {l : Phrase} (hu : l.Writes isBlank u) :
    ∃ c v, u = c :: v ∧ isBlank c = false := by
  have hword : ∀ (w : Word) v, ∃ c v', w.chars ++ v = c :: v' ∧ isBlank c = false := by
    intro w v
    obtain ⟨c, cs, hcs⟩ := List.exists_cons_of_ne_nil w.isWord.1
    exact ⟨c, cs ++ v, by rw [hcs]; rfl, w.solid c (by simp [hcs])⟩
  cases hu with
  | mark p => exact ⟨markChar p, [], rfl, by cases p <;> decide⟩
  | word w => simpa using hword w []
  | negative w => exact ⟨'-', w.chars, rfl, by decide⟩
  | literal l => exact ⟨'"', _, rfl, by decide⟩
  | listType t => exact hword t _
  | key n hb => exact hword n _
  | typedField n t hb hb' => exact hword n _
  | namedType t hb => exact ⟨':', _, rfl, by decide⟩
  | typedOpen hb => exact ⟨':', _, rfl, by decide⟩

theorem trimStart_gap (hb : IsGap b) : Text.trimStart (b ++ text) = Text.trimStart text := by
  induction b with
  | nil => rfl
  | cons c b ih =>
    have hc : isBlank c = true := hb c (by simp)
    rw [Text.trimStart, List.cons_append, List.dropWhile_cons_of_pos hc]
    exact ih fun d hd => hb d (by simp [hd])

/-- What follows the blanks at the start lays out the same row. -/
theorem Layout.trimStart {ls : List Phrase} (h : Layout isBlank ls text) :
    Layout isBlank ls (Text.trimStart text) := by
  cases h with
  | nil hb =>
    rw [← List.append_nil text, trimStart_gap hb]
    exact .nil gap_nil
  | cons hb hu hcolon rest =>
    obtain ⟨c, v, rfl, hc⟩ := hu.exists_head
    rw [trimStart_gap hb, List.cons_append, trimStart_cons_of_not_blank hc, ← List.cons_append]
    exact .cons gap_nil hu hcolon rest

/-- A collapsed text lays out the same row, with single spaces for gaps. -/
theorem Layout.collapse {ls : List Phrase} (h : Layout isBlank ls text) :
    Layout isSpace ls (Text.collapse text) := by
  rw [collapse_eq]
  exact h.trimStart.spaced

end Collapse

end ApiCatalog.Response
