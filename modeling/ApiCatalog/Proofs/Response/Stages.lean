import ApiCatalog.Proofs.Response.Rows

/-!
# What each expansion makes of a phrase

Each of the expansions other than that of typed objects is a map of phrases: `spellList`,
`quoteKey`, `spellField` and `spellType`. A name or a type that is put in quotes becomes a literal.
-/

namespace ApiCatalog.Response

open ApiCatalog.Json (Glyph Punctuation glyphsText glyphsChars quoteGlyphs)
open ApiCatalog.Pattern
open ApiCatalog.Quoting
open ApiCatalog.Text

/-! ## Literals that expansions write -/

theorem le_toNat_of_isWordChar {c : Char} (h : isWordChar c = true) : 32 ≤ c.toNat := by
  have hall : ∀ n < 32, Run.covers wordRuns n = false := by decide
  refine Nat.not_lt.1 ?_
  intro hlt
  rw [isWordChar, hall _ hlt] at h
  exact absurd h (by decide)

/-- The glyphs of the characters of a word. -/
def Word.glyphs (w : Word) : List Glyph :=
  w.chars.attach.map fun c =>
    .plain c.1 (w.isWord.isPlain c.1 c.2).1 (w.isWord.isPlain c.1 c.2).2
      (le_toNat_of_isWordChar (w.isWord.2 c.1 c.2))

theorem Word.glyphsText_glyphs (w : Word) : glyphsText w.glyphs = w.chars := by
  simp [glyphsText, Word.glyphs, List.flatMap_map, Glyph.text]

theorem Word.glyphsChars_glyphs (w : Word) : glyphsChars w.glyphs = w.chars := by
  simp [glyphsChars, Word.glyphs, Glyph.char, Function.comp_def]

/-- A word in quotes. -/
def Word.quoted (w : Word) : Literal where
  glyphs := w.glyphs
  tidy := by
    rw [w.glyphsText_glyphs]
    exact tidy_of_no_blank (by decide) w.solid

theorem Word.text_quoted (w : Word) : w.quoted.text = '"' :: (w.chars ++ ['"']) := by
  rw [Literal.text, quoteGlyphs, Word.quoted, w.glyphsText_glyphs]

theorem Word.chars_quoted (w : Word) : w.quoted.chars = w.chars := w.glyphsChars_glyphs

/-- The key of a reference, in quotes. -/
def refKey : Literal where
  glyphs := [.plain '$' (by decide) (by decide) (by decide),
    .plain 'r' (by decide) (by decide) (by decide), .plain 'e' (by decide) (by decide) (by decide),
    .plain 'f' (by decide) (by decide) (by decide)]
  tidy := tidy_of_no_blank (by decide) (by simp [glyphsText, Glyph.text]; decide)

/-- A reference to what the phrases `target` say. -/
def reference (target : List Phrase) : List Phrase :=
  .mark .openObject :: .literal refKey :: .mark .colon :: (target ++ [.mark .closeObject])

theorem reference_ends (target : List Phrase) :
    ∀ k ∈ (reference target).getLast?, k.endsInColon = false := by
  have hcut : reference target =
      (.mark .openObject :: .literal refKey :: .mark .colon :: target) ++ [.mark .closeObject] := rfl
  intro k hk
  rw [hcut, List.getLast?_concat] at hk
  rw [← Option.some.inj hk]
  rfl

theorem gap_space : Gap isSpace [' '] := by simp [Gap, isSpace]

theorem layout_reference {target : List Phrase} {text : List Char}
    (h : Layout isSpace target text) :
    Layout isSpace (reference target) (referenceTo text) := by
  have hclose : Layout isSpace [.mark .closeObject] ['\x7d'] := .single gap_nil (.mark .closeObject)
  have htarget : Layout isSpace (target ++ [Phrase.mark .closeObject])
      (' ' :: (text ++ ['\x7d'])) :=
    (h.append hclose fun _ _ _ => noColon_cons.2 (by decide)).gap_append gap_space
  have hcolon : Layout isSpace (.mark .colon :: (target ++ [Phrase.mark .closeObject]))
      (':' :: ' ' :: (text ++ ['\x7d'])) :=
    .next (.mark .colon) (fun _ => noColon_cons.2 (by decide)) htarget
  have hkey : Layout isSpace
      (.literal refKey :: .mark .colon :: (target ++ [Phrase.mark .closeObject]))
      (refKey.text ++ ':' :: ' ' :: (text ++ ['\x7d'])) :=
    .next (.literal refKey) (by simp [Phrase.endsInColon]) hcolon
  have hopen : Layout isSpace (reference target)
      (['\x7b'] ++ (refKey.text ++ ':' :: ' ' :: (text ++ ['\x7d']))) :=
    .next (.mark .openObject) (by simp [Phrase.endsInColon]) hkey
  rw [referenceTo_eq]
  exact hopen

/-! ## Patterns that begin with a word -/

section WordLed

variable {q : Pattern} {r : Replacement} {l : Phrase} {b u text : List Char}

theorem rewrite_wordLed_gap_append (hb : Gap isSpace b) (v : List Char) :
    rewrite (.seq (.group 1 word) q) r false (b ++ v) =
      b ++ rewrite (.seq (.group 1 word) q) r false v :=
  rewrite_wordLed_copy hb.isPlain hb.not_word

theorem rewrite_wordLed_gap (b : List Char) (hb : Gap isSpace b) :
    rewrite (.seq (.group 1 word) q) r false b = b := by
  have h := rewrite_wordLed_gap_append (q := q) (r := r) hb []
  rwa [List.append_nil, rewrite_nil_of_none (settleHere?_of_none
    (matchHere?_wordLed_of_not_word stops_nil)), List.append_nil] at h

/-- A phrase that the pattern does not match is mapped to itself. -/
theorem maps_wordLed_self (hq : ∀ c cs, isWordChar c = true → Refuses q (c :: cs))
    (hend : ∀ text, EndsWord text → Refuses q text)
    (hlist : ∀ t, l = .listType t → ∀ text, Refuses q ("[]".toList ++ text))
    (hkey : ∀ n, l = .key n → ∀ b text, Gap isSpace b → NoColon text →
      Refuses q (b ++ ([':'] ++ text)))
    (hfield : ∀ n t, l = .typedField n t → ∀ b text, Gap isSpace b →
      Refuses q (b ++ ("::".toList ++ text))) :
    Maps (.seq (.group 1 word) q) r l [l] := by
  refine maps_self ?_
  intro b u text hb hu hbefore
  rw [rewrite_wordLed_gap_append hb, rewrite_wordLed_phrase hq hu hbefore.paired]
  · exact fun hl => ⟨hbefore.word hl, hend _ (hbefore.word hl)⟩
  · exact fun t hl => hlist t hl text
  · rintro n rfl b hb
    exact hkey n rfl b text hb (hbefore.colon rfl)
  · rintro n t hl b b' hb hb'
    exact hfield n t hl b _ hb

/-- A phrase that the pattern matches as a whole is mapped to what the replacement lays out. -/
theorem maps_wordLed_match {ks : List Phrase}
    (h : ∀ u text, l.Writes isSpace u → l.Before text → (∀ c ∈ u, IsPlain c) ∧
      ∃ m, (Pattern.seq (.group 1 word) q).matchHere? (u ++ text) 0 = some m ∧
        m.stop = u.length ∧ Layout isSpace ks (r (m.captures (u ++ text))))
    (hends : ∀ k ∈ ks.getLast?, k.endsInColon = true → l.endsInColon = true) :
    Maps (.seq (.group 1 word) q) r l ks := by
  intro b u text hb hu hbefore
  obtain ⟨hplain, m, hmatch, hstop, hlayout⟩ := h u text hu hbefore
  refine ⟨b ++ r (m.captures (u ++ text)), ?_, hlayout.gap_append hb, hends⟩
  rw [rewrite_wordLed_gap_append hb, rewrite_match hmatch hstop hu.ne_nil hplain hbefore.paired,
    List.append_assoc]

end WordLed

/-! ## Lists of named types -/

/-- `T[]` becomes `[ :: T ]`. -/
def spellList : Phrase → List Phrase
  | .listType t => [.mark .openArray, .namedType t, .mark .closeArray]
  | l => [l]

theorem refuses_brackets {c : Char} {cs : List Char} (h : isWordChar c = false → c ≠ '[') :
    Refuses (literal ['[', ']']) (c :: cs) := by
  refine refuses_literal ?_
  intro d hd
  obtain rfl : c = d := by simpa using hd
  cases hc : isWordChar c with
  | true => exact ne_of_isWordChar hc (by decide)
  | false => exact h hc

theorem refuses_brackets_gap {b v : List Char} (hb : Gap isSpace b) :
    Refuses (literal ['[', ']']) (b ++ ':' :: v) := by
  cases b with
  | nil => exact refuses_literal (by simp)
  | cons c b =>
    refine refuses_literal ?_
    intro d hd
    obtain rfl : c = d := by simpa using hd
    exact ne_of_isBlank (hb.isGap c (by simp)) (by decide)

theorem layout_spellList (t : Word) :
    Layout isSpace (spellList (.listType t)) ("[ :: ".toList ++ t.chars ++ " ]".toList) := by
  have hclose : Layout isSpace [.mark .closeArray] " ]".toList :=
    .single gap_space (.mark .closeArray)
  have htype : Layout isSpace [.namedType t, .mark .closeArray]
      ([' '] ++ (("::".toList ++ ([' '] ++ t.chars)) ++ " ]".toList)) :=
    .cons gap_space (.namedType t gap_space) (by simp [Phrase.endsInColon]) hclose
  have htext : "[ :: ".toList ++ t.chars ++ " ]".toList =
      ['['] ++ ([' '] ++ (("::".toList ++ ([' '] ++ t.chars)) ++ " ]".toList)) := by simp
  rw [htext]
  exact .next (.mark .openArray) (by simp [Phrase.endsInColon]) htype

theorem maps_spellList (l : Phrase) : Maps listType listTypeText l (spellList l) := by
  have hself : (∀ t, l ≠ .listType t) → Maps listType listTypeText l [l] := by
    intro hl
    refine maps_wordLed_self (fun c cs hc => refuses_brackets (by simp [hc]))
      (fun text h => h.refuses.1) (fun t ht => absurd ht (hl t))
      (fun n _ b text hb _ => refuses_brackets_gap hb)
      (fun n t _ b text hb => refuses_brackets_gap hb)
  cases l with
  | listType t =>
    refine maps_wordLed_match ?_ ?_
    · intro u text hu _
      cases hu
      refine ⟨isPlain_append t.isWord.isPlain (isPlain_of_all (by decide)), listTypeMatch t.chars,
        ?_, by simp [listTypeMatch], ?_⟩
      · rw [List.append_assoc]
        exact matchHere?_listType t.isWord
      · rw [List.append_assoc, listTypeText_captures]
        exact layout_spellList t
    · intro k hk hend
      obtain rfl : Phrase.mark .closeArray = k := by simpa [spellList] using hk
      exact absurd hend (by decide)
  | _ => exact hself (by simp)

/-! ## Keys -/

/-- `name:` becomes `"name":`. -/
def quoteKey : Phrase → List Phrase
  | .key n => [.literal n.quoted, .mark .colon]
  | l => [l]

theorem layout_quoteKey (n : Word) :
    Layout isSpace (quoteKey (.key n)) ('"' :: n.chars ++ ['"', ':']) := by
  have hcolon : Layout isSpace [.mark .colon] [':'] := .single gap_nil (.mark .colon)
  have h : Layout isSpace (quoteKey (.key n)) (n.quoted.text ++ [':']) :=
    .next (.literal n.quoted) (by simp [Phrase.endsInColon]) hcolon
  rw [n.text_quoted] at h
  simpa using h

theorem stops_isBlank_of_isWordChar {c : Char} {cs : List Char} (h : isWordChar c = true) :
    Stops isBlank (c :: cs) := stops_cons.2 (isBlank_of_isWordChar h)

/-- The words before two colons are matched too, and put back. -/
theorem rewrite_keyAndColons_typedField {n t b b' text : List Char} (hn : IsWord n)
    (hb : Gap isSpace b) (hb' : Gap isSpace b') (ht : IsWord t) (hend : EndsWord text)
    (htext : pairsUp false text = true) :
    rewrite keyAndColons keyText false (n ++ (b ++ ("::".toList ++ (b' ++ (t ++ text))))) =
      n ++ (b ++ ("::".toList ++ (b' ++ (t ++ rewrite keyAndColons keyText false text)))) := by
  have hplain : ∀ c ∈ n ++ (b ++ "::".toList), IsPlain c :=
    isPlain_append hn.isPlain (isPlain_append hb.isPlain (isPlain_of_all (by decide)))
  have hrest : pairsUp false (b' ++ (t ++ text)) = true := by
    rw [← List.append_assoc, pairsUp_append,
      (Parted.of_plain (isPlain_append hb'.isPlain ht.isPlain)).pairsUp,
      (Parted.of_plain (isPlain_append hb'.isPlain ht.isPlain)).escapedAfter, htext]
    rfl
  have htext : n ++ (b ++ ("::".toList ++ (b' ++ (t ++ text)))) =
      (n ++ (b ++ "::".toList)) ++ (b' ++ (t ++ text)) := by simp
  have hmatch : keyAndColons.matchHere? ((n ++ (b ++ "::".toList)) ++ (b' ++ (t ++ text))) 0 =
      some (keyMatch n b "::".toList) := by
    rw [← htext]
    exact matchHere?_keyAndColons_two hn hb
  -- the match ends after the colons, so the type is read again, as a word of its own
  have hcopy : rewrite keyAndColons keyText false (b' ++ (t ++ text)) =
      b' ++ (t ++ rewrite keyAndColons keyText false text) := by
    have hword : rewrite keyAndColons keyText false (t ++ text) =
        t ++ rewrite keyAndColons keyText false text :=
      rewrite_wordLed_word (fun c cs hc => refuses_blanks_colons gap_nil
        (stops_isBlank_of_isWordChar hc) (noColon_of_isWordChar hc)) ht hend.stops hend.refuses.2.1
    rw [← hword]
    exact rewrite_wordLed_gap_append hb' _
  have hcaptures : keyText ((keyMatch n b "::".toList).captures
      ((n ++ (b ++ "::".toList)) ++ (b' ++ (t ++ text)))) = n ++ (b ++ "::".toList) := by
    rw [← htext]
    exact keyText_captures_two n b _
  rw [htext, rewrite_match hmatch (by simp [keyMatch]; omega) (by simp) hplain hrest, hcaptures,
    hcopy]
  simp

theorem maps_quoteKey (l : Phrase) : Maps keyAndColons keyText l (quoteKey l) := by
  have hself : (∀ n, l ≠ .key n) → (∀ n t, l ≠ .typedField n t) →
      Maps keyAndColons keyText l [l] := by
    intro hkey hfield
    exact maps_wordLed_self
      (fun c cs hc => refuses_blanks_colons gap_nil (stops_isBlank_of_isWordChar hc)
        (noColon_of_isWordChar hc))
      (fun text h => h.refuses.2.1)
      (fun t _ text => refuses_blanks_colons (v := "[]".toList ++ text) gap_nil
        (stops_cons.2 (by decide)) (noColon_cons.2 (by decide)))
      (fun n hn => absurd hn (hkey n)) (fun n t ht => absurd ht (hfield n t))
  cases l with
  | key n =>
    refine maps_wordLed_match ?_ fun _ _ _ => rfl
    intro u text hu hbefore
    cases hu with
    | @key _ b hb =>
      refine ⟨isPlain_append n.isWord.isPlain (isPlain_append hb.isPlain (isPlain_of_all (by decide))),
        keyMatch n.chars b [':'], ?_, by simp [keyMatch]; omega, ?_⟩
      · rw [List.append_assoc, List.append_assoc]
        exact matchHere?_keyAndColons_one n.isWord hb (hbefore.colon rfl)
      · rw [List.append_assoc, List.append_assoc, keyText_captures_one]
        exact layout_quoteKey n
  | typedField n t =>
    refine maps_self ?_
    intro b u text hb hu hbefore
    cases hu with
    | @typedField _ _ b₁ b₂ hb₁ hb₂ =>
      have hgap : ∀ v, rewrite keyAndColons keyText false (b ++ v) =
          b ++ rewrite keyAndColons keyText false v := rewrite_wordLed_gap_append hb
      simp only [List.append_assoc]
      rw [hgap, rewrite_keyAndColons_typedField n.isWord hb₁ hb₂ t.isWord (hbefore.word rfl)
        hbefore.paired]
  | _ => exact hself (by simp) (by simp)

/-! ## Fields of named types -/

/-- `name :: T` becomes `"name": {"$ref": "T"}`. -/
def spellField : Phrase → List Phrase
  | .typedField n t => .literal n.quoted :: .mark .colon :: reference [.literal t.quoted]
  | l => [l]

theorem layout_quoted (w : Word) :
    Layout isSpace [.literal w.quoted] ('"' :: w.chars ++ ['"']) := by
  have h : Layout isSpace [.literal w.quoted] ([] ++ w.quoted.text) :=
    .single gap_nil (.literal w.quoted)
  rw [w.text_quoted] at h
  exact h

theorem layout_spellField (n t : Word) :
    Layout isSpace (spellField (.typedField n t))
      ('"' :: n.chars ++ "\": ".toList ++ referenceTo ('"' :: t.chars ++ ['"'])) := by
  have htype := (layout_reference (layout_quoted t)).gap_append gap_space
  have hcolon : Layout isSpace (.mark .colon :: reference [.literal t.quoted])
      ([':'] ++ ([' '] ++ referenceTo ('"' :: t.chars ++ ['"']))) :=
    .next (.mark .colon) (fun _ => noColon_cons.2 (by decide)) htype
  have h : Layout isSpace (spellField (.typedField n t)) (n.quoted.text ++ _) :=
    .next (.literal n.quoted) (by simp [Phrase.endsInColon]) hcolon
  rw [n.text_quoted] at h
  simpa using h

theorem maps_spellField (l : Phrase) : Maps typedField typedFieldText l (spellField l) := by
  have hself : (∀ n t, l ≠ .typedField n t) → Maps typedField typedFieldText l [l] := by
    intro hfield
    refine maps_wordLed_self (q := .seq blanks (colonsAndWord 2))
      (fun c cs hc => refuses_blanks_colonsAndWord gap_nil (stops_isBlank_of_isWordChar hc)
        (refuses_colonsAndWord (noColon_of_isWordChar hc)))
      (fun text h => h.refuses.2.2 2)
      (fun t _ text => refuses_blanks_colonsAndWord (v := "[]".toList ++ text) gap_nil
        (stops_cons.2 (by decide)) (refuses_colonsAndWord (noColon_cons.2 (by decide))))
      (fun n _ b text hb hcolon => refuses_blanks_colonsAndWord hb (stops_cons.2 (by decide))
        (refuses_colonsAndWord_one hcolon))
      (fun n t ht => absurd ht (hfield n t))
  cases l with
  | typedField n t =>
    refine maps_wordLed_match (q := .seq blanks (colonsAndWord 2)) ?_ ?_
    · intro u text hu hbefore
      cases hu with
      | @typedField _ _ b b' hb hb' =>
        have hplain : ∀ c ∈ n.chars ++ (b ++ ("::".toList ++ (b' ++ t.chars))), IsPlain c :=
          isPlain_append n.isWord.isPlain (isPlain_append hb.isPlain
            (isPlain_append (isPlain_of_all (by decide)) (isPlain_append hb'.isPlain t.isWord.isPlain)))
        refine ⟨hplain, typedFieldMatch n.chars b b' t.chars, ?_,
          by simp [typedFieldMatch]; omega, ?_⟩
        · simp only [List.append_assoc]
          exact matchHere?_typedField n.isWord hb hb' t.isWord (hbefore.word rfl).stops
        · simp only [List.append_assoc]
          rw [typedFieldText_captures]
          exact layout_spellField n t
    · intro k hk hend
      have hlast : k ∈ (reference [.literal t.quoted]).getLast? := hk
      rw [reference_ends _ k hlast] at hend
      exact absurd hend (by decide)
  | _ => exact hself (by simp)

/-! ## Named types -/

/-- `:: T` becomes `{"$ref": "T"}`. -/
def spellType : Phrase → List Phrase
  | .namedType t => reference [.literal t.quoted]
  | l => [l]

/-- A phrase that is left for the last expansion: list types, keys and fields of named types are
spelled out by then. -/
def Phrase.spelled : Phrase → Bool
  | listType _ => false
  | key _ => false
  | typedField _ _ => false
  | _ => true

section NamedType

variable {b u v w text : List Char}

theorem namedType_none_of_gap (hb : Gap isSpace b) (hv : Stops isBlank v)
    (h : Refuses (colonsAndWord 1) v) : namedType.matchHere? (b ++ v) 0 = none :=
  refuses_blanks_colonsAndWord hb hv h 0 [] _

theorem rewrite_namedType_gap_append (hb : Gap isSpace b) (hv : Stops isBlank v)
    (h : Refuses (colonsAndWord 1) v) :
    rewrite namedType namedTypeText false (b ++ v) =
      b ++ rewrite namedType namedTypeText false v := by
  refine rewrite_copy hb.isPlain ?_
  intro a c b' hab
  rw [← List.cons_append]
  refine namedType_none_of_gap (fun d hd => hb d ?_) hv h
  rw [hab]
  exact List.mem_append.2 (.inr hd)

theorem rewrite_namedType_gap (b : List Char) (hb : Gap isSpace b) :
    rewrite namedType namedTypeText false b = b := by
  have h := rewrite_namedType_gap_append hb stops_nil (refuses_colonsAndWord noColon_nil)
  rwa [List.append_nil, rewrite_nil_of_none (settleHere?_of_none
    (namedType_none_of_gap gap_nil stops_nil (refuses_colonsAndWord noColon_nil))),
    List.append_nil] at h

/-- A character that is no colon and no blank is kept. -/
theorem namedType_none_of_char {c : Char} {cs : List Char} (hb : isBlank c = false) (hc : c ≠ ':') :
    namedType.matchHere? (c :: cs) 0 = none :=
  namedType_none_of_gap gap_nil (stops_cons.2 hb) (refuses_colonsAndWord (noColon_cons.2 hc))

theorem rewrite_namedType_word (hw : IsWord w) (v : List Char) :
    rewrite namedType namedTypeText false (w ++ v) =
      w ++ rewrite namedType namedTypeText false v :=
  rewrite_copy_of_refused hw.isPlain fun c hc _ => namedType_none_of_char
    (isBlank_of_isWordChar (hw.2 c hc)) (ne_of_isWordChar (hw.2 c hc) (by decide))

theorem not_blank_markChar (p : Punctuation) : isBlank (markChar p) = false := by
  cases p <;> decide

/-- Two colons before a brace are no named type. -/
theorem refuses_colonsAndWord_brace {index : Nat} (hb : Gap isSpace b) :
    Refuses (colonsAndWord index) ("::".toList ++ (b ++ '\x7b' :: v)) := by
  intro i g next
  have hword : ∀ i c cs, isWordChar c = false → ∀ g,
      first (.group index word) ⟨i, c :: cs, g⟩ next = none := fun i c cs hc g => by
    rw [first]
    exact first_atLeastOne_of_stops (stops_cons.2 hc)
  rw [colonsAndWord, first, first_literal, first_blanks hb.isGap (stops_cons.2 (by decide))
    fun i c cs hc => hword i c cs (isWordChar_of_isBlank hc) g]
  exact hword _ _ _ (by decide) g

theorem rewrite_namedType_typedOpen (hb : Gap isSpace b) :
    rewrite namedType namedTypeText false ("::".toList ++ (b ++ '\x7b' :: v)) =
      "::".toList ++ (b ++ '\x7b' :: rewrite namedType namedTypeText false v) := by
  have hcolon : NoColon (b ++ '\x7b' :: v) := hb.noColon (noColon_cons.2 (by decide))
  have hbrace : namedType.matchHere? ('\x7b' :: v) 0 = none :=
    namedType_none_of_char (by decide) (by decide)
  have hfirst : namedType.matchHere? (':' :: ':' :: (b ++ '\x7b' :: v)) 0 = none :=
    namedType_none_of_gap gap_nil (stops_cons.2 (by decide)) (refuses_colonsAndWord_brace hb)
  have hsecond : namedType.matchHere? (':' :: (b ++ '\x7b' :: v)) 0 = none :=
    namedType_none_of_gap gap_nil (stops_cons.2 (by decide)) (refuses_colonsAndWord_one hcolon)
  show rewrite namedType namedTypeText false (':' :: ':' :: (b ++ '\x7b' :: v)) = _
  rw [rewrite_char (by decide) hfirst, rewrite_char (by decide) hsecond,
    rewrite_namedType_gap_append hb (stops_cons.2 (by decide))
      (refuses_colonsAndWord (noColon_cons.2 (by decide))), rewrite_char (by decide) hbrace]
  rfl

/-- Where a phrase other than a named type begins, no named type does. -/
theorem Phrase.Writes.refuses_colonsAndWord {l : Phrase} (hu : l.Writes isSpace u)
    (hl : l.spelled = true) (hne : ∀ t, l ≠ .namedType t)
    (hcolon : l.endsInColon = true → NoColon text) :
    Stops isBlank (u ++ text) ∧ Refuses (colonsAndWord 1) (u ++ text) := by
  have hword : ∀ w : Word, ∀ v, Stops isBlank (w.chars ++ v) ∧
      Refuses (colonsAndWord 1) (w.chars ++ v) := by
    intro w v
    obtain ⟨c, cs, hcs⟩ := List.exists_cons_of_ne_nil w.isWord.1
    have hc : isWordChar c = true := w.isWord.2 c (by simp [hcs])
    rw [hcs]
    exact ⟨stops_isBlank_of_isWordChar hc, Response.refuses_colonsAndWord (noColon_of_isWordChar hc)⟩
  cases hu with
  | mark p =>
    refine ⟨stops_cons.2 (not_blank_markChar p), ?_⟩
    by_cases hp : p = .colon
    · subst hp
      exact refuses_colonsAndWord_one (hcolon rfl)
    · refine Response.refuses_colonsAndWord (noColon_cons.2 ?_)
      cases p <;> first | exact absurd rfl hp | decide
  | word w => exact hword w text
  | negative w =>
    exact ⟨stops_cons.2 (by decide), Response.refuses_colonsAndWord (noColon_cons.2 (by decide))⟩
  | literal l =>
    exact ⟨stops_cons.2 (by decide), Response.refuses_colonsAndWord (noColon_cons.2 (by decide))⟩
  | namedType t => exact absurd rfl (hne t)
  | typedOpen hb =>
    rw [List.append_assoc, List.append_assoc]
    exact ⟨stops_cons.2 (by decide), refuses_colonsAndWord_brace hb⟩
  | _ => exact absurd hl (by simp [Phrase.spelled])

/-- A phrase other than a named type is kept with the gap before it. -/
theorem rewrite_namedType_phrase {l : Phrase} (hb : Gap isSpace b) (hu : l.Writes isSpace u)
    (hl : l.spelled = true) (hne : ∀ t, l ≠ .namedType t) (hbefore : l.Before text) :
    rewrite namedType namedTypeText false (b ++ (u ++ text)) =
      b ++ (u ++ rewrite namedType namedTypeText false text) := by
  obtain ⟨hblank, hrefuses⟩ := hu.refuses_colonsAndWord hl hne hbefore.colon
  rw [rewrite_namedType_gap_append hb hblank hrefuses]
  congr 1
  cases hu with
  | mark p =>
    exact rewrite_char (isPlain_markChar p).2 (namedType_none_of_gap gap_nil hblank hrefuses)
  | word w => exact rewrite_namedType_word w.isWord text
  | negative w =>
    rw [List.cons_append, rewrite_char (by decide) (namedType_none_of_char (by decide) (by decide)),
      rewrite_namedType_word w.isWord]
    rfl
  | literal l =>
    exact rewrite_literal l.isLiteral
      (fun t => namedType_none_of_char (by decide) (by decide)) hbefore.paired
  | namedType t => exact absurd rfl (hne t)
  | typedOpen hb =>
    simp only [List.append_assoc, List.singleton_append]
    exact rewrite_namedType_typedOpen hb
  | _ => exact absurd hl (by simp [Phrase.spelled])

theorem maps_spellType {l : Phrase} (hl : l.spelled = true) :
    Maps namedType namedTypeText l (spellType l) := by
  have hself : (∀ t, l ≠ .namedType t) → Maps namedType namedTypeText l [l] := by
    intro hne
    exact maps_self fun b u text hb hu hbefore => rewrite_namedType_phrase hb hu hl hne hbefore
  cases l with
  | namedType t =>
    intro b u text hb hu hbefore
    cases hu with
    | @namedType _ b' hb' =>
      -- the pattern begins with blanks, so the gap is part of the match and is lost
      have hplain : ∀ c ∈ b ++ ("::".toList ++ (b' ++ t.chars)), IsPlain c :=
        isPlain_append hb.isPlain (isPlain_append (isPlain_of_all (by decide))
          (isPlain_append hb'.isPlain t.isWord.isPlain))
      have hmatch : namedType.matchHere? ((b ++ ("::".toList ++ (b' ++ t.chars))) ++ text) 0 =
          some (namedTypeMatch b b' t.chars) := by
        have := matchHere?_namedType hb hb' t.isWord (hbefore.word rfl).stops
        simpa using this
      have hcaptures : namedTypeText ((namedTypeMatch b b' t.chars).captures
          ((b ++ ("::".toList ++ (b' ++ t.chars))) ++ text)) =
            referenceTo ('"' :: t.chars ++ ['"']) := by
        rw [← namedTypeText_captures t.chars b b' text]
        simp
      have hcut : b ++ (("::".toList ++ (b' ++ t.chars)) ++ text) =
          (b ++ ("::".toList ++ (b' ++ t.chars))) ++ text := by simp
      refine ⟨_, ?_, layout_reference (layout_quoted t), ?_⟩
      · rw [hcut, rewrite_match hmatch (by simp [namedTypeMatch]; omega) (by simp) hplain
          hbefore.paired, hcaptures]
      · intro k hk hend
        rw [reference_ends _ k hk] at hend
        exact absurd hend (by decide)
  | _ => exact hself (by simp)

end NamedType

end ApiCatalog.Response
