import ApiCatalog.Annotation.Response
import ApiCatalog.Proofs.Pattern.Place
import ApiCatalog.Proofs.Pattern.Runs
import ApiCatalog.Proofs.Quoting.Rewriting
import ApiCatalog.Proofs.Text.Classes

/-!
# What the patterns of the response shorthand match

For each pattern: the form of every text that it matches, where the match and its groups lie, and
what stands for such a match. Only the pattern of a typed object can match text with a quote in it.
-/

namespace ApiCatalog.Response

open ApiCatalog.Pattern
open ApiCatalog.Quoting
open ApiCatalog.Text (isBlank isWordChar ne_of_isBlank ne_of_isWordChar)

/-- A stretch that is a word. -/
def IsWord (w : List Char) : Prop := w ≠ [] ∧ ∀ c ∈ w, isWordChar c = true

/-- A stretch that holds blanks only. -/
def IsGap (b : List Char) : Prop := ∀ c ∈ b, isBlank c = true

theorem IsWord.isPlain {w : List Char} (h : IsWord w) : ∀ c ∈ w, IsPlain c := fun c hc =>
  ⟨ne_of_isWordChar (h.2 c hc) (by decide), ne_of_isWordChar (h.2 c hc) (by decide)⟩

theorem IsGap.isPlain {b : List Char} (h : IsGap b) : ∀ c ∈ b, IsPlain c := fun c hc =>
  ⟨ne_of_isBlank (h c hc) (by decide), ne_of_isBlank (h c hc) (by decide)⟩

theorem isPlain_append {a b : List Char} (ha : ∀ c ∈ a, IsPlain c) (hb : ∀ c ∈ b, IsPlain c) :
    ∀ c ∈ a ++ b, IsPlain c := fun c hc =>
  (List.mem_append.1 hc).elim (ha c) (hb c)

variable {t : Cursor} {i : Nat} {r text : List Char} {g : List (Nat × Nat × Nat)} {m : Match}

theorem mem_runs_blanks :
    t ∈ runs blanks ⟨i, r, g⟩ ↔ ∃ b v, r = b ++ v ∧ IsGap b ∧ t = ⟨i + b.length, v, g⟩ :=
  mem_runs_many

/-- A remembered word. -/
theorem mem_runs_group_word {index : Nat} :
    t ∈ runs (.group index word) ⟨i, r, g⟩ ↔
      ∃ w v, r = w ++ v ∧ IsWord w ∧
        t = ⟨i + w.length, v, (index, i, i + w.length) :: g⟩ := by
  simp only [mem_runs_group, word, mem_runs_atLeastOne]
  constructor
  · intro hex
    rcases hex with ⟨u, ⟨w, v, rfl, hne, hw, rfl⟩, rfl⟩
    exact ⟨w, v, rfl, ⟨hne, hw⟩, rfl⟩
  · intro hex
    rcases hex with ⟨w, v, rfl, ⟨hne, hw⟩, rfl⟩
    exact ⟨_, ⟨w, v, rfl, hne, hw, rfl⟩, rfl⟩

/-- One colon or two, remembered as the group `2`. -/
theorem mem_runs_colons :
    t ∈ runs (.group 2 (.seq (.only ':') (.optional (.only ':')))) ⟨i, r, g⟩ ↔
      ∃ colons v, r = colons ++ v ∧ (colons = [':'] ∨ colons = [':', ':']) ∧
        t = ⟨i + colons.length, v, (2, i, i + colons.length) :: g⟩ := by
  rw [mem_runs_group]
  constructor
  · intro hex
    rcases hex with ⟨u, hu, rfl⟩
    obtain ⟨_, h1, h2⟩ := mem_runs_seq.1 hu
    obtain ⟨v, rfl, rfl⟩ := mem_runs_only.1 h1
    rcases List.mem_append.1 h2 with h2 | h2
    · obtain ⟨v, rfl, rfl⟩ := mem_runs_only.1 h2
      exact ⟨[':', ':'], v, rfl, .inr rfl, rfl⟩
    · obtain rfl := List.mem_singleton.1 h2
      exact ⟨[':'], v, rfl, .inl rfl, rfl⟩
  · intro hex
    rcases hex with ⟨colons, v, rfl, rfl | rfl, rfl⟩
    · refine ⟨⟨i + 1, v, g⟩, mem_runs_seq.2 ⟨⟨i + 1, v, g⟩, ?_, ?_⟩, rfl⟩
      · exact mem_runs_only.2 ⟨v, rfl, rfl⟩
      · exact List.mem_append.2 (.inr (List.mem_singleton.2 rfl))
    · refine ⟨⟨i + 2, v, g⟩, mem_runs_seq.2 ⟨⟨i + 1, ':' :: v, g⟩, ?_, ?_⟩, rfl⟩
      · exact mem_runs_only.2 ⟨':' :: v, rfl, rfl⟩
      · exact List.mem_append.2 (.inl (mem_runs_only.2 ⟨v, rfl, rfl⟩))

/-! ## The five patterns -/

/-- The match of `T[]`. -/
def listTypeMatch (w : List Char) : Match := ⟨0, w.length + 2, [(1, 0, w.length)]⟩

/-- The match of a word with colons after it. -/
def keyMatch (w b colons : List Char) : Match :=
  ⟨0, w.length + b.length + colons.length,
    [(2, w.length + b.length, w.length + b.length + colons.length), (1, 0, w.length)]⟩

/-- The match of `name :: T`. -/
def typedFieldMatch (n b b' w : List Char) : Match :=
  ⟨0, n.length + b.length + 2 + b'.length + w.length,
    [(2, n.length + b.length + 2 + b'.length, n.length + b.length + 2 + b'.length + w.length),
      (1, 0, n.length)]⟩

/-- The match of `:: { … }`. -/
def typedObjectMatch (b body : List Char) : Match :=
  ⟨0, 2 + b.length + 1 + body.length + 1,
    [(1, 2 + b.length + 1, 2 + b.length + 1 + body.length)]⟩

/-- The match of `:: T`. -/
def namedTypeMatch (b b' w : List Char) : Match :=
  ⟨0, b.length + 2 + b'.length + w.length,
    [(1, b.length + 2 + b'.length, b.length + 2 + b'.length + w.length)]⟩

theorem listType_matches (h : listType.matchHere? text 0 = some m) :
    ∃ w v, text = w ++ ("[]".toList ++ v) ∧ IsWord w ∧ m = listTypeMatch w := by
  obtain ⟨t, ht, rfl⟩ := exists_run_of_matchHere? h
  obtain ⟨_, h1, h2⟩ := mem_runs_seq.1 ht
  obtain ⟨w, _, rfl, hw, rfl⟩ := mem_runs_group_word.1 h1
  obtain ⟨v, rfl, rfl⟩ := mem_runs_literal.1 h2
  exact ⟨w, v, rfl, hw, by simp [listTypeMatch]⟩

theorem keyAndColons_matches (h : keyAndColons.matchHere? text 0 = some m) :
    ∃ w b colons v, text = w ++ (b ++ (colons ++ v)) ∧ IsWord w ∧ IsGap b ∧
      (colons = [':'] ∨ colons = [':', ':']) ∧ m = keyMatch w b colons := by
  obtain ⟨t, ht, rfl⟩ := exists_run_of_matchHere? h
  obtain ⟨_, h1, ht⟩ := mem_runs_seq.1 ht
  obtain ⟨w, _, rfl, hw, rfl⟩ := mem_runs_group_word.1 h1
  obtain ⟨_, h2, ht⟩ := mem_runs_seq.1 ht
  obtain ⟨b, _, rfl, hb, rfl⟩ := mem_runs_blanks.1 h2
  obtain ⟨colons, v, rfl, hcolons, rfl⟩ := mem_runs_colons.1 ht
  exact ⟨w, b, colons, v, rfl, hw, hb, hcolons, by simp [keyMatch]⟩

theorem typedField_matches (h : typedField.matchHere? text 0 = some m) :
    ∃ n b b' w v, text = n ++ (b ++ ("::".toList ++ (b' ++ (w ++ v)))) ∧ IsWord n ∧ IsGap b ∧
      IsGap b' ∧ IsWord w ∧ m = typedFieldMatch n b b' w := by
  obtain ⟨t, ht, rfl⟩ := exists_run_of_matchHere? h
  obtain ⟨_, h1, ht⟩ := mem_runs_seq.1 ht
  obtain ⟨n, _, rfl, hn, rfl⟩ := mem_runs_group_word.1 h1
  obtain ⟨_, h2, ht⟩ := mem_runs_seq.1 ht
  obtain ⟨b, _, rfl, hb, rfl⟩ := mem_runs_blanks.1 h2
  obtain ⟨_, h3, ht⟩ := mem_runs_seq.1 ht
  obtain ⟨_, rfl, rfl⟩ := mem_runs_literal.1 h3
  obtain ⟨_, h4, ht⟩ := mem_runs_seq.1 ht
  obtain ⟨b', _, rfl, hb', rfl⟩ := mem_runs_blanks.1 h4
  obtain ⟨w, v, rfl, hw, rfl⟩ := mem_runs_group_word.1 ht
  exact ⟨n, b, b', w, v, rfl, hn, hb, hb', hw, by simp [typedFieldMatch]⟩

theorem typedObject_matches (h : typedObject.matchHere? text 0 = some m) :
    ∃ b body v, text = "::".toList ++ (b ++ ('{' :: (body ++ '}' :: v))) ∧ IsGap b ∧
      (∀ c ∈ body, c ≠ '\n') ∧ m = typedObjectMatch b body := by
  obtain ⟨t, ht, rfl⟩ := exists_run_of_matchHere? h
  obtain ⟨_, h1, ht⟩ := mem_runs_seq.1 ht
  obtain ⟨_, rfl, rfl⟩ := mem_runs_literal.1 h1
  obtain ⟨_, h2, ht⟩ := mem_runs_seq.1 ht
  obtain ⟨b, _, rfl, hb, rfl⟩ := mem_runs_blanks.1 h2
  obtain ⟨_, h3, ht⟩ := mem_runs_seq.1 ht
  obtain ⟨_, rfl, rfl⟩ := mem_runs_only.1 h3
  obtain ⟨_, h4, ht⟩ := mem_runs_seq.1 ht
  obtain ⟨_, h5, rfl⟩ := mem_runs_group.1 h4
  obtain ⟨body, _, rfl, hbody, rfl⟩ := mem_runs_many.1 h5
  obtain ⟨v, rfl, rfl⟩ := mem_runs_only.1 ht
  exact ⟨b, body, v, rfl, hb, by simpa using hbody, by simp [typedObjectMatch]⟩

theorem namedType_matches (h : namedType.matchHere? text 0 = some m) :
    ∃ b b' w v, text = b ++ ("::".toList ++ (b' ++ (w ++ v))) ∧ IsGap b ∧ IsGap b' ∧ IsWord w ∧
      m = namedTypeMatch b b' w := by
  obtain ⟨t, ht, rfl⟩ := exists_run_of_matchHere? h
  obtain ⟨_, h1, ht⟩ := mem_runs_seq.1 ht
  obtain ⟨b, _, rfl, hb, rfl⟩ := mem_runs_blanks.1 h1
  obtain ⟨_, h2, ht⟩ := mem_runs_seq.1 ht
  obtain ⟨_, rfl, rfl⟩ := mem_runs_literal.1 h2
  obtain ⟨_, h3, ht⟩ := mem_runs_seq.1 ht
  obtain ⟨b', _, rfl, hb', rfl⟩ := mem_runs_blanks.1 h3
  obtain ⟨w, v, rfl, hw, rfl⟩ := mem_runs_group_word.1 ht
  exact ⟨b, b', w, v, rfl, hb, hb', hw, by simp [namedTypeMatch]⟩

/-! ## The five replacements -/

/-- What stands for `T[]`. -/
def listTypeText : Replacement := fun captures =>
  "[ :: ".toList ++ captures.text 1 ++ " ]".toList

/-- What stands for a word with colons after it. -/
def keyText : Replacement := fun captures =>
  if captures.text 2 = [':', ':'] then captures.text 0 else '"' :: captures.text 1 ++ ['"', ':']

/-- What stands for `name :: T`. -/
def typedFieldText : Replacement := fun captures =>
  '"' :: captures.text 1 ++ "\": ".toList ++ referenceTo ('"' :: captures.text 2 ++ ['"'])

/-- What stands for `:: { … }`. -/
def typedObjectText : Replacement := fun captures =>
  referenceTo ('{' :: captures.text 1 ++ ['}'])

/-- What stands for `:: T`. -/
def namedTypeText : Replacement := fun captures =>
  referenceTo ('"' :: captures.text 1 ++ ['"'])

/-- The text of a reference, character by character. -/
theorem referenceTo_eq (target : List Char) :
    referenceTo target =
      ['{', '"', '$', 'r', 'e', 'f', '"', ':', ' '] ++ (target ++ ['}']) := rfl

theorem expandListTypes_eq (text : List Char) :
    expandListTypes text = rewrite listType listTypeText false text :=
  substitute_eq_rewrite listType listTypeText text

theorem quoteKeys_eq (text : List Char) :
    quoteKeys text = rewrite keyAndColons keyText false text :=
  substitute_eq_rewrite keyAndColons keyText text

theorem expandTypedFields_eq (text : List Char) :
    expandTypedFields text = rewrite typedField typedFieldText false text :=
  substitute_eq_rewrite typedField typedFieldText text

theorem expandTypedObjects_eq (text : List Char) :
    expandTypedObjects text = rewrite typedObject typedObjectText false text :=
  substitute_eq_rewrite typedObject typedObjectText text

theorem expandNamedTypes_eq (text : List Char) :
    expandNamedTypes text = rewrite namedType namedTypeText false text :=
  substitute_eq_rewrite namedType namedTypeText text

/-- The text of a group is the part of the text that lies where the group does. -/
theorem captures_text (before part after : List Char) {m : Match} {index start stop : Nat}
    (ht : text = before ++ (part ++ after)) (hindex : index ≠ 0)
    (hm : m.groups.lookup index = some (start, stop)) (hstart : start = before.length)
    (hstop : stop = before.length + part.length) : (m.captures text).text index = part := by
  simp only [Captures.text, Match.captures, hindex, if_false, hm, Option.map_some,
    Option.getD_some, hstart, hstop, ht]
  exact slice_middle before part after

variable (w n b b' v : List Char)

theorem listTypeText_captures :
    listTypeText ((listTypeMatch w).captures (w ++ ("[]".toList ++ v))) =
      "[ :: ".toList ++ w ++ " ]".toList := by
  have hword : ((listTypeMatch w).captures (w ++ ("[]".toList ++ v))).text 1 = w :=
    captures_text [] w _ rfl (by decide) rfl rfl (by simp)
  unfold listTypeText
  rw [hword]

theorem keyMatch_captures_word (colons : List Char) :
    ((keyMatch w b colons).captures (w ++ (b ++ (colons ++ v)))).text 1 = w :=
  captures_text [] w _ rfl (by decide) rfl rfl (by simp)

theorem keyMatch_captures_colons (colons : List Char) :
    ((keyMatch w b colons).captures (w ++ (b ++ (colons ++ v)))).text 2 = colons :=
  captures_text (w ++ b) colons v (by simp) (by decide) rfl (by simp) (by simp)

/-- A key before one colon is put in quotes. -/
theorem keyText_captures_one :
    keyText ((keyMatch w b [':']).captures (w ++ (b ++ ([':'] ++ v)))) = '"' :: w ++ ['"', ':'] := by
  rw [keyText, keyMatch_captures_colons, keyMatch_captures_word, if_neg (by decide)]

/-- A word before two colons stays as it is. -/
theorem keyText_captures_two :
    keyText ((keyMatch w b [':', ':']).captures (w ++ (b ++ ([':', ':'] ++ v)))) =
      w ++ (b ++ [':', ':']) := by
  have hwhole : w ++ (b ++ ([':', ':'] ++ v)) = [] ++ ((w ++ (b ++ [':', ':'])) ++ v) := by simp
  rw [keyText, keyMatch_captures_colons, if_pos rfl, hwhole]
  have := slice_middle [] (w ++ (b ++ [':', ':'])) v
  simpa [Captures.text, Match.captures, keyMatch, Nat.add_assoc] using this

theorem typedFieldText_captures :
    typedFieldText ((typedFieldMatch n b b' w).captures
        (n ++ (b ++ ("::".toList ++ (b' ++ (w ++ v)))))) =
      '"' :: n ++ "\": ".toList ++ referenceTo ('"' :: w ++ ['"']) := by
  have hname : ((typedFieldMatch n b b' w).captures
      (n ++ (b ++ ("::".toList ++ (b' ++ (w ++ v)))))).text 1 = n :=
    captures_text [] n _ rfl (by decide) rfl rfl (by simp)
  have htype : ((typedFieldMatch n b b' w).captures
      (n ++ (b ++ ("::".toList ++ (b' ++ (w ++ v)))))).text 2 = w :=
    captures_text (n ++ (b ++ ("::".toList ++ b'))) w v (by simp) (by decide) rfl (by simp; omega)
      (by simp; omega)
  rw [typedFieldText, hname, htype]

theorem typedObjectText_captures (body : List Char) :
    typedObjectText ((typedObjectMatch b body).captures
        ("::".toList ++ (b ++ ('{' :: (body ++ '}' :: v))))) =
      referenceTo ('{' :: body ++ ['}']) := by
  have hbody : ((typedObjectMatch b body).captures
      ("::".toList ++ (b ++ ('{' :: (body ++ '}' :: v))))).text 1 = body :=
    captures_text ("::".toList ++ (b ++ ['{'])) body ('}' :: v) (by simp) (by decide) rfl
      (by simp; omega) (by simp; omega)
  rw [typedObjectText, hbody]

theorem namedTypeText_captures :
    namedTypeText ((namedTypeMatch b b' w).captures (b ++ ("::".toList ++ (b' ++ (w ++ v))))) =
      referenceTo ('"' :: w ++ ['"']) := by
  have htype : ((namedTypeMatch b b' w).captures
      (b ++ ("::".toList ++ (b' ++ (w ++ v))))).text 1 = w :=
    captures_text (b ++ ("::".toList ++ b')) w v (by simp) (by decide) rfl (by simp; omega)
      (by simp; omega)
  rw [namedTypeText, htype]

end ApiCatalog.Response
