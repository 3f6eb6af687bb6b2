import ApiCatalog.Annotation.ParameterNote
import ApiCatalog.Proofs.Text.Words

/-!
# The grammar of notes on parameters

The content of a note is the keyword of a location, a name and a value, parted by blanks. A
`Spacing` is a choice of these blanks, and `Spacing.text` the content that is written with it.
Reading a tag gives a note exactly if its content is a text of that note, which the content
determines, and every other content is refused, for having fewer than three words or for a first
word that is no keyword (`ofTag_grammar`).
-/

namespace ApiCatalog.ParameterNote

open ApiCatalog.Text

/-! ## Texts of notes -/

/-- A note that can be written: its name is one word, and its value begins and ends with characters
that are no blanks. -/
structure IsWritable (note : ParameterNote) : Prop where
  name_ne_nil : note.name.toList ≠ []
  name_solid : ∀ c ∈ note.name.toList, isBlank c = false
  value_bounded : Bounded note.value.toList

/-- The blanks around the three parts of a note. -/
@[ext]
structure Spacing where
  before : List Char
  afterLocation : List Char
  afterName : List Char
  after : List Char
  before_blank : ∀ c ∈ before, isBlank c = true
  afterLocation_blank : ∀ c ∈ afterLocation, isBlank c = true
  afterLocation_ne_nil : afterLocation ≠ []
  afterName_blank : ∀ c ∈ afterName, isBlank c = true
  afterName_ne_nil : afterName ≠ []
  after_blank : ∀ c ∈ after, isBlank c = true

/-- The text of a note between the blanks at its ends. -/
def Spacing.core (s : Spacing) (note : ParameterNote) : List Char :=
  note.location.keyword.toList ++ (s.afterLocation ++ (note.name.toList ++
    (s.afterName ++ note.value.toList)))

/-- The text of a note. -/
def Spacing.text (s : Spacing) (note : ParameterNote) : List Char :=
  s.before ++ s.core note ++ s.after

/-- Why a content is refused. -/
inductive Refused (content : List Char) : TagProblem → Prop where
  | tooFew (few : (words content).length < 3) :
      Refused content (.tooFewParts (String.ofList (trim content)))
  | noLocation {first second third : List Char} {rest : List (List Char)}
      (parts : words content = first :: second :: third :: rest)
      (unknown : ∀ location : Location, first ≠ location.keyword.toList) :
      Refused content (.unknownLocation (String.ofList first))

/-! ## Heads of texts -/

variable {u gap rest : List Char}

theorem head?_append_of_ne_nil (h : u ≠ []) : (u ++ rest).head? = u.head? := by
  obtain ⟨c, u, rfl⟩ := List.exists_cons_of_ne_nil h
  rfl

theorem head?_blank (hgap : ∀ c ∈ gap, isBlank c = true) (hne : gap ≠ []) :
    ∀ c ∈ (gap ++ rest).head?, isBlank c = true := by
  rw [head?_append_of_ne_nil hne]
  exact fun c hc => hgap c (List.mem_of_mem_head? hc)

theorem head?_solid (hu : ∀ c ∈ u, isBlank c = false) (hne : u ≠ []) :
    ∀ c ∈ (u ++ rest).head?, isBlank c = false := by
  rw [head?_append_of_ne_nil hne]
  exact fun c hc => hu c (List.mem_of_mem_head? hc)

theorem solid_of_all {cs : List Char} (h : (cs.all fun c => !isBlank c) = true) :
    ∀ c ∈ cs, isBlank c = false := by
  simpa using h

theorem solid_keyword (location : Location) :
    ∀ c ∈ location.keyword.toList, isBlank c = false := by
  cases location <;> exact solid_of_all (by decide)

theorem keyword_ne_nil (location : Location) : location.keyword.toList ≠ [] := by
  cases location <;> decide

/-! ## Parts -/

/-- A text is cut after a word and the blanks that follow it. -/
theorem cutWord_append {word : List Char} (hword : ∀ c ∈ word, isBlank c = false)
    (hgap : ∀ c ∈ gap, isBlank c = true) (hne : gap ≠ [])
    (hrest : ∀ c ∈ rest.head?, isBlank c = false) :
    cutWord (word ++ (gap ++ rest)) = (word, rest) := by
  have hsolid : ∀ c ∈ word, (!isBlank c) = true := by simpa using hword
  have hstop : ∀ c ∈ (gap ++ rest).head?, (!isBlank c) = false := by
    simpa using head?_blank hgap hne
  rw [cutWord, takeWhile_run hsolid hstop, dropWhile_run hsolid hstop, dropWhile_run hgap hrest]

/-- A text that begins with a word: the word, and blanks after it if there is more. -/
structure Cuts (cs word gap rest : List Char) : Prop where
  text : cs = word ++ (gap ++ rest)
  word_solid : ∀ c ∈ word, isBlank c = false
  gap_blank : ∀ c ∈ gap, isBlank c = true
  gap_ne_nil : rest ≠ [] → gap ≠ []
  rest_first : ∀ c ∈ rest.head?, isBlank c = false

theorem exists_cuts (cs : List Char) : ∃ gap, Cuts cs (cutWord cs).1 gap (cutWord cs).2 := by
  obtain ⟨gap, hgap, hblank⟩ := exists_trimStart (cs.dropWhile (!isBlank ·))
  refine ⟨gap, ?_, ?_, hblank, ?_, fun c hc => of_mem_head?_dropWhile hc⟩
  · rw [cutWord, ← trimStart, ← hgap, List.takeWhile_append_dropWhile]
  · intro c hc
    simpa using List.mem_takeWhile_imp hc
  · -- Without blanks the rest would go on where the word ends.
    rintro hrest rfl
    rw [List.nil_append] at hgap
    obtain ⟨c, rest, hcs⟩ := List.exists_cons_of_ne_nil hrest
    have hafter : c ∈ (trimStart (cs.dropWhile (!isBlank ·))).head? := congrArg List.head? hcs
    have hsolid : isBlank c = false := of_mem_head?_dropWhile hafter
    rw [← hgap] at hafter
    have hblank : (!isBlank c) = false := of_mem_head?_dropWhile hafter
    simp [hsolid] at hblank

namespace Cuts

variable {cs word : List Char}

theorem word_ne_nil (h : Cuts cs word gap rest) (hfirst : ∀ c ∈ cs.head?, isBlank c = false)
    (hne : cs ≠ []) : word ≠ [] := by
  rintro rfl
  have htext : cs = gap ++ rest := h.text
  by_cases hgap : gap = []
  · rw [hgap, List.nil_append] at htext
    exact h.gap_ne_nil (htext ▸ hne) hgap
  · obtain ⟨b, gap, rfl⟩ := List.exists_cons_of_ne_nil hgap
    have hb : isBlank b = false := hfirst b (by rw [htext]; rfl)
    rw [h.gap_blank b (by simp)] at hb
    exact absurd hb (by decide)

theorem words_eq (h : Cuts cs word gap rest) (hword : word ≠ []) :
    words cs = word :: words rest := by
  have hnext : ∀ c ∈ (gap ++ rest).head?, isBlank c = true := by
    by_cases hrest : rest = []
    · rw [hrest, List.append_nil]
      exact fun c hc => h.gap_blank c (List.mem_of_mem_head? hc)
    · exact head?_blank h.gap_blank (h.gap_ne_nil hrest)
  rw [h.text, words_word_append hword h.word_solid hnext, words_append_of_blank h.gap_blank]

end Cuts

theorem words_ne_nil {cs : List Char} (hfirst : ∀ c ∈ cs.head?, isBlank c = false)
    (hne : cs ≠ []) : words cs ≠ [] := by
  obtain ⟨c, cs, rfl⟩ := List.exists_cons_of_ne_nil hne
  intro hnone
  have hc := words_eq_nil_iff.1 hnone c (by simp)
  rw [hfirst c rfl] at hc
  exact absurd hc (by decide)

section Parts

variable {cs first second third : List Char} (hfirst : ∀ c ∈ cs.head?, isBlank c = false)

include hfirst

/-- A text has no three parts if it has fewer than three words. -/
theorem length_words_of_parts?_none (h : parts? cs = none) : (words cs).length < 3 := by
  obtain ⟨gap, hcut⟩ := exists_cuts cs
  obtain ⟨gap', hcut'⟩ := exists_cuts (cutWord cs).2
  have hthird : (cutWord (cutWord cs).2).2 = [] := by
    by_contra hthird
    simp [parts?, hthird] at h
  by_cases hcs : cs = []
  · simp [hcs]
  rw [hcut.words_eq (hcut.word_ne_nil hfirst hcs)]
  by_cases hsecond : (cutWord cs).2 = []
  · simp [hsecond]
  · rw [hcut'.words_eq (hcut'.word_ne_nil hcut.rest_first hsecond), hthird]
    simp

/-- The three parts of a text, and what stands between them. -/
theorem exists_cuts_of_parts? (h : parts? cs = some (first, second, third)) :
    ∃ gap gap', Cuts cs first gap (second ++ (gap' ++ third)) ∧
      Cuts (second ++ (gap' ++ third)) second gap' third ∧ third ≠ [] ∧ second ≠ [] ∧
      words cs = first :: second :: words third := by
  obtain ⟨gap, hcut⟩ := exists_cuts cs
  obtain ⟨gap', hcut'⟩ := exists_cuts (cutWord cs).2
  have hparts : (cutWord (cutWord cs).2).2 ≠ [] ∧ (cutWord cs).1 = first ∧
      (cutWord (cutWord cs).2).1 = second ∧ (cutWord (cutWord cs).2).2 = third := by
    simp only [parts?] at h
    split at h
    · exact absurd h (by simp)
    · next hthird =>
      simp only [Option.some.injEq, Prod.mk.injEq] at h
      exact ⟨by simpa using hthird, h⟩
  obtain ⟨hthird, rfl, rfl, rfl⟩ := hparts
  have hrest : (cutWord cs).2 ≠ [] := by
    intro hnil
    rw [hnil] at hthird
    exact hthird rfl
  have hsecond := hcut'.word_ne_nil hcut.rest_first hrest
  have hne : cs ≠ [] := by
    rintro rfl
    exact hrest rfl
  refine ⟨gap, gap', hcut'.text ▸ hcut, hcut'.text ▸ hcut', hthird, hsecond, ?_⟩
  rw [hcut.words_eq (hcut.word_ne_nil hfirst hne), hcut'.words_eq hsecond]

end Parts

/-! ## Reading -/

theorem bounded_append {a b : List Char} (hfirst : ∃ c rest, a = c :: rest ∧ isBlank c = false)
    (hb : Bounded b) : Bounded (a ++ b) := by
  obtain ⟨c, rest, rfl, hc⟩ := hfirst
  obtain ⟨-, rest', d, rfl, hd⟩ := hb
  exact ⟨⟨c, rest ++ (rest' ++ [d]), rfl, hc⟩, c :: rest ++ rest', d, by simp, hd⟩

/-- The end of a bounded text that itself does not begin with a blank. -/
theorem bounded_of_append {a b : List Char} (h : Bounded (a ++ b)) (hne : b ≠ [])
    (hfirst : ∀ c ∈ b.head?, isBlank c = false) : Bounded b := by
  refine ⟨?_, ?_⟩
  · obtain ⟨c, rest, rfl⟩ := List.exists_cons_of_ne_nil hne
    exact ⟨c, rest, rfl, hfirst c rfl⟩
  · obtain ⟨-, rest, d, hlast, hd⟩ := h
    rcases List.eq_nil_or_concat b with rfl | ⟨rest', e, rfl⟩
    · exact absurd rfl hne
    · rw [List.concat_eq_append, ← List.append_assoc] at hlast
      have he : e = d := by simpa using (List.append_inj' hlast rfl).2
      exact ⟨rest', e, List.concat_eq_append, he ▸ hd⟩

namespace Spacing

variable {s s' : Spacing} {note note' : ParameterNote}

theorem bounded_core (s : Spacing) (h : note.IsWritable) : Bounded (s.core note) := by
  have hkeyword : ∃ c rest, note.location.keyword.toList = c :: rest ∧ isBlank c = false := by
    obtain ⟨c, rest, hcs⟩ := List.exists_cons_of_ne_nil (keyword_ne_nil note.location)
    exact ⟨c, rest, hcs, solid_keyword note.location c (by rw [hcs]; simp)⟩
  rw [core, ← List.append_assoc, ← List.append_assoc, ← List.append_assoc]
  refine bounded_append ?_ h.value_bounded
  obtain ⟨c, rest, hcs, hc⟩ := hkeyword
  exact ⟨c, rest ++ s.afterLocation ++ note.name.toList ++ s.afterName, by rw [hcs]; rfl, hc⟩

theorem trim_text (s : Spacing) (h : note.IsWritable) : trim (s.text note) = s.core note :=
  trim_blanks_bounded s.before_blank (s.bounded_core h) s.after_blank

theorem parts?_core (s : Spacing) (h : note.IsWritable) :
    parts? (s.core note) =
      some (note.location.keyword.toList, note.name.toList, note.value.toList) := by
  have hname := cutWord_append h.name_solid s.afterName_blank s.afterName_ne_nil
    h.value_bounded.first
  rw [core, parts?, cutWord_append (solid_keyword note.location) s.afterLocation_blank
    s.afterLocation_ne_nil (head?_solid h.name_solid h.name_ne_nil)]
  simp [hname, h.value_bounded.ne_nil]

/-- The text of a note determines the note and the blanks around its parts. -/
theorem text_inj (h : note.IsWritable) (h' : note'.IsWritable)
    (htext : s.text note = s'.text note') : note = note' ∧ s = s' := by
  have hcore : s.core note = s'.core note' := by
    rw [← s.trim_text h, htext, s'.trim_text h']
  have hparts := s.parts?_core h
  rw [hcore, s'.parts?_core h'] at hparts
  simp only [Option.some.injEq, Prod.mk.injEq, String.toList_inj] at hparts
  obtain ⟨hkeyword, hname, hvalue⟩ := hparts
  have hlocation : note.location = note'.location := by
    have hread := Location.ofKeyword?_keyword note'.location
    rw [hkeyword, Location.ofKeyword?_keyword] at hread
    exact Option.some.inj hread
  have hnote : note = note' := by
    cases note
    cases note'
    simp_all
  subst hnote
  refine ⟨rfl, ?_⟩
  rw [text, text, List.append_assoc, List.append_assoc] at htext
  obtain ⟨hbefore, hends⟩ := run_append_inj s.before_blank
    (by rw [head?_append_of_ne_nil (s.bounded_core h).ne_nil]; exact (s.bounded_core h).first)
    s'.before_blank
    (by rw [head?_append_of_ne_nil (s'.bounded_core h).ne_nil]; exact (s'.bounded_core h).first)
    htext
  rw [hcore] at hends
  have hmiddle := List.append_cancel_left hcore
  obtain ⟨hafterLocation, hrest⟩ := run_append_inj s.afterLocation_blank
    (head?_solid h.name_solid h.name_ne_nil) s'.afterLocation_blank
    (head?_solid h.name_solid h.name_ne_nil) hmiddle
  exact Spacing.ext hbefore hafterLocation
    (List.append_cancel_right (List.append_cancel_left hrest)) (List.append_cancel_left hends)

end Spacing

variable {tag : Tag}

/-- A tag whose content is the text of a note is read as that note. -/
theorem ofTag_text {note : ParameterNote} (h : note.IsWritable) {s : Spacing}
    (hcontent : tag.content.toList = s.text note) : ofTag tag = .ok note := by
  rw [ofTag, hcontent, s.trim_text h, s.parts?_core h]
  simp

/-- What is left of a content that is not blank has no blank at its start. -/
theorem first_trim (cs : List Char) : ∀ c ∈ (trim cs).head?, isBlank c = false := by
  by_cases h : trim cs = []
  · simp [h]
  · exact (bounded_trim h).first

/-- A content of three parts, of which the first is a keyword, is the text of a note. -/
theorem exists_text_of_parts? {location : Location} {name value : List Char}
    (h : parts? (trim tag.content.toList) = some (location.keyword.toList, name, value)) :
    IsWritable ⟨location, String.ofList name, String.ofList value⟩ ∧
      ∃ s : Spacing, tag.content.toList =
        s.text ⟨location, String.ofList name, String.ofList value⟩ := by
  obtain ⟨gap, gap', hcut, hcut', hvalue, hname, -⟩ := exists_cuts_of_parts? (first_trim _) h
  obtain ⟨before, after, hcontent, hbefore, hafter⟩ := exists_trim tag.content.toList
  have hbounded : Bounded (trim tag.content.toList) := bounded_trim <| by
    rw [hcut.text]
    simp [hvalue]
  have hparts := hcut.text
  rw [hparts, ← List.append_assoc, ← List.append_assoc, ← List.append_assoc] at hbounded
  refine ⟨⟨by simpa using hname, by simpa using hcut'.word_solid, ?_⟩,
    ⟨before, gap, gap', after, hbefore, hcut.gap_blank, hcut.gap_ne_nil (by simp [hname]),
      hcut'.gap_blank, hcut'.gap_ne_nil hvalue, hafter⟩, ?_⟩
  · rw [String.toList_ofList]
    exact bounded_of_append hbounded hvalue hcut'.rest_first
  · simp only [Spacing.text, Spacing.core, String.toList_ofList]
    rw [← hparts]
    exact hcontent

/-! ## Refusals -/

theorem Refused.unique {content : List Char} {problem problem' : TagProblem}
    (h : Refused content problem) (h' : Refused content problem') : problem = problem' := by
  cases h with
  | tooFew few =>
    cases h' with
    | tooFew => rfl
    | noLocation parts =>
      rw [parts] at few
      exact absurd few (by simp)
  | noLocation parts =>
    cases h' with
    | tooFew few =>
      rw [parts] at few
      exact absurd few (by simp)
    | noLocation parts' =>
      rw [parts] at parts'
      rw [(List.cons.inj parts').1]

/-- A content of three parts has them as its first words, the last part being more words. -/
theorem exists_words_of_parts? {content first second third : List Char}
    (h : parts? (trim content) = some (first, second, third)) :
    ∃ word rest, words content = first :: second :: word :: rest := by
  obtain ⟨_, _, _, hcut', hthird, -, hwords⟩ := exists_cuts_of_parts? (first_trim _) h
  obtain ⟨word, rest, hrest⟩ := List.exists_cons_of_ne_nil (words_ne_nil hcut'.rest_first hthird)
  exact ⟨word, rest, by rw [← words_trim, hwords, hrest]⟩

/-- The text of a note is not refused. -/
theorem not_refused_text {note : ParameterNote} (h : note.IsWritable) (s : Spacing)
    (problem : TagProblem) : ¬ Refused (s.text note) problem := by
  have hparts := s.parts?_core h
  rw [← s.trim_text h] at hparts
  obtain ⟨word, rest, hwords⟩ := exists_words_of_parts? hparts
  rintro (few | ⟨parts, unknown⟩)
  · rw [hwords] at few
    exact absurd few (by simp)
  · rw [hwords] at parts
    exact unknown note.location (List.cons.inj parts).1.symm

/-- A tag is read as a note that its content is a text of, or its content is refused. -/
theorem ofTag_cases (tag : Tag) :
    (∃ note, ofTag tag = .ok note ∧ note.IsWritable ∧
        ∃ s : Spacing, tag.content.toList = s.text note) ∨
      ∃ problem, ofTag tag = .error (.malformedTag tag.name problem) ∧
        Refused tag.content.toList problem := by
  cases hparts : parts? (trim tag.content.toList) with
  | none =>
    have hfew := length_words_of_parts?_none (first_trim _) hparts
    rw [words_trim] at hfew
    exact .inr ⟨_, by simp only [ofTag, hparts], .tooFew hfew⟩
  | some parts =>
    obtain ⟨first, name, value⟩ := parts
    cases hlocation : Location.ofKeyword? (String.ofList first) with
    | none =>
      obtain ⟨word, rest, hwords⟩ := exists_words_of_parts? hparts
      refine .inr ⟨_, by simp only [ofTag, hparts, hlocation], .noLocation hwords ?_⟩
      rintro location rfl
      simp at hlocation
    | some location =>
      obtain rfl : first = location.keyword.toList := by
        rw [← Location.ofKeyword?_eq_some_iff.1 hlocation, String.toList_ofList]
      obtain ⟨hwritable, htext⟩ := exists_text_of_parts? hparts
      exact .inl ⟨_, by simp only [ofTag, hparts, hlocation], hwritable, htext⟩

/-- A tag is read as a note exactly if its content is a text of the note, and the content determines
the note and the blanks around its parts. Every other content is refused: if it has fewer than three
words for that, and else for its first word, which is no keyword. -/
theorem ofTag_grammar (tag : Tag) :
    (∀ note, ofTag tag = .ok note ↔
      note.IsWritable ∧ ∃ s : Spacing, tag.content.toList = s.text note) ∧
    (∀ (note note' : ParameterNote) (s s' : Spacing), note.IsWritable → note'.IsWritable →
      tag.content.toList = s.text note → tag.content.toList = s'.text note' →
        note = note' ∧ s = s') ∧
    ∀ fault, ofTag tag = .error fault ↔
      ∃ problem, Refused tag.content.toList problem ∧ fault = .malformedTag tag.name problem := by
  refine ⟨fun note => ⟨fun hread => ?_, fun ⟨hwritable, s, htext⟩ => ofTag_text hwritable htext⟩,
    fun note note' s s' h h' htext htext' => Spacing.text_inj h h' (htext.symm.trans htext'),
    fun fault => ⟨fun hread => ?_, ?_⟩⟩
  · rcases ofTag_cases tag with ⟨note', hread', htext⟩ | ⟨problem, hread', -⟩
    · rw [hread] at hread'
      obtain rfl := Except.ok.inj hread'
      exact htext
    · rw [hread] at hread'
      exact absurd hread' (by simp)
  · rcases ofTag_cases tag with ⟨note', hread', -⟩ | ⟨problem, hread', hrefused⟩
    · rw [hread] at hread'
      exact absurd hread' (by simp)
    · rw [hread] at hread'
      exact ⟨problem, hrefused, Except.error.inj hread'⟩
  · rintro ⟨problem, hrefused, rfl⟩
    rcases ofTag_cases tag with ⟨note', -, hwritable, s, htext⟩ | ⟨problem', hread, hrefused'⟩
    · rw [htext] at hrefused
      exact absurd hrefused (not_refused_text hwritable s problem)
    · rw [hread, hrefused.unique hrefused']

/-- A note whose value has two lines. -/
def pageNote : ParameterNote := ⟨.query, "page", "path 1\n  of many"⟩

/-- Blanks of several kinds around the parts of a note. -/
def wideSpacing : Spacing where
  before := "\n ".toList
  afterLocation := "\t".toList
  afterName := " \r\n ".toList
  after := " ".toList
  before_blank := List.all_eq_true.1 (by decide)
  afterLocation_blank := List.all_eq_true.1 (by decide)
  afterLocation_ne_nil := by decide
  afterName_blank := List.all_eq_true.1 (by decide)
  afterName_ne_nil := by decide
  after_blank := List.all_eq_true.1 (by decide)

theorem isWritable_pageNote : pageNote.IsWritable where
  name_ne_nil := by decide
  name_solid := solid_of_all (by decide)
  value_bounded := ⟨⟨'p', "ath 1\n  of many".toList, by decide, by decide⟩,
    "path 1\n  of man".toList, 'y', by decide, by decide⟩

/-- A tag with the note. -/
def pageTag : Tag := ⟨"default", "\n query\tpage \r\n path 1\n  of many "⟩

theorem ofTag_grammar_pageNote :
    pageNote.IsWritable ∧ pageTag.content.toList = wideSpacing.text pageNote ∧
      ofTag pageTag = .ok pageNote ∧
      ∀ (note : ParameterNote) (s : Spacing), note.IsWritable →
        pageTag.content.toList = s.text note → pageNote = note ∧ wideSpacing = s := by
  have htext : pageTag.content.toList = wideSpacing.text pageNote := by decide
  obtain ⟨hread, hunique, -⟩ := ofTag_grammar pageTag
  exact ⟨isWritable_pageNote, htext, (hread pageNote).2 ⟨isWritable_pageNote, wideSpacing, htext⟩,
    fun note s hnote => hunique pageNote note wideSpacing s isWritable_pageNote hnote htext⟩

end ApiCatalog.ParameterNote
