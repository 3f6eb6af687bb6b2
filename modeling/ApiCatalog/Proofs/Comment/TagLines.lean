import ApiCatalog.Comment.Reader
import ApiCatalog.Proofs.Text.Trimming

/-!
# Lines that start a tag

A line starts a tag if it names one and the name is followed by the end of the line, a blank or a
character that starts content (`StartsTag`). The lines of a comment are cut before each such line
and nowhere else: what stands before the first is the text, and each tag is made of the line that
starts it and of the lines up to the next one (`parse_tagBlocks`). A line with another character
right after the name starts no tag, although it names one, and belongs to what stands before it
(`parse_gluedColon`).
-/

namespace ApiCatalog

open ApiCatalog.Text

namespace Comment

/-- The lines of a raw comment without their gutters. -/
def bareLines (raw : String) : List (List Char) := (Text.lines raw.toList).map withoutGutter

/-! ## Lines that name a tag -/

/-- A line that names a tag: blanks at its ends apart it is `@`, a name that is as long as it can
be, and a rest. -/
structure NamesTag (line name rest : List Char) : Prop where
  text : trim line = '@' :: (name ++ rest)
  name_ne : name ≠ []
  name_chars : ∀ c ∈ name, isTagNameChar c = true
  name_ends : ∀ c ∈ rest.head?, isTagNameChar c = false

/-- Whether a character can stand right after the name in a line that starts a tag. -/
def canFollowName (c : Char) : Bool := isBlank c || startsContent c

/-- A line that starts a tag: it names one, and after the name it ends or goes on with a blank or
with a character that starts content. -/
structure StartsTag (line name rest : List Char) : Prop extends NamesTag line name rest where
  follows : ∀ c ∈ rest.head?, canFollowName c = true

/-- A line that starts some tag. -/
def IsTagLine (line : List Char) : Prop := ∃ name rest, StartsTag line name rest

variable {line name rest after content : List Char}

/-- The name that a line names is what the reader cuts off after the `@`. -/
theorem namesTag_of_takeWhile (htext : trim line = '@' :: after)
    (hne : after.takeWhile isTagNameChar ≠ []) :
    NamesTag line (after.takeWhile isTagNameChar) (after.dropWhile isTagNameChar) where
  text := by rw [htext, List.takeWhile_append_dropWhile]
  name_ne := hne
  name_chars := List.all_eq_true.1 List.all_takeWhile
  name_ends c hc := by
    have hends := List.head?_dropWhile_not isTagNameChar after
    rw [Option.mem_def.1 hc] at hends
    exact hends

theorem exists_namesTag (h : tagLine? (trim line) ≠ none) :
    ∃ name rest, NamesTag line name rest := by
  generalize htext : trim line = text at h
  match text with
  | [] => exact absurd rfl h
  | c :: after =>
    by_cases hat : c = '@'
    · subst hat
      refine ⟨_, _, namesTag_of_takeWhile htext fun hname => h ?_⟩
      simp [tagLine?, hname]
    · exact absurd (by simp [tagLine?, hat]) h

/-- The reader takes a line that names a tag to start it if the right character follows the name. -/
theorem NamesTag.tagLine?_eq (h : NamesTag line name rest) :
    tagLine? (trim line) =
      if rest.head?.all canFollowName then some (name, trimStart rest) else none := by
  obtain ⟨htext, hne, hchars, hends⟩ := h
  have htake : (name ++ rest).takeWhile isTagNameChar = name := by
    rw [List.takeWhile_append_of_pos hchars]
    cases rest with
    | nil => simp
    | cons c rest => simp [hends c rfl]
  have hdrop : (name ++ rest).dropWhile isTagNameChar = rest := by
    rw [List.dropWhile_append_of_pos hchars]
    cases rest with
    | nil => rfl
    | cons c rest => simp [hends c rfl]
  rw [htext, tagLine?]
  simp only [htake, hdrop, List.isEmpty_iff, hne, if_false]
  cases rest with
  | nil => rfl
  | cons c rest => cases hblank : isBlank c <;> simp [canFollowName, hblank, trimStart]

theorem StartsTag.tagLine?_eq (h : StartsTag line name rest) :
    tagLine? (trim line) = some (name, trimStart rest) := by
  rw [h.toNamesTag.tagLine?_eq, if_pos ((Option.all_eq_true _ _).2 h.follows)]

theorem startsTag_of_tagLine? (h : tagLine? (trim line) = some (name, content)) :
    ∃ rest, StartsTag line name rest ∧ content = trimStart rest := by
  obtain ⟨named, rest, hnames⟩ := exists_namesTag (by rw [h]; simp)
  rw [hnames.tagLine?_eq] at h
  split at h
  · rename_i hfollows
    obtain ⟨rfl, rfl⟩ : named = name ∧ trimStart rest = content := by simpa using h
    exact ⟨rest, ⟨hnames, (Option.all_eq_true _ _).1 hfollows⟩, rfl⟩
  · simp at h

theorem tagLine?_eq_none_iff : tagLine? (trim line) = none ↔ ¬ IsTagLine line := by
  constructor
  · rintro hnone ⟨name, rest, hstarts⟩
    rw [hstarts.tagLine?_eq] at hnone
    exact absurd hnone (by simp)
  · intro hordinary
    cases hline : tagLine? (trim line) with
    | none => rfl
    | some found =>
      obtain ⟨rest, hstarts, -⟩ := startsTag_of_tagLine? hline
      exact absurd ⟨found.1, rest, hstarts⟩ hordinary

instance : DecidablePred IsTagLine := fun line =>
  decidable_of_iff ((tagLine? (trim line)).isSome = true) <| by
    rw [Option.isSome_iff_ne_none, ne_eq, tagLine?_eq_none_iff, Classical.not_not]

/-! ## Tags in the lines of a comment -/

/-- A tag as it stands in a comment: the line that starts it, and further lines, none of which
starts another tag. -/
structure TagBlock where
  first : List Char
  name : List Char
  /-- What follows the name on the first line. -/
  rest : List Char
  further : List (List Char)
  starts : StartsTag first name rest
  ordinary : ∀ line ∈ further, ¬ IsTagLine line

namespace TagBlock

/-- All lines of the tag. -/
def lines (block : TagBlock) : List (List Char) := block.first :: block.further

/-- The tag: its content is the rest of the first line and the further lines, trimmed. -/
def tag (block : TagBlock) : Tag :=
  ⟨String.ofList block.name,
    String.ofList (trim (['\n'].intercalate (block.rest :: block.further)))⟩

/-- The tag as the reader collects it. -/
def opened (block : TagBlock) : OpenTag :=
  ⟨block.name, trimStart block.rest :: block.further⟩

/-- The content of a tag begins with the rest of its first line. -/
theorem rest_isInitial (block : TagBlock) : trim block.rest <+: block.tag.content.toList := by
  rw [tag, String.toList_ofList]
  cases block.further with
  | nil => simp
  | cons line further =>
    rw [List.intercalate_cons_cons, List.append_assoc]
    exact trim_isInitial_append _ _

theorem close_opened (block : TagBlock) : block.opened.close = block.tag := by
  rw [opened, OpenTag.close, tag]
  congr 2
  cases block.further with
  | nil => simp only [List.intercalate_singleton, trim, trimStart_trimStart]
  | cons line further =>
    simp only [List.intercalate_cons_cons, List.append_assoc, trim, trimStart_append_trimStart]

theorem countP_lines (block : TagBlock) : block.lines.countP (IsTagLine ·) = 1 := by
  have hfirst : IsTagLine block.first := ⟨_, _, block.starts⟩
  have hfurther : block.further.countP (IsTagLine ·) = 0 := by
    simpa [List.countP_eq_zero] using block.ordinary
  simp [lines, hfirst, hfurther]

end TagBlock

/-- Lines cut into text, where no tag starts, and tags. -/
structure Divides (lines text : List (List Char)) (blocks : List TagBlock) : Prop where
  lines_eq : lines = text ++ blocks.flatMap TagBlock.lines
  ordinary : ∀ line ∈ text, ¬ IsTagLine line

/-- There are as many tags as lines that start one. -/
theorem Divides.length_blocks {lines text : List (List Char)} {blocks : List TagBlock}
    (h : Divides lines text blocks) : blocks.length = lines.countP (IsTagLine ·) := by
  have htext : text.countP (IsTagLine ·) = 0 := by simpa [List.countP_eq_zero] using h.ordinary
  have hblocks : (blocks.flatMap TagBlock.lines).countP (IsTagLine ·) = blocks.length := by
    simp [List.countP_flatMap, Function.comp_def, TagBlock.countP_lines, List.map_const']
  rw [h.lines_eq, List.countP_append, htext, hblocks, Nat.zero_add]

/-- The reader cuts lines before each one that starts a tag. -/
theorem exists_divides (lines : List (List Char)) :
    ∃ text blocks, Divides lines text blocks ∧
      sections lines = (text, blocks.map TagBlock.opened) := by
  induction lines with
  | nil => exact ⟨[], [], ⟨rfl, by simp⟩, rfl⟩
  | cons line lines ih =>
    obtain ⟨text, blocks, ⟨hlines, hordinary⟩, hsections⟩ := ih
    rw [sections, hsections]
    cases hline : tagLine? (trim line) with
    | none =>
      have hhere := tagLine?_eq_none_iff.1 hline
      exact ⟨line :: text, blocks, ⟨by rw [hlines, List.cons_append], by simpa [hhere]⟩, rfl⟩
    | some found =>
      obtain ⟨rest, hstarts, hcontent⟩ := startsTag_of_tagLine? hline
      -- the text so far is what goes on after this line
      refine ⟨[], ⟨line, found.1, rest, text, hstarts, hordinary⟩ :: blocks, ⟨?_, by simp⟩, ?_⟩
      · rw [hlines]
        rfl
      · simp [TagBlock.opened, ← hcontent]

/-- The lines of a comment are cut before each line that starts a tag and nowhere else. Summary and
body come from the lines before the first of them. Each of them starts one tag, in their order,
with the name it names and a content that begins with the rest of the line, and the lines up to the
next one belong to that tag. -/
theorem parse_tagBlocks (raw : String) :
    ∃ text blocks, Divides (bareLines raw) text blocks ∧
      ((parse raw).summary.toList, (parse raw).body.toList) = summaryAndBody text ∧
      (parse raw).tags = blocks.map TagBlock.tag ∧
      (∀ block ∈ blocks, trim block.rest <+: block.tag.content.toList) ∧
      (parse raw).tags.length = (bareLines raw).countP (IsTagLine ·) := by
  obtain ⟨text, blocks, hdivides, hsections⟩ := exists_divides (bareLines raw)
  have hparse : parse raw = ⟨String.ofList (summaryAndBody text).1,
      String.ofList (summaryAndBody text).2, blocks.map TagBlock.tag⟩ := by
    rw [bareLines] at hsections
    rw [parse, hsections]
    simp only [List.map_map, Function.comp_def, TagBlock.close_opened]
  refine ⟨text, blocks, hdivides, ?_, ?_, fun block _ => block.rest_isInitial, ?_⟩
  · simp [hparse]
  · rw [hparse]
  · rw [hparse, List.length_map, hdivides.length_blocks]

/-- A line with a colon right after the name of a tag. -/
def gluedColon : String := "@deprecated: use /v2"

theorem namesTag_gluedColon :
    NamesTag gluedColon.toList "deprecated".toList ": use /v2".toList where
  text := by decide
  name_ne := by decide
  name_chars := List.all_eq_true.1 (by decide)
  name_ends c hc := by
    obtain rfl : ':' = c := Option.some.inj hc
    decide

/-- A line that names a tag does not start one if a colon follows the name: it becomes part of the
content of the tag before it. -/
theorem parse_gluedColon :
    NamesTag gluedColon.toList "deprecated".toList ": use /v2".toList ∧
      bareLines ("@response int\n" ++ gluedColon) = ["@response int".toList, gluedColon.toList] ∧
      (parse ("@response int\n" ++ gluedColon)).tags =
        [⟨"response", "int\n" ++ gluedColon⟩] :=
  ⟨namesTag_gluedColon, by decide, by decide⟩

end Comment

end ApiCatalog
