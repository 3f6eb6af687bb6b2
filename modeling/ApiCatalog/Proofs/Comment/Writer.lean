import ApiCatalog.Proofs.Comment.Gutters
import ApiCatalog.Proofs.Comment.TagLines
import ApiCatalog.Proofs.Text.Classes
import ApiCatalog.Proofs.Text.Lines

/-!
# Writing documentation comments

`render` writes a comment as line comments: the summary, a blank line, the body, and one block of
lines for each tag. A comment in normal form is read back exactly (`parse_render`). The normal form
excludes only what the lines of a comment cannot say: blanks around a text or at the end of a line,
a mark that would close a block comment, and lines of text that would start a tag.
-/

namespace ApiCatalog

open ApiCatalog.Text

/-- The lines of a text; an empty text has none. -/
def Text.linesOf (text : List Char) : List (List Char) :=
  if text = [] then [] else pieces '\n' text

/-- The lines that a tag is written in: `@`, its name and its content, which may go on over further
lines. -/
def Tag.written (tag : Tag) : List (List Char) :=
  pieces '\n' ('@' :: tag.name.toList ++ ' ' :: tag.content.toList)

namespace Comment

/-- The lines that a comment is written in. -/
def written (comment : Comment) : List (List Char) :=
  comment.summary.toList :: [] :: linesOf comment.body.toList ++ comment.tags.flatMap Tag.written

/-- The gutter before each line. -/
def gutter : List Char := "/// ".toList

/-- The comment as line comments. -/
def render (comment : Comment) : String :=
  String.ofList (['\n'].intercalate (comment.written.map (gutter ++ ·)))

/-! ## Normal form -/

/-- A line with nothing at its end that is cut off: no blank, and no mark that closes a block
comment. -/
structure KeepsEnd (line : List Char) : Prop where
  trimmed : trimEnd line = line
  unclosed : ¬ ['*', '/'] <:+ line

/-- A line that does not start a tag. -/
def IsText (line : List Char) : Prop := tagLine? (trim line) = none

/-- A tag with a name and a trimmed content, whose further lines do not start a tag. -/
structure IsNormalTag (tag : Tag) : Prop where
  name_ne : tag.name ≠ ""
  name_chars : ∀ c ∈ tag.name.toList, isTagNameChar c = true
  content_trimmed : trim tag.content.toList = tag.content.toList
  content_lines : ∀ line ∈ pieces '\n' tag.content.toList, KeepsEnd line
  content_further : ∀ line ∈ (pieces '\n' tag.content.toList).tail, IsText line

/-- A comment with a summary of one line, which may be empty only if the body is, and with trimmed
texts, whose lines do not start a tag. -/
structure IsNormal (comment : Comment) : Prop where
  summary_line : '\n' ∉ comment.summary.toList
  summary_trimmed : trim comment.summary.toList = comment.summary.toList
  body_eq_empty : comment.summary = "" → comment.body = ""
  body_trimmed : trim comment.body.toList = comment.body.toList
  text_lines : ∀ line ∈ comment.summary.toList :: pieces '\n' comment.body.toList,
    KeepsEnd line ∧ IsText line
  tags : ∀ tag ∈ comment.tags, IsNormalTag tag

instance (line : List Char) : Decidable (KeepsEnd line) :=
  decidable_of_iff (trimEnd line = line ∧ ¬ ['*', '/'] <:+ line)
    ⟨fun ⟨htrimmed, hunclosed⟩ => ⟨htrimmed, hunclosed⟩, fun h => ⟨h.trimmed, h.unclosed⟩⟩

instance (line : List Char) : Decidable (IsText line) :=
  inferInstanceAs (Decidable (tagLine? (trim line) = none))

instance (tag : Tag) : Decidable (IsNormalTag tag) :=
  decidable_of_iff
    (tag.name ≠ "" ∧ tag.name.toList.all isTagNameChar = true ∧
      trim tag.content.toList = tag.content.toList ∧
      (∀ line ∈ pieces '\n' tag.content.toList, KeepsEnd line) ∧
      ∀ line ∈ (pieces '\n' tag.content.toList).tail, IsText line)
    ⟨fun ⟨hname, hchars, htrimmed, hlines, hfurther⟩ =>
        ⟨hname, List.all_eq_true.1 hchars, htrimmed, hlines, hfurther⟩,
      fun h => ⟨h.name_ne, List.all_eq_true.2 h.name_chars, h.content_trimmed, h.content_lines,
        h.content_further⟩⟩

instance (comment : Comment) : Decidable (IsNormal comment) :=
  decidable_of_iff
    ('\n' ∉ comment.summary.toList ∧ trim comment.summary.toList = comment.summary.toList ∧
      (comment.summary = "" → comment.body = "") ∧
      trim comment.body.toList = comment.body.toList ∧
      (∀ line ∈ comment.summary.toList :: pieces '\n' comment.body.toList,
        KeepsEnd line ∧ IsText line) ∧
      ∀ tag ∈ comment.tags, IsNormalTag tag)
    ⟨fun ⟨hline, hsummary, hempty, hbody, htext, htags⟩ =>
        ⟨hline, hsummary, hempty, hbody, htext, htags⟩,
      fun h => ⟨h.summary_line, h.summary_trimmed, h.body_eq_empty, h.body_trimmed, h.text_lines,
        h.tags⟩⟩

/-! ## Gutters -/

/-- The gutter of a written line is removed, and so are the blanks at the end of the line. -/
theorem withoutGutter_gutter {line : List Char} (h : ¬ ['*', '/'] <:+ trimEnd line) :
    withoutGutter (gutter ++ line) = trimEnd line :=
  (withoutGutter_style .outerLine line).trans (by rw [withoutEnd, withoutClosing_of_unclosed h])

theorem withoutGutter_of_keepsEnd {line : List Char} (h : KeepsEnd line) :
    withoutGutter (gutter ++ line) = line := by
  rw [withoutGutter_gutter (by rw [h.trimmed]; exact h.unclosed), h.trimmed]

/-! ## Sections -/

/-- Lines of text before a tag stay together. -/
theorem sections_append {text : List (List Char)} (h : ∀ line ∈ text, IsText line)
    (rest : List (List Char)) :
    sections (text ++ rest) = (text ++ (sections rest).1, (sections rest).2) := by
  induction text with
  | nil => rfl
  | cons line text ih =>
    have hline : tagLine? (trim line) = none := h line (by simp)
    rw [List.cons_append, sections, ih fun l hl => h l (by simp [hl]), hline]
    rfl

/-- A tag line starts a tag, to which the lines of text after it belong. -/
theorem sections_tag {line name first : List Char} {further : List (List Char)}
    (hline : tagLine? (trim line) = some (name, first)) (h : ∀ l ∈ further, IsText l)
    (rest : List (List Char)) :
    sections (line :: (further ++ rest)) =
      ([], ⟨name, first :: (further ++ (sections rest).1)⟩ :: (sections rest).2) := by
  rw [sections, sections_append h, hline]

/-! ## Tag lines -/

theorem isBlank_of_isTagNameChar {c : Char} (h : isTagNameChar c = true) : isBlank c = false := by
  have hall : ∀ n ∈ blankPoints, isTagNameChar (Char.ofNat n) = false := by decide
  cases hb : isBlank c with
  | false => rfl
  | true =>
    have hc := hall c.toNat (mem_blankPoints hb)
    rw [Char.ofNat_toNat, h] at hc
    exact absurd hc (by decide)

section WrittenTag

variable {name first : List Char}

/-- What the reader keeps of the first line of a written tag. -/
theorem trimEnd_tagLine (hname : ∀ c ∈ name, isTagNameChar c = true) (hend : trimEnd first = first) :
    trimEnd ('@' :: (name ++ ' ' :: first)) =
      '@' :: (if first = [] then name else name ++ ' ' :: first) := by
  have hblank : ∀ c ∈ '@' :: name, isBlank c = false := by
    have hat : isBlank '@' = false := by decide
    simpa [hat] using fun c hc => isBlank_of_isTagNameChar (hname c hc)
  have hspace : trimEnd (' ' :: first) = if first = [] then [] else ' ' :: first := by
    have hnone : trimEnd [' '] = [] := by decide
    have := trimEnd_append [' '] first
    rw [hend, hnone] at this
    simpa using this
  rw [← List.cons_append, trimEnd_append, hspace]
  by_cases hfirst : first = []
  · simp [hfirst, trimEnd_of_not_blank hblank]
  · simp [hfirst]

/-- The first line of a written tag starts a tag, with that line of the content. -/
theorem tagLine?_written (hne : name ≠ []) (hname : ∀ c ∈ name, isTagNameChar c = true)
    (hstart : trimStart first = first) (hend : trimEnd first = first) :
    tagLine? (trim (trimEnd ('@' :: (name ++ ' ' :: first)))) = some (name, first) := by
  have hat : isBlank '@' = false := by decide
  have hspace : isBlank ' ' = true := by decide
  have hwhole := trimEnd_tagLine hname hend
  have htrim : trim (trimEnd ('@' :: (name ++ ' ' :: first))) =
      trimEnd ('@' :: (name ++ ' ' :: first)) := by
    rw [trim_eq_trimEnd (by rw [hwhole, trimStart_cons_of_not_blank hat]), trimEnd_trimEnd]
  by_cases hfirst : first = []
  · have hstarts : StartsTag (trimEnd ('@' :: (name ++ ' ' :: first))) name [] :=
      ⟨⟨by rw [htrim, hwhole, if_pos hfirst, List.append_nil], hne, hname, by simp⟩, by simp⟩
    rw [hstarts.tagLine?_eq, hfirst, trimStart_nil]
  · have hstarts : StartsTag (trimEnd ('@' :: (name ++ ' ' :: first))) name (' ' :: first) :=
      ⟨⟨by rw [htrim, hwhole, if_neg hfirst], hne, hname, by simp [isTagNameChar]⟩,
        by simp [canFollowName, hspace]⟩
    have hcontent : trimStart (' ' :: first) = trimStart first := by simp [trimStart, hspace]
    rw [hstarts.tagLine?_eq, hcontent, hstart]

theorem withoutGutter_tagLine (hname : ∀ c ∈ name, isTagNameChar c = true)
    (h : KeepsEnd first) :
    withoutGutter (gutter ++ '@' :: (name ++ ' ' :: first)) =
      trimEnd ('@' :: (name ++ ' ' :: first)) := by
  have hslash : '/' ∉ '@' :: name := by
    intro hmem
    rcases List.mem_cons.1 hmem with hat | hmem
    · exact absurd hat (by decide)
    · exact absurd (hname _ hmem) (by decide)
  have hopen : ¬ ['*', '/'] <:+ '@' :: name := fun hclose => hslash (hclose.subset (by simp))
  refine withoutGutter_gutter ?_
  rw [trimEnd_tagLine hname h.trimmed]
  split
  · exact hopen
  · have hsplit : '@' :: (name ++ ' ' :: first) = ('@' :: name ++ [' ']) ++ first := by simp
    have hlast : ('@' :: name ++ [' ']).getLast? = some ' ' := List.getLast?_concat
    rw [hsplit]
    refine unclosed_append ?_ (by rw [hlast]; decide) h.unclosed
    rintro ⟨before, hbefore⟩
    rw [← hbefore] at hlast
    simp at hlast

end WrittenTag

/-! ## Reading back -/

/-- A line as it is read: without the gutter that it was written with. -/
def reread (line : List Char) : List Char := withoutGutter (gutter ++ line)

variable {comment : Comment} {tag : Tag}

/-- The lines of a written tag: the first one names it. -/
theorem exists_written (h : IsNormalTag tag) :
    ∃ first further, pieces '\n' tag.content.toList = first :: further ∧
      tag.written = ('@' :: (tag.name.toList ++ ' ' :: first)) :: further := by
  have hname : '\n' ∉ '@' :: (tag.name.toList ++ [' ']) := by
    intro hmem
    simp only [List.mem_cons, List.mem_append, List.not_mem_nil, or_false] at hmem
    rcases hmem with hat | hmem | hspace
    · exact absurd hat (by decide)
    · exact absurd (h.name_chars _ hmem) (by decide)
    · exact absurd hspace (by decide)
  obtain ⟨first, further, hpieces⟩ := List.exists_cons_of_ne_nil
    (pieces_ne_nil '\n' tag.content.toList)
  have hwritten := pieces_append hname hpieces
  exact ⟨first, further, hpieces, by simpa [Tag.written] using hwritten⟩

/-- The first line of a text starts as the text does. -/
theorem trimStart_of_pieces {text line : List Char} {rest : List (List Char)}
    (hpieces : pieces '\n' text = line :: rest) (h : trimStart text = text) :
    trimStart line = line := by
  have hjoin := intercalate_pieces '\n' text
  rw [hpieces] at hjoin
  cases rest with
  | nil => rwa [← hjoin, List.intercalate_singleton] at h
  | cons k ks =>
    rw [← hjoin, List.intercalate_cons_cons, List.append_assoc] at h
    exact trimStart_of_append h

/-- A written tag is read as a tag with the lines of its content. -/
theorem sections_written (h : IsNormalTag tag) (rest : List (List Char)) :
    sections (tag.written.map reread ++ rest) =
      ([], ⟨tag.name.toList, pieces '\n' tag.content.toList ++ (sections rest).1⟩ ::
        (sections rest).2) := by
  obtain ⟨first, further, hpieces, hwritten⟩ := exists_written h
  have hlines := h.content_lines
  have htext := h.content_further
  rw [hpieces] at hlines htext
  have hkeeps : KeepsEnd first := hlines first (by simp)
  have hne : tag.name.toList ≠ [] := fun hnil => h.name_ne (String.toList_inj.1 hnil)
  have hstart : trimStart first = first :=
    trimStart_of_pieces hpieces (trimStart_eq_self h.content_trimmed)
  have hfurther : further.map reread = further :=
    (List.map_congr_left fun line hline =>
      withoutGutter_of_keepsEnd (hlines line (by simp [hline]))).trans (List.map_id further)
  have hfirst := tagLine?_written hne h.name_chars hstart hkeeps.trimmed
  rw [hwritten, hpieces, List.map_cons, hfurther, reread,
    withoutGutter_tagLine h.name_chars hkeeps, List.cons_append]
  exact sections_tag hfirst htext rest

theorem sections_tags {tags : List Tag} (h : ∀ tag ∈ tags, IsNormalTag tag) :
    sections ((tags.flatMap Tag.written).map reread) =
      ([], tags.map fun tag => ⟨tag.name.toList, pieces '\n' tag.content.toList⟩) := by
  induction tags with
  | nil => rfl
  | cons tag tags ih =>
    rw [List.flatMap_cons, List.map_append, sections_written (h tag (by simp)),
      ih fun t ht => h t (by simp [ht])]
    simp

theorem close_pieces (h : IsNormalTag tag) :
    OpenTag.close ⟨tag.name.toList, pieces '\n' tag.content.toList⟩ = tag := by
  rw [OpenTag.close, intercalate_pieces, h.content_trimmed, String.ofList_toList,
    String.ofList_toList]

theorem intercalate_linesOf (text : List Char) : ['\n'].intercalate (linesOf text) = text := by
  rw [linesOf]
  split
  · rename_i hnil
    rw [hnil]
    rfl
  · exact intercalate_pieces '\n' text

/-- An empty line before the lines of a text is trimmed off. -/
theorem trim_intercalate_blank (text : List Char) :
    trim (['\n'].intercalate ([] :: linesOf text)) = trim text := by
  have hfeed : isBlank '\n' = true := by decide
  by_cases htext : text = []
  · subst htext
    rfl
  · obtain ⟨line, rest, hlines⟩ := List.exists_cons_of_ne_nil (pieces_ne_nil '\n' text)
    have hjoin := intercalate_linesOf text
    rw [linesOf, if_neg htext, hlines] at hjoin ⊢
    rw [List.intercalate_cons_cons, hjoin]
    exact trim_of_blank_cons hfeed

/-- Summary and body of a comment are told apart by the blank line between them. -/
theorem summaryAndBody_written (h : IsNormal comment) :
    summaryAndBody (comment.summary.toList :: [] :: linesOf comment.body.toList) =
      (comment.summary.toList, comment.body.toList) := by
  by_cases hsummary : comment.summary = ""
  · have hbody := h.body_eq_empty hsummary
    rw [hsummary, hbody]
    rfl
  · have hfull : isBlankLine comment.summary.toList = false := by
      simpa [isBlankLine, h.summary_trimmed] using hsummary
    have hblank : isBlankLine [] = true := rfl
    rw [summaryAndBody, List.dropWhile_cons_of_neg (by simp [hfull]), cutSummary, hfull]
    -- after a sentence the blank line stays before the body, and is trimmed off with it
    by_cases hends : endsSentence comment.summary.toList = true
    · simp [hends, h.summary_trimmed, trim_intercalate_blank, h.body_trimmed]
    · simp [hends, cutSummary, hblank, h.summary_trimmed, intercalate_linesOf, h.body_trimmed]

theorem KeepsEnd.no_return {line : List Char} (h : KeepsEnd line) : line.getLast? ≠ some '\r' :=
  getLast?_ne_of_trimEnd h.trimmed (by decide)

/-- The end of a stretch before a line is no carriage return, and the end of the line is none. -/
theorem no_return_append {a line : List Char} (ha : a.getLast? ≠ some '\r')
    (h : line.getLast? ≠ some '\r') : (a ++ line).getLast? ≠ some '\r' := by
  rw [List.getLast?_append]
  cases hlast : line.getLast? with
  | none => simpa using ha
  | some c => simpa [hlast] using h

theorem no_return_of_mem_written (h : IsNormalTag tag) {line : List Char}
    (hline : line ∈ tag.written) : line.getLast? ≠ some '\r' := by
  obtain ⟨first, further, hpieces, hwritten⟩ := exists_written h
  have hlines := h.content_lines
  rw [hpieces] at hlines
  rw [hwritten] at hline
  rcases List.mem_cons.1 hline with rfl | hline
  · have hspace : ('@' :: tag.name.toList ++ [' ']).getLast? ≠ some '\r' := by
      rw [List.getLast?_concat]
      decide
    simpa using no_return_append hspace (hlines first (by simp)).no_return
  · exact (hlines line (by simp [hline])).no_return

/-- The text lines of a comment in normal form. -/
theorem text_of_mem (h : IsNormal comment) :
    ∀ line ∈ comment.summary.toList :: [] :: linesOf comment.body.toList,
      '\n' ∉ line ∧ KeepsEnd line ∧ IsText line := by
  intro line hline
  simp only [List.mem_cons] at hline
  rcases hline with rfl | rfl | hline
  · exact ⟨h.summary_line, h.text_lines _ (by simp)⟩
  · exact ⟨by simp, ⟨rfl, by decide⟩, rfl⟩
  · rw [linesOf] at hline
    split at hline
    · simp at hline
    · exact ⟨not_mem_of_mem_pieces hline, h.text_lines line (by simp [hline])⟩

/-- The lines of a written comment are read as they were written. -/
theorem lines_render (h : IsNormal comment) :
    Text.lines (render comment).toList = comment.written.map (gutter ++ ·) := by
  rw [render, String.toList_ofList]
  refine lines_intercalate ?_ ?_
  · intro line hline
    obtain ⟨l, hl, rfl⟩ := List.mem_map.1 hline
    have hl : '\n' ∉ l ∧ l.getLast? ≠ some '\r' := by
      rcases List.mem_append.1 hl with hl | hl
      · exact ⟨(text_of_mem h l hl).1, (text_of_mem h l hl).2.1.no_return⟩
      · obtain ⟨tag, htag, hl⟩ := List.mem_flatMap.1 hl
        exact ⟨not_mem_of_mem_pieces hl, no_return_of_mem_written (h.tags tag htag) hl⟩
    exact ⟨by simp [gutter, hl.1], no_return_append (by decide) hl.2⟩
  · intro hlast
    obtain ⟨l, -, hl⟩ := List.mem_map.1 (List.mem_of_getLast? hlast)
    simp [gutter] at hl

/-- A comment in normal form is read back from the way it is written. -/
theorem parse_render (comment : Comment) (h : IsNormal comment) :
    parse (render comment) = comment := by
  have htext : (comment.summary.toList :: [] :: linesOf comment.body.toList).map reread =
      comment.summary.toList :: [] :: linesOf comment.body.toList :=
    (List.map_congr_left fun line hline =>
      withoutGutter_of_keepsEnd (text_of_mem h line hline).2.1).trans (List.map_id _)
  have hread : (Text.lines (render comment).toList).map withoutGutter =
      (comment.summary.toList :: [] :: linesOf comment.body.toList) ++
        (comment.tags.flatMap Tag.written).map reread := by
    rw [lines_render h, List.map_map, written, List.map_append]
    exact congrArg (· ++ _) htext
  have htags : (comment.tags.map fun tag =>
      OpenTag.mk tag.name.toList (pieces '\n' tag.content.toList)).map OpenTag.close =
      comment.tags := by
    rw [List.map_map]
    exact (List.map_congr_left fun tag htag => close_pieces (h.tags tag htag)).trans (List.map_id _)
  rw [parse, hread, sections_append fun line hline => (text_of_mem h line hline).2.2,
    sections_tags h.tags]
  simp only [List.append_nil, summaryAndBody_written h, htags, String.ofList_toList]

/-- A comment whose summary ends in a period, with a blank line in its body, a tag that goes on over
indented lines and a tag without content. -/
def listComment : Comment where
  summary := "Lists users."
  body := "Sorted by name.\n\n  Archived ones come last."
  tags := [⟨"response", "\x7b\n  id :: int\n\x7d"⟩, ⟨"docsHide", ""⟩]

theorem isNormal_listComment : IsNormal listComment := by decide

theorem parse_render_listComment :
    IsNormal listComment ∧ parse (render listComment) = listComment :=
  ⟨isNormal_listComment, parse_render listComment isNormal_listComment⟩

end Comment

end ApiCatalog
