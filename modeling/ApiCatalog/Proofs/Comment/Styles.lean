import ApiCatalog.Proofs.Comment.Gutters
import ApiCatalog.Proofs.Comment.TagLines
import ApiCatalog.Proofs.Text.Lines

/-!
# Styles of comments

The same lines can be written as a block comment or as line comments of three kinds. What is read of
a line does not depend on the gutter before it (`withoutGutter_style`), and the lines that open and
close a block comment are read as empty ones, which are lost at either end of a comment
(`ofLines_cons_empty`, `ofLines_append_empty`). So all styles are read alike (`parse_write`).
-/

namespace ApiCatalog

open ApiCatalog.Text

namespace CommentStyle

/-- The lines of a comment, with all marks. -/
def marked (style : CommentStyle) (lines : List (List Char)) : List (List Char) :=
  let inner := lines.map (style.gutter ++ ·)
  if style = .block then "/**".toList :: inner ++ [" */".toList] else inner

/-- The comment with the given lines. -/
def write (style : CommentStyle) (lines : List (List Char)) : String :=
  String.ofList (['\n'].intercalate (style.marked lines))

end CommentStyle

namespace Comment

/-! ## Empty lines at the ends -/

/-- The comment with the given lines, which have no gutters. -/
def ofLines (lines : List (List Char)) : Comment :=
  let (text, tags) := sections lines
  let (summary, body) := summaryAndBody text
  ⟨String.ofList summary, String.ofList body, tags.map OpenTag.close⟩

theorem parse_eq_ofLines (raw : String) : parse raw = ofLines (bareLines raw) := rfl

theorem isBlankLine_nil : isBlankLine [] = true := rfl

theorem ofLines_cons_empty (lines : List (List Char)) : ofLines ([] :: lines) = ofLines lines := by
  have hsections : sections ([] :: lines) = ([] :: (sections lines).1, (sections lines).2) := rfl
  simp only [ofLines, hsections, summaryAndBody, List.dropWhile_cons_of_pos isBlankLine_nil]

/-- Lines with perhaps an empty one more at the end. -/
def Padded (lines padded : List (List Char)) : Prop := padded = lines ∨ padded = lines ++ [[]]

variable {lines padded : List (List Char)}

theorem Padded.cons (h : Padded lines padded) (line : List Char) :
    Padded (line :: lines) (line :: padded) := by
  rcases h with rfl | rfl
  · exact .inl rfl
  · exact .inr rfl

theorem intercalate_append_empty (h : lines ≠ []) :
    ['\n'].intercalate (lines ++ [[]]) = ['\n'].intercalate lines ++ ['\n'] := by
  induction lines with
  | nil => exact absurd rfl h
  | cons line lines ih =>
    cases lines with
    | nil => simp [List.intercalate_cons_cons]
    | cons next lines =>
      rw [List.cons_append, List.cons_append, List.intercalate_cons_cons,
        List.intercalate_cons_cons, ← List.cons_append, ih (by simp), List.append_assoc _ _ ['\n']]

/-- An empty line at the end of a text is trimmed off. -/
theorem trim_intercalate_append_empty (lines : List (List Char)) :
    trim (['\n'].intercalate (lines ++ [[]])) = trim (['\n'].intercalate lines) := by
  have hfeed : isBlank '\n' = true := by decide
  by_cases hlines : lines = []
  · rw [hlines]
    rfl
  · rw [intercalate_append_empty hlines, trim_append_of_blank hfeed]

theorem Padded.trim_intercalate (h : Padded lines padded) :
    trim (['\n'].intercalate padded) = trim (['\n'].intercalate lines) := by
  rcases h with rfl | rfl
  · rfl
  · exact trim_intercalate_append_empty lines

theorem cutSummary_append_empty (lines : List (List Char)) :
    (cutSummary (lines ++ [[]])).1 = (cutSummary lines).1 ∧
      Padded (cutSummary lines).2 (cutSummary (lines ++ [[]])).2 := by
  induction lines with
  | nil => exact ⟨rfl, .inl rfl⟩
  | cons line lines ih =>
    rw [List.cons_append, cutSummary, cutSummary]
    split
    · exact ⟨rfl, .inr rfl⟩
    · split
      · exact ⟨rfl, .inr rfl⟩
      · exact ⟨congrArg (trim line :: ·) ih.1, ih.2⟩

theorem Padded.summaryAndBody (h : Padded lines padded) :
    summaryAndBody padded = summaryAndBody lines := by
  rcases h with rfl | rfl
  · rfl
  · by_cases hblank : lines.dropWhile isBlankLine = []
    · have hempty : [[]].dropWhile isBlankLine = [] := rfl
      simp [Comment.summaryAndBody, List.dropWhile_append, hblank, hempty]
    · obtain ⟨hsummary, hbody⟩ := cutSummary_append_empty (lines.dropWhile isBlankLine)
      simp [Comment.summaryAndBody, List.dropWhile_append, hblank, hsummary, hbody.trim_intercalate]

/-- An empty line after the others goes to the last tag, or to the text if there is no tag. -/
theorem sections_append_empty (lines : List (List Char)) :
    Padded (sections lines).1 (sections (lines ++ [[]])).1 ∧
      (sections (lines ++ [[]])).2.map OpenTag.close = (sections lines).2.map OpenTag.close := by
  induction lines with
  | nil => exact ⟨.inr rfl, rfl⟩
  | cons line lines ih =>
    obtain ⟨htext, htags⟩ := ih
    rw [List.cons_append, sections, sections]
    cases tagLine? (trim line) with
    | none => exact ⟨htext.cons line, htags⟩
    | some found =>
      refine ⟨.inl rfl, ?_⟩
      simp only [List.map_cons, htags, OpenTag.close, (htext.cons found.2).trim_intercalate]

theorem ofLines_append_empty (lines : List (List Char)) :
    ofLines (lines ++ [[]]) = ofLines lines := by
  obtain ⟨htext, htags⟩ := sections_append_empty lines
  simp only [ofLines, htext.summaryAndBody, htags]

/-! ## Reading a comment of any style -/

/-- A marked line is a line with its gutter or one of the marks of a block comment. -/
theorem mem_marked {style : CommentStyle} {line : List Char} (h : line ∈ style.marked lines) :
    (∃ l ∈ lines, line = style.gutter ++ l) ∨ line = "/**".toList ∨ line = " */".toList := by
  simp only [CommentStyle.marked] at h
  split at h
  · simp only [List.mem_append, List.mem_cons, List.mem_map, List.not_mem_nil, or_false] at h
    rcases h with (hopen | ⟨l, hl, hline⟩) | hclose
    · exact .inr (.inl hopen)
    · exact .inl ⟨l, hl, hline.symm⟩
    · exact .inr (.inr hclose)
  · obtain ⟨l, hl, hline⟩ := List.mem_map.1 h
    exact .inl ⟨l, hl, hline.symm⟩

/-- A carriage return at the end of a marked line is not read. -/
theorem withoutGutter_append_return {style : CommentStyle} {line : List Char}
    (h : line ++ ['\r'] ∈ style.marked lines) :
    withoutGutter (line ++ ['\r']) = withoutGutter line := by
  have hblank : isBlank '\r' = true := by decide
  have hlast : (line ++ ['\r']).getLast? = some '\r' := List.getLast?_concat
  rcases mem_marked h with ⟨l, -, hline⟩ | hopen | hclose
  · rw [hline] at hlast ⊢
    rcases List.eq_nil_or_concat l with rfl | ⟨start, c, rfl⟩
    · cases style <;> simp [CommentStyle.gutter] at hlast
    · rw [List.concat_eq_append, ← List.append_assoc] at hline
      obtain ⟨hstart, hc⟩ := List.append_inj' hline rfl
      obtain rfl : '\r' = c := by simpa using hc
      rw [hstart, List.concat_eq_append, withoutGutter_style, withoutGutter_style,
        withoutEnd_append_of_blank hblank]
  · simp [hopen] at hlast
  · simp [hclose] at hlast

/-- The lines of a comment of any style are read one by one. -/
theorem bareLines_write (style : CommentStyle) (h : ∀ line ∈ lines, '\n' ∉ line) :
    bareLines (style.write lines) = (style.marked lines).map withoutGutter := by
  rw [bareLines, CommentStyle.write, String.toList_ofList]
  refine map_lines_intercalate withoutGutter ?_ (fun line => withoutGutter_append_return) ?_
  · intro line hline
    rcases mem_marked hline with ⟨l, hl, rfl⟩ | rfl | rfl
    · have hgutter : '\n' ∉ style.gutter := by cases style <;> decide
      simp [hgutter, h l hl]
    · decide
    · decide
  · intro hlast
    rcases mem_marked (List.mem_of_getLast? hlast) with ⟨l, -, hempty⟩ | hempty | hempty
    · cases style <;> simp [CommentStyle.gutter] at hempty
    · exact absurd hempty (by decide)
    · exact absurd hempty (by decide)

theorem parse_write_eq (style : CommentStyle) (h : ∀ line ∈ lines, '\n' ∉ line) :
    parse (style.write lines) = ofLines (lines.map withoutEnd) := by
  have hinner : (lines.map (style.gutter ++ ·)).map withoutGutter = lines.map withoutEnd := by
    rw [List.map_map]
    exact List.map_congr_left fun line _ => withoutGutter_style style line
  rw [parse_eq_ofLines, bareLines_write style h, CommentStyle.marked]
  split
  · have hopen : withoutGutter "/**".toList = [] := by decide
    have hclose : withoutGutter " */".toList = [] := by decide
    rw [List.cons_append, List.map_cons, List.map_append, hinner, hopen, List.map_singleton, hclose,
      ofLines_cons_empty, ofLines_append_empty]
  · rw [hinner]

/-- The style of a comment does not matter: the same lines are read as the same comment in all
styles, as what is left of them without marks that would close a block comment. -/
theorem parse_write (lines : List (List Char)) (h : ∀ line ∈ lines, '\n' ∉ line) :
    (∀ style other : CommentStyle, parse (style.write lines) = parse (other.write lines)) ∧
      ∀ style : CommentStyle, parse (style.write lines) = ofLines (lines.map withoutEnd) :=
  ⟨fun style other => (parse_write_eq style h).trans (parse_write_eq other h).symm,
    fun style => parse_write_eq style h⟩

/-- Lines with marks of comments in them: a star and a slash at the start, a closing mark and a
carriage return at the end, and a tag whose content goes on over an indented line. -/
def starredLines : List (List Char) :=
  ["* Starred, closed */\r".toList, [], "/ Slashed".toList, "@response \x7b".toList,
    "  id :: int".toList, "\x7d".toList]

/-- The starred lines are read as a block comment as they are as plain line comments. -/
theorem parse_write_starredLines :
    (∀ line ∈ starredLines, '\n' ∉ line) ∧
      parse (CommentStyle.block.write starredLines) =
        parse (CommentStyle.plainLine.write starredLines) ∧
      parse (CommentStyle.block.write starredLines) =
        ⟨"* Starred, closed", "/ Slashed", [⟨"response", "\x7b\n  id :: int\n\x7d"⟩]⟩ := by
  have hlines : ∀ line ∈ starredLines, '\n' ∉ line := by decide
  obtain ⟨hsame, hread⟩ := parse_write starredLines hlines
  refine ⟨hlines, hsame .block .plainLine, (hread .block).trans ?_⟩
  decide

end Comment

end ApiCatalog
