import ApiCatalog.Proofs.Comment.TagLines
import ApiCatalog.Proofs.Text.Visible

/-!
# No text is lost

The visible characters of a comment are those of its lines without their gutters, in the same order
(`visible_spelled_parse`): each line goes to the text or to a tag, and what is cut off when lines
are joined and trimmed is blank. A gutter is nothing but marks of comments and blanks
(`exists_frame`).
-/

namespace ApiCatalog

open ApiCatalog.Text

namespace Comment

/-! ## Gutters -/

/-- What stands around the text of a comment line: a mark that opens a comment, a mark at the start
of the line with perhaps a space after it, a mark that closes a comment, and blanks. -/
structure Frame where
  indent : List Char
  opening : List Char
  inner : List Char
  mark : List Char
  space : List Char
  tail : List Char
  closing : List Char
  ending : List Char
  indent_blank : ∀ c ∈ indent, isBlank c = true
  opening_mem : opening ∈ ["".toList, "/*".toList, "/**".toList]
  inner_blank : ∀ c ∈ inner, isBlank c = true
  mark_mem : mark ∈ ["".toList, "*".toList, "//".toList, "///".toList, "//!".toList]
  space_mem : space ∈ ["".toList, " ".toList]
  tail_blank : ∀ c ∈ tail, isBlank c = true
  closing_mem : closing ∈ ["".toList, "*/".toList]
  ending_blank : ∀ c ∈ ending, isBlank c = true

/-- The line with the given text in the frame. -/
def Frame.around (frame : Frame) (text : List Char) : List Char :=
  frame.indent ++ frame.opening ++ frame.inner ++ frame.mark ++ frame.space ++ text ++ frame.tail ++
    frame.closing ++ frame.ending

theorem exists_opening (line : List Char) :
    ∃ indent opening, line = indent ++ opening ++ withoutOpening line ∧
      (∀ c ∈ indent, isBlank c = true) ∧ opening ∈ ["".toList, "/*".toList, "/**".toList] := by
  obtain ⟨indent, hline, hindent⟩ := exists_trimStart line
  rw [withoutOpening]
  split
  · rename_i rest hrest
    exact ⟨indent, "/**".toList, by rw [hline, hrest]; simp, hindent, by simp⟩
  · rename_i rest _ hrest
    exact ⟨indent, "/*".toList, by rw [hline, hrest]; simp, hindent, by simp⟩
  · exact ⟨[], "".toList, rfl, by simp, by simp⟩

theorem exists_closing (line : List Char) :
    ∃ tail closing ending, line = withoutClosing line ++ tail ++ closing ++ ending ∧
      (∀ c ∈ tail, isBlank c = true) ∧ closing ∈ ["".toList, "*/".toList] ∧
      ∀ c ∈ ending, isBlank c = true := by
  rw [withoutClosing]
  split
  · rename_i rest hrest
    obtain ⟨ending, hline, hending⟩ := exists_trimEnd line
    obtain ⟨tail, htext, htail⟩ := exists_trimEnd rest.reverse
    have hclosed : trimEnd line = rest.reverse ++ "*/".toList := by
      rw [← List.reverse_inj, hrest]
      simp
    refine ⟨tail, "*/".toList, ending, ?_, htail, by simp, hending⟩
    calc line = trimEnd line ++ ending := hline
      _ = rest.reverse ++ "*/".toList ++ ending := by rw [hclosed]
      _ = trimEnd rest.reverse ++ tail ++ "*/".toList ++ ending := by rw [← htext]
  · exact ⟨[], [], [], by simp, by simp, by simp, by simp⟩

theorem exists_margin (line : List Char) :
    ∃ inner mark space, line = inner ++ mark ++ space ++ withoutMargin line ∧
      (∀ c ∈ inner, isBlank c = true) ∧
      mark ∈ ["".toList, "*".toList, "//".toList, "///".toList, "//!".toList] ∧
      space ∈ ["".toList, " ".toList] := by
  obtain ⟨inner, hline, hinner⟩ := exists_trimStart line
  unfold withoutMargin
  extract_lets text
  have hmark : ∃ mark ∈ ["".toList, "*".toList, "//".toList, "///".toList, "//!".toList],
      trimStart line = mark ++ text := by
    simp only [text]
    split
    · exact ⟨"//!".toList, by simp, ‹_›⟩
    · exact ⟨"///".toList, by simp, ‹_›⟩
    · exact ⟨"//".toList, by simp, ‹_›⟩
    · exact ⟨"*".toList, by simp, ‹_›⟩
    · exact ⟨[], by simp, rfl⟩
  obtain ⟨mark, hmem, htext⟩ := hmark
  clear_value text
  split
  · exact ⟨inner, mark, " ".toList, by rw [hline, htext]; simp, hinner, hmem, by simp⟩
  · exact ⟨inner, mark, [], by rw [hline, htext]; simp, hinner, hmem, by simp⟩

/-- A line is its text in a frame. -/
theorem exists_frame (line : List Char) :
    ∃ frame : Frame, line = frame.around (withoutGutter line) := by
  obtain ⟨indent, opening, hopening, hindent, hmark⟩ := exists_opening line
  obtain ⟨tail, closing, ending, hclosing, htail, hclose, hending⟩ :=
    exists_closing (withoutOpening line)
  obtain ⟨inner, mark, space, hmargin, hinner, hmem, hspace⟩ :=
    exists_margin (withoutClosing (withoutOpening line))
  obtain ⟨after, htext, hafter⟩ :=
    exists_trimEnd (withoutMargin (withoutClosing (withoutOpening line)))
  refine ⟨⟨indent, opening, inner, mark, space, after ++ tail, closing, ending, hindent, hmark,
    hinner, hmem, hspace, List.forall_mem_append.2 ⟨hafter, htail⟩, hclose, hending⟩, ?_⟩
  calc line
      = indent ++ opening ++ withoutOpening line := hopening
    _ = indent ++ opening ++ (withoutClosing (withoutOpening line) ++ tail ++ closing ++ ending) := by
      rw [← hclosing]
    _ = indent ++ opening ++ (inner ++ mark ++ space ++
          withoutMargin (withoutClosing (withoutOpening line)) ++ tail ++ closing ++ ending) := by
      rw [← hmargin]
    _ = indent ++ opening ++ (inner ++ mark ++ space ++ (withoutGutter line ++ after) ++ tail ++
          closing ++ ending) := by
      rw [withoutGutter, ← htext]
    _ = _ := by simp [Frame.around]

/-! ## Text and tags -/

/-- All text of a comment in the order in which it is read: summary, body, and each tag as `@`, its
name and its content. -/
def spelled (comment : Comment) : List Char :=
  comment.summary.toList ++ comment.body.toList ++
    comment.tags.flatMap fun tag => '@' :: (tag.name.toList ++ tag.content.toList)

/-- A tag shows what its lines show. -/
theorem TagBlock.visible_tag (block : TagBlock) :
    visible ('@' :: (block.tag.name.toList ++ block.tag.content.toList)) =
      block.lines.flatMap visible := by
  have hfeed : isBlank '\n' = true := by decide
  have hfirst : visible block.first = visible ('@' :: (block.name ++ block.rest)) := by
    rw [← visible_trim, block.starts.text]
  have hat : ∀ cs, visible ('@' :: cs) = '@' :: visible cs := fun _ =>
    visible_cons_of_not_blank (by decide)
  simp only [TagBlock.tag, TagBlock.lines, String.toList_ofList, List.flatMap_cons, hfirst, hat,
    visible_append, visible_trim, visible_intercalate hfeed, List.cons_append, List.append_assoc]

theorem flatMap_visible_dropWhile (lines : List (List Char)) :
    (lines.dropWhile isBlankLine).flatMap visible = lines.flatMap visible := by
  induction lines with
  | nil => rfl
  | cons line lines ih =>
    rw [List.dropWhile_cons]
    split
    · rename_i hblank
      have hnone : visible line = [] := by
        rw [← visible_trim, List.isEmpty_iff.1 hblank, visible_nil]
      rw [ih, List.flatMap_cons, hnone, List.nil_append]
    · rfl

/-- The two parts that lines are cut into show what the lines show. -/
theorem flatMap_visible_cutSummary (lines : List (List Char)) :
    (cutSummary lines).1.flatMap visible ++ (cutSummary lines).2.flatMap visible =
      lines.flatMap visible := by
  induction lines with
  | nil => rfl
  | cons line lines ih =>
    rw [cutSummary]
    split
    · rename_i hblank
      have hnone : visible line = [] := by
        rw [← visible_trim, List.isEmpty_iff.1 hblank, visible_nil]
      simp [hnone]
    · split
      · simp
      · simp [ih]

theorem visible_summaryAndBody (text : List (List Char)) :
    visible (summaryAndBody text).1 ++ visible (summaryAndBody text).2 = text.flatMap visible := by
  have hspace : isBlank ' ' = true := by decide
  have hfeed : isBlank '\n' = true := by decide
  simp only [summaryAndBody, visible_trim, visible_intercalate hspace, visible_intercalate hfeed,
    flatMap_visible_cutSummary, flatMap_visible_dropWhile]

/-- The first line is the first of the summary unless it is blank. -/
theorem cutSummary_cons {line : List Char} (h : isBlankLine line = false)
    (lines : List (List Char)) :
    ∃ further, (cutSummary (line :: lines)).1 = trim line :: further := by
  simp only [cutSummary, h, if_false, Bool.false_eq_true]
  split
  · exact ⟨[], rfl⟩
  · exact ⟨(cutSummary lines).1, rfl⟩

/-- Without a summary there is no body: lines that are not all blank have a first one that is not,
and it goes to the summary. -/
theorem body_eq_nil_of_summary {text : List (List Char)} (h : (summaryAndBody text).1 = []) :
    (summaryAndBody text).2 = [] := by
  have hspace : isBlank ' ' = true := by decide
  have hshown : (cutSummary (text.dropWhile isBlankLine)).1.flatMap visible = [] := by
    rw [← visible_intercalate hspace, ← visible_trim]
    exact congrArg visible h
  cases hlines : text.dropWhile isBlankLine with
  | nil => simp [summaryAndBody, hlines, cutSummary]
  | cons line lines =>
    have hsolid : isBlankLine line = false := by
      have hhead := List.head?_dropWhile_not isBlankLine text
      rw [hlines] at hhead
      exact hhead
    obtain ⟨further, hsummary⟩ := cutSummary_cons hsolid lines
    rw [hlines, hsummary, List.flatMap_cons, visible_trim, List.append_eq_nil_iff] at hshown
    have hblank : isBlankLine line = true :=
      List.isEmpty_iff.2 (trim_eq_nil_iff.2 (visible_eq_nil_iff.1 hshown.1))
    rw [hblank] at hsolid
    contradiction

/-- Tags show what their lines show. -/
theorem visible_tags (blocks : List TagBlock) :
    visible ((blocks.map TagBlock.tag).flatMap fun tag =>
      '@' :: (tag.name.toList ++ tag.content.toList)) =
        (blocks.flatMap TagBlock.lines).flatMap visible := by
  induction blocks with
  | nil => rfl
  | cons block blocks ih =>
    rw [List.map_cons, List.flatMap_cons, visible_append, ih, block.visible_tag,
      List.flatMap_cons, List.flatMap_append]

/-- No text of a comment is lost, made up or put in another order: what it shows are the visible
characters of its lines without their gutters. There is a body only if there is a summary. What is
removed from a line as its gutter are marks of comments and blanks, and all else that the comment is
written with are line ends. -/
theorem visible_spelled_parse (raw : String) :
    visible (spelled (parse raw)) = (bareLines raw).flatMap visible ∧
      ((parse raw).summary = "" → (parse raw).body = "") ∧
      (∀ line, ∃ frame : Frame, line = frame.around (withoutGutter line)) ∧
      (Text.lines raw.toList).flatMap visible = visible raw.toList := by
  obtain ⟨text, blocks, hdivides, hsections⟩ := exists_divides (bareLines raw)
  have hparse : parse raw = ⟨String.ofList (summaryAndBody text).1,
      String.ofList (summaryAndBody text).2, blocks.map TagBlock.tag⟩ := by
    rw [bareLines] at hsections
    rw [parse, hsections]
    simp only [List.map_map, Function.comp_def, TagBlock.close_opened]
  refine ⟨?_, fun hsummary => ?_, exists_frame, flatMap_visible_lines raw.toList⟩
  · rw [hdivides.lines_eq, List.flatMap_append, ← visible_tags, ← visible_summaryAndBody, hparse,
      spelled]
    simp only [String.toList_ofList, visible_append]
  · rw [hparse] at hsummary ⊢
    have hnone : (summaryAndBody text).1 = [] := by
      simpa using congrArg String.toList hsummary
    rw [body_eq_nil_of_summary hnone]

/-- A comment without a summary. -/
def bareTag : String := "/**\n * @response  int\n *  count\n */"

theorem visible_spelled_parse_bareTag :
    (parse bareTag).summary = "" ∧ (parse bareTag).body = "" ∧
      visible (spelled (parse bareTag)) = "@responseintcount".toList ∧
      (bareLines bareTag).flatMap visible = "@responseintcount".toList := by
  obtain ⟨hshown, hbody, -, -⟩ := visible_spelled_parse bareTag
  have hsummary : (parse bareTag).summary = "" := by decide
  have hlines : (bareLines bareTag).flatMap visible = "@responseintcount".toList := by decide
  exact ⟨hsummary, hbody hsummary, hshown.trans hlines, hlines⟩

end Comment

end ApiCatalog
