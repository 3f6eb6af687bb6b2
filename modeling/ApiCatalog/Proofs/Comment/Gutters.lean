import ApiCatalog.Comment.Reader
import ApiCatalog.Proofs.Text.Trimming

/-!
# Gutters

Before each line of a comment stands a gutter, which depends on the style of the comment. What is
read of the line does not depend on it: the line itself, less blanks and a mark that would close a
block comment at its end (`withoutGutter_style`).
-/

namespace ApiCatalog

open ApiCatalog.Text

/-- How a comment is marked as one. -/
inductive CommentStyle where
  /-- One pair of marks around all lines, and a star before each. -/
  | block
  /-- Three slashes before each line. -/
  | outerLine
  /-- Two slashes and an exclamation mark before each line. -/
  | innerLine
  /-- Two slashes before each line. -/
  | plainLine
deriving Repr, DecidableEq

namespace CommentStyle

/-- What stands before each line. -/
def gutter : CommentStyle → List Char
  | .block => " * ".toList
  | .outerLine => "/// ".toList
  | .innerLine => "//! ".toList
  | .plainLine => "// ".toList

end CommentStyle

namespace Comment

/-! ## Closing marks -/

theorem withoutClosing_of_unclosed {line : List Char} (h : ¬ ['*', '/'] <:+ trimEnd line) :
    withoutClosing line = line := by
  rw [withoutClosing]
  split
  · rename_i rest hrev
    refine absurd ⟨rest.reverse, ?_⟩ h
    rw [← List.reverse_reverse (trimEnd line), hrev]
    simp
  · rfl

theorem withoutClosing_of_closed {line before : List Char}
    (h : trimEnd line = before ++ ['*', '/']) : withoutClosing line = trimEnd before := by
  simp [withoutClosing, h]

/-- A closing mark ends in the last of two stretches, unless the first ends in its star. -/
theorem unclosed_append {a line : List Char} (ha : ¬ ['*', '/'] <:+ a)
    (hstar : a.getLast? ≠ some '*') (h : ¬ ['*', '/'] <:+ line) : ¬ ['*', '/'] <:+ a ++ line := by
  intro hclose
  match line with
  | [] => exact ha (by simpa using hclose)
  | [c] =>
    obtain ⟨before, hbefore⟩ := hclose
    have hlast : before ++ ['*'] ++ ['/'] = a ++ [c] := by simpa using hbefore
    have hinit := (List.append_inj' hlast rfl).1
    exact hstar (by rw [← hinit]; simp)
  | c :: d :: cs =>
    exact h (List.suffix_of_suffix_length_le hclose (List.suffix_append _ _) (by simp))

/-! ## What is read of a line -/

/-- What is read of a line: all but a mark that would close a block comment, and blanks at the
end. -/
def withoutEnd (line : List Char) : List Char := trimEnd (withoutClosing line)

/-- A blank at the end of a line is not read. -/
theorem withoutEnd_append_of_blank {c : Char} {line : List Char} (h : isBlank c = true) :
    withoutEnd (line ++ [c]) = withoutEnd line := by
  have hend : trimEnd (line ++ [c]) = trimEnd line := by
    rw [trimEnd_append, if_pos (by simp [trimEnd, h])]
  by_cases hclosed : ['*', '/'] <:+ trimEnd line
  · obtain ⟨before, hbefore⟩ := hclosed
    rw [withoutEnd, withoutEnd, withoutClosing_of_closed (hend.trans hbefore.symm),
      withoutClosing_of_closed hbefore.symm]
  · rw [withoutEnd, withoutEnd, withoutClosing_of_unclosed (by rwa [hend]),
      withoutClosing_of_unclosed hclosed, hend]

theorem withoutOpening_style (style : CommentStyle) (line : List Char) :
    withoutOpening (style.gutter ++ line) = style.gutter ++ line := by
  cases style <;> rfl

theorem withoutMargin_style (style : CommentStyle) (line : List Char) :
    withoutMargin (style.gutter ++ line) = line := by
  cases style <;> rfl

/-- The gutter is also removed from a line whose end was cut off, and even if of the gutter itself
only the start is left. -/
theorem withoutMargin_trimEnd_style (style : CommentStyle) (line : List Char) :
    withoutMargin (trimEnd (style.gutter ++ line)) = trimEnd line := by
  rw [trimEnd_append]
  split
  · rename_i hblank
    rw [hblank]
    cases style <;> rfl
  · exact withoutMargin_style style _

/-- What is read of a line does not depend on the style of the comment. -/
theorem withoutGutter_style (style : CommentStyle) (line : List Char) :
    withoutGutter (style.gutter ++ line) = withoutEnd line := by
  rw [withoutGutter, withoutOpening_style, withoutEnd]
  by_cases hclosed : ['*', '/'] <:+ trimEnd line
  · obtain ⟨before, hbefore⟩ := hclosed
    have hne : trimEnd line ≠ [] := by rw [← hbefore]; simp
    have hend : trimEnd (style.gutter ++ line) = (style.gutter ++ before) ++ ['*', '/'] := by
      rw [trimEnd_append, if_neg hne, ← hbefore, List.append_assoc]
    rw [withoutClosing_of_closed hend, withoutMargin_trimEnd_style,
      withoutClosing_of_closed hbefore.symm]
  · have hopen : ¬ ['*', '/'] <:+ trimEnd (style.gutter ++ line) := by
      rw [trimEnd_append]
      split
      · cases style <;> decide
      · exact unclosed_append (by cases style <;> decide) (by cases style <;> decide) hclosed
    rw [withoutClosing_of_unclosed hopen, withoutClosing_of_unclosed hclosed, withoutMargin_style]

end Comment

end ApiCatalog
