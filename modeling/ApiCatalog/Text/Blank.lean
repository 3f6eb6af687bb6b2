import ApiCatalog.Text.CodePoints

/-!
# Blank characters, trimming and words

A blank is any white space of any script, line ends included. `words` cuts a text at its runs of
blanks and `collapse` joins the words again by single spaces, so the text of a tag can be laid out
over several lines without a change of meaning.
-/

namespace ApiCatalog.Text

/-- All blank characters. -/
def blankRuns : List Run :=
  [⟨0x0009, 0x000D, 1⟩, ⟨0x0020, 0x0020, 1⟩, ⟨0x0085, 0x0085, 1⟩, ⟨0x00A0, 0x00A0, 1⟩,
  ⟨0x1680, 0x1680, 1⟩, ⟨0x2000, 0x200A, 1⟩, ⟨0x2028, 0x2029, 1⟩, ⟨0x202F, 0x202F, 1⟩,
  ⟨0x205F, 0x205F, 1⟩, ⟨0x3000, 0x3000, 1⟩]

/-- Whether `c` is white space. -/
def isBlank (c : Char) : Bool := Run.covers blankRuns c.toNat

theorem ascending_blankRuns : Run.ascending blankRuns = true := by decide

theorem isBlank_of_isWhitespace {c : Char} (h : c.isWhitespace = true) : isBlank c = true := by
  simp only [Char.isWhitespace, Bool.or_eq_true, decide_eq_true_eq] at h
  rcases h with ((rfl | rfl) | rfl) | rfl <;> decide

/-! ## Trimming -/

/-- The text from its first non-blank character on. -/
def trimStart (cs : List Char) : List Char := cs.dropWhile isBlank

/-- The text up to its last non-blank character. -/
def trimEnd (cs : List Char) : List Char := (cs.reverse.dropWhile isBlank).reverse

/-- The text between its first and its last non-blank character. -/
def trim (cs : List Char) : List Char := trimEnd (trimStart cs)

@[simp] theorem trimStart_nil : trimStart [] = [] := rfl

@[simp] theorem trimEnd_nil : trimEnd [] = [] := rfl

@[simp] theorem trim_nil : trim [] = [] := rfl

theorem trimStart_cons_of_not_blank {c : Char} {cs : List Char} (h : isBlank c = false) :
    trimStart (c :: cs) = c :: cs := by
  simp [trimStart, h]

theorem trimEnd_append_of_not_blank {c : Char} {cs : List Char} (h : isBlank c = false) :
    trimEnd (cs ++ [c]) = cs ++ [c] := by
  simp [trimEnd, h]

/-- Cutting off the start leaves a tail of the text. -/
theorem trimStart_suffix (cs : List Char) : trimStart cs <:+ cs :=
  List.dropWhile_suffix isBlank

/-- Cutting off the end leaves an initial part of the text. -/
theorem trimEnd_isInitial (cs : List Char) : trimEnd cs <+: cs := by
  have h : cs.reverse.dropWhile isBlank <:+ cs.reverse := List.dropWhile_suffix isBlank
  simpa [trimEnd] using List.reverse_prefix.2 h

/-! ## Words -/

/-- The words of a text whose characters so far, most recent first, belong to an open word. -/
def wordsFrom (openWord : List Char) : List Char → List (List Char)
  | [] => if openWord.isEmpty then [] else [openWord.reverse]
  | c :: cs =>
    if isBlank c then
      if openWord.isEmpty then wordsFrom [] cs else openWord.reverse :: wordsFrom [] cs
    else wordsFrom (c :: openWord) cs

/-- The maximal runs of non-blank characters, in order. -/
def words (cs : List Char) : List (List Char) := wordsFrom [] cs

/-- The words joined by single spaces, with none at either end. -/
def collapse (cs : List Char) : List Char := [' '].intercalate (words cs)

@[simp] theorem words_nil : words [] = [] := rfl

@[simp] theorem collapse_nil : collapse [] = [] := rfl

theorem wordsFrom_ne_nil_of_open {w : List Char} (h : w ≠ []) (cs : List Char) :
    wordsFrom w cs ≠ [] := by
  induction cs generalizing w with
  | nil => simp [wordsFrom, h]
  | cons c cs ih =>
    by_cases hc : isBlank c
    · simp [wordsFrom, hc, h]
    · simpa [wordsFrom, hc] using ih (by simp)

/-- A text without words holds blanks only. -/
theorem words_eq_nil_iff {cs : List Char} : words cs = [] ↔ ∀ c ∈ cs, isBlank c = true := by
  induction cs with
  | nil => simp
  | cons c cs ih =>
    by_cases hc : isBlank c
    · simpa [words, wordsFrom, hc] using ih
    · simp [words, wordsFrom, hc, wordsFrom_ne_nil_of_open]

end ApiCatalog.Text
