import ApiCatalog.Text.Blank
import ApiCatalog.Text.WordChar

/-!
# Blanks and word characters

No blank is a word character, and the punctuation of the response shorthand is neither.
-/

namespace ApiCatalog.Text

/-- The code points of the blanks. -/
def blankPoints : List Nat :=
  [0x0009, 0x000A, 0x000B, 0x000C, 0x000D, 0x0020, 0x0085, 0x00A0, 0x1680, 0x2000, 0x2001, 0x2002,
    0x2003, 0x2004, 0x2005, 0x2006, 0x2007, 0x2008, 0x2009, 0x200A, 0x2028, 0x2029, 0x202F, 0x205F,
    0x3000]

theorem mem_blankPoints {c : Char} (h : isBlank c = true) : c.toNat ∈ blankPoints := by
  obtain ⟨r, hr, hc⟩ := (Run.covers_iff ascending_blankRuns c.toNat).1 h
  simp only [blankRuns, List.mem_cons, List.not_mem_nil, or_false] at hr
  simp only [blankPoints, List.mem_cons, List.not_mem_nil, or_false]
  obtain ⟨h1, h2, -⟩ := hc
  rcases hr with rfl | rfl | rfl | rfl | rfl | rfl | rfl | rfl | rfl | rfl <;>
    simp only at h1 h2 <;> omega

set_option maxRecDepth 2000 in
theorem isWordChar_of_isBlank {c : Char} (h : isBlank c = true) : isWordChar c = false := by
  have hall : ∀ n ∈ blankPoints, Run.covers wordRuns n = false := by decide
  exact hall c.toNat (mem_blankPoints h)

theorem isBlank_of_isWordChar {c : Char} (h : isWordChar c = true) : isBlank c = false := by
  cases hb : isBlank c with
  | false => rfl
  | true => rw [isWordChar_of_isBlank hb] at h; exact absurd h (by decide)

theorem ne_of_isWordChar {c d : Char} (h : isWordChar c = true) (hd : isWordChar d = false) :
    c ≠ d := by
  intro heq
  subst heq
  rw [h] at hd
  exact absurd hd (by decide)

theorem ne_of_isBlank {c d : Char} (h : isBlank c = true) (hd : isBlank d = false) : c ≠ d := by
  intro heq
  subst heq
  rw [h] at hd
  exact absurd hd (by decide)

end ApiCatalog.Text
