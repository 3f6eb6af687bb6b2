import ApiCatalog.Proofs.Response.Reading

/-!
# String literals in the response shorthand

A string literal is a shape, and no expansion changes it. The first step does: it collapses blanks
wherever they stand. A written string escapes the blanks below the space; every run of the others
becomes a single space (`parse_quote`), and the string is read back exactly if that changes nothing.
-/

namespace ApiCatalog.Response

open ApiCatalog.Json
open ApiCatalog.Text

/-! ## Blanks in written strings -/

/-- A blank that a written string holds as it is. -/
def isRawBlank (c : Char) : Bool := isBlank c && 32 ≤ c.toNat

theorem escape_of_isRawBlank {c : Char} (h : isRawBlank c = true) : escape c = [c] := by
  simp only [isRawBlank, Bool.and_eq_true, decide_eq_true_eq] at h
  exact escape_of_plain (ne_of_isBlank h.1 (by decide)) (ne_of_isBlank h.1 (by decide)) h.2

/-- The escapes below the space hold no blank. -/
theorem not_blank_hexDigit {n : Nat} (h : n < 32) :
    isBlank (hexDigit (n / 16)) = false ∧ isBlank (hexDigit (n % 16)) = false := by
  have hall : ∀ n < 32, isBlank (hexDigit (n / 16)) = false ∧
      isBlank (hexDigit (n % 16)) = false := by decide
  exact hall n h

/-- Every other character is written without blanks. -/
theorem any_isBlank_escape {c : Char} (h : isRawBlank c = false) :
    (escape c).any isBlank = false := by
  unfold escape
  iterate 7
    split
    · decide
  split
  · rename_i h32
    obtain ⟨hhigh, hlow⟩ := not_blank_hexDigit h32
    simp only [List.any_cons, hhigh, hlow]
    decide
  · rename_i h32
    have hc : isBlank c = false := by
      simpa [isRawBlank, Nat.not_lt.1 h32] using h
    simp [hc]

theorem oneSpaced_append_of_not_blank {afterBlank : Bool} {u : List Char} (hne : u ≠ [])
    (h : ∀ c ∈ u, isBlank c = false) (cs : List Char) :
    oneSpaced isBlank afterBlank (u ++ cs) = u ++ oneSpaced isBlank false cs := by
  induction u generalizing afterBlank with
  | nil => exact absurd rfl hne
  | cons c u ih =>
    have hc : ¬ isBlank c = true := by simp [h c (by simp)]
    rw [List.cons_append, oneSpaced, if_neg hc]
    by_cases hu : u = []
    · simp [hu]
    · rw [ih hu fun d hd => h d (by simp [hd])]
      rfl

theorem escape_ne_nil (c : Char) : escape c ≠ [] := by
  unfold escape
  repeat' split
  all_goals simp

/-- Blanks of a written string are collapsed where they stand in the string. -/
theorem oneSpaced_escape (afterBlank : Bool) (cs : List Char) :
    oneSpaced isBlank afterBlank (cs.flatMap escape) =
      (oneSpaced isRawBlank afterBlank cs).flatMap escape := by
  induction cs generalizing afterBlank with
  | nil => rfl
  | cons c cs ih =>
    rw [List.flatMap_cons, oneSpaced]
    cases hc : isRawBlank c with
    | true =>
      have hblank : isBlank c = true := (Bool.and_eq_true_iff.1 hc).1
      have hspace : escape ' ' = [' '] := by decide
      rw [escape_of_isRawBlank hc, List.singleton_append, oneSpaced, if_pos hblank, ih]
      cases afterBlank <;> simp [hspace]
    | false =>
      rw [oneSpaced_append_of_not_blank (escape_ne_nil c) (by simpa using any_isBlank_escape hc), ih]
      simp

theorem collapse_quote (cs : List Char) :
    collapse (quote cs) = quote (oneSpaced isRawBlank false cs) := by
  have hquote : isBlank '"' = false := by decide
  have hbody := spaced_append hquote false ('"' :: cs.flatMap escape) []
  have hopen : oneSpaced isBlank false ('"' :: cs.flatMap escape) =
      '"' :: (oneSpaced isRawBlank false cs).flatMap escape := by
    rw [oneSpaced, if_neg (by decide), oneSpaced_escape]
  rw [hopen] at hbody
  rw [collapse_eq, quote, trimStart_cons_of_not_blank hquote, ← List.cons_append, hbody]
  rfl

/-! ## Parsing a written string -/

/-- A written string with its blanks collapsed is a literal of the shorthand. -/
theorem exists_literal (cs : List Char) :
    ∃ l : Literal, l.text = quote (oneSpaced isRawBlank false cs) ∧
      l.chars = oneSpaced isRawBlank false cs := by
  obtain ⟨gs, htext, hchars, -⟩ := exists_glyphs (oneSpaced isRawBlank false cs)
  have htidy : Tidy isBlank (glyphsText gs) := by
    rw [htext, ← oneSpaced_escape]
    exact (tidy_oneSpaced (by decide) false).1
  refine ⟨⟨gs, htidy⟩, ?_, hchars⟩
  show quoteGlyphs gs = _
  rw [quoteGlyphs, htext, quote]

theorem oneSpaced_ne_nil {cs : List Char} (h : cs ≠ []) : oneSpaced isRawBlank false cs ≠ [] := by
  obtain ⟨c, cs, rfl⟩ := List.exists_cons_of_ne_nil h
  rw [oneSpaced]
  split <;> simp

/-- A written string that is not empty is parsed to the string with each run of its blanks, from
the space on, replaced by one space. -/
theorem parse_quote_eq {cs : List Char} (hcs : cs ≠ []) :
    parse (String.ofList (quote cs)) =
      .ok (some (.string (String.ofList (oneSpaced isRawBlank false cs)))) := by
  obtain ⟨l, htext, hchars⟩ := exists_literal cs
  have hlayout : Layout isSpace (Shape.text l).phrases l.text := .single gap_nil (.literal l)
  rw [parse_eq, String.toList_ofList, collapse_quote, if_neg (by simp [quote]), ← htext,
    Shape.read?_expand rfl hlayout, Shape.value?_document]
  show decoded _ (some (.string l.string)) = _
  rw [Literal.string, hchars]
  simp [decoded, Value.isNull, Value.isEmpty, oneSpaced_ne_nil hcs]

/-- A written string that is not empty is parsed to itself with its blanks collapsed, so it is
parsed to itself exactly if its only blanks from the space on are spaces, no two of them side by
side. -/
theorem parse_quote (s : String) (hs : s ≠ "") :
    parse (String.ofList (quote s.toList)) =
        .ok (some (.string (String.ofList (oneSpaced isRawBlank false s.toList)))) ∧
      (parse (String.ofList (quote s.toList)) = .ok (some (.string s)) ↔
        Tidy isRawBlank s.toList) := by
  have hparse := parse_quote_eq fun h => hs (String.toList_inj.1 h)
  refine ⟨hparse, ?_⟩
  rw [hparse, ← oneSpaced_eq_self_iff (by decide)]
  constructor
  · intro h
    simp only [Except.ok.injEq, Option.some.injEq, Value.string.injEq] at h
    exact String.ofList_injective (h.trans String.ofList_toList.symm)
  · intro h
    rw [h, String.ofList_toList]

theorem parse_quote_of_tidy :
    "a b" ≠ "" ∧ parse (String.ofList (quote "a b".toList)) = .ok (some (.string "a b")) := by
  have hne : "a b" ≠ "" := by decide
  exact ⟨hne, (parse_quote "a b" hne).2.2 ((oneSpaced_eq_self_iff (by decide)).1 (by decide))⟩

/-- Two spaces inside a written string become one. -/
theorem parse_quote_two_spaces :
    parse (String.ofList (quote "a  b".toList)) = .ok (some (.string "a b")) ∧ "a b" ≠ "a  b" := by
  refine ⟨?_, by decide⟩
  have hcollapse : oneSpaced isRawBlank false "a  b".toList = "a b".toList := by decide
  rw [parse_quote_eq (by decide), hcollapse]
  rfl

end ApiCatalog.Response
