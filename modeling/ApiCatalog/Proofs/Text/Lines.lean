import ApiCatalog.Text.Lines

/-!
# Lines that are put together and read again

A stretch without a separator is passed over as a whole, by `pieces` (`pieces_append`) and by
`lines` (`lines_append`). Parts that were joined by a separator are therefore read again
(`pieces_intercalate`), so the text decides them (`intercalate_inj`), and so are lines that were
joined by line feeds, up to a carriage return at the end of a line (`map_lines_intercalate`).
-/

namespace ApiCatalog.Text

theorem not_mem_of_mem_pieces {sep : Char} {cs p : List Char} (h : p ∈ pieces sep cs) :
    sep ∉ p := by
  induction cs generalizing p with
  | nil =>
    obtain rfl : p = [] := List.mem_singleton.1 h
    exact List.not_mem_nil
  | cons c cs ih =>
    by_cases hc : c = sep
    · rw [hc, pieces_cons_self] at h
      rcases List.mem_cons.1 h with rfl | h
      · exact List.not_mem_nil
      · exact ih h
    · cases hp : pieces sep cs with
      | nil => exact absurd hp (pieces_ne_nil sep cs)
      | cons q qs =>
        rw [pieces_cons_of_ne hc hp] at h
        rw [hp] at ih
        rcases List.mem_cons.1 h with rfl | h
        · simpa [Ne.symm hc] using ih List.mem_cons_self
        · exact ih (List.mem_cons_of_mem q h)

/-- A stretch without a separator is the start of the first piece. -/
theorem pieces_append {sep : Char} {a cs p : List Char} {ps : List (List Char)} (ha : sep ∉ a)
    (hcs : pieces sep cs = p :: ps) : pieces sep (a ++ cs) = (a ++ p) :: ps := by
  induction a with
  | nil => exact hcs
  | cons c a ih =>
    simp only [List.mem_cons, not_or] at ha
    exact pieces_cons_of_ne (Ne.symm ha.1) (ih ha.2)

/-- Pieces that were joined are read again. -/
theorem pieces_intercalate {sep : Char} {parts : List (List Char)} (hne : parts ≠ [])
    (h : ∀ part ∈ parts, sep ∉ part) : pieces sep ([sep].intercalate parts) = parts := by
  induction parts with
  | nil => exact absurd rfl hne
  | cons part parts ih =>
    have hpart := h part (by simp)
    cases parts with
    | nil => simpa using pieces_append hpart (pieces_nil sep)
    | cons next parts =>
      have hrest := ih (by simp) fun p hp => h p (by simp [hp])
      have hcut : pieces sep (sep :: [sep].intercalate (next :: parts)) = [] :: next :: parts := by
        rw [pieces_cons_self, hrest]
      simpa [List.intercalate_cons_cons] using pieces_append hpart hcut

section Joined

variable {sep : Char} {parts others : List (List Char)}

theorem intercalate_ne_nil (hne : parts ≠ []) (h : ∀ part ∈ parts, part ≠ [] ∧ sep ∉ part) :
    [sep].intercalate parts ≠ [] := by
  intro hempty
  have hpieces := pieces_intercalate hne fun part hpart => (h part hpart).2
  rw [hempty, pieces_nil] at hpieces
  exact (h [] (by simp [← hpieces])).1 rfl

/-- Parts that are not empty are decided by the text that they are joined to. -/
theorem intercalate_inj (h : ∀ part ∈ parts, part ≠ [] ∧ sep ∉ part)
    (hothers : ∀ part ∈ others, part ≠ [] ∧ sep ∉ part)
    (heq : [sep].intercalate parts = [sep].intercalate others) : parts = others := by
  by_cases hnone : parts = []
  · refine hnone.trans (Classical.byContradiction fun hne => ?_)
    rw [hnone, List.intercalate_nil] at heq
    exact intercalate_ne_nil (Ne.symm hne) hothers heq.symm
  · have hne : others ≠ [] := by
      intro hempty
      rw [hempty, List.intercalate_nil] at heq
      exact intercalate_ne_nil hnone h heq
    rw [← pieces_intercalate hnone fun part hpart => (h part hpart).2, heq,
      pieces_intercalate hne fun part hpart => (hothers part hpart).2]

theorem not_mem_intercalate {c : Char} (hsep : c ≠ sep) (h : ∀ part ∈ parts, c ∉ part) :
    c ∉ [sep].intercalate parts := by
  induction parts with
  | nil => simp
  | cons part parts ih =>
    cases parts with
    | nil => simpa using h
    | cons next parts =>
      have hrest := ih fun p hp => h p (by simp [hp])
      simp [List.intercalate_cons_cons, h part (by simp), hsep, hrest]

/-- What stands around the last occurrence of a separator is decided by the text. -/
theorem append_inj_of_last {a b a' b' : List Char} (hb : sep ∉ b) (hb' : sep ∉ b')
    (h : a ++ sep :: b = a' ++ sep :: b') : a = a' ∧ b = b' := by
  rcases List.append_eq_append_iff.1 h with ⟨between, ha, hrest⟩ | ⟨between, ha, hrest⟩
  all_goals
    cases between with
    | nil => simp_all
    | cons c between => simp_all

end Joined

theorem linesFrom_append (openLine : List Char) {l : List Char} (h : '\n' ∉ l)
    (rest : List Char) :
    linesFrom openLine (l ++ rest) = linesFrom (l.reverse ++ openLine) rest := by
  induction l generalizing openLine with
  | nil => rfl
  | cons c cs ih =>
    simp only [List.mem_cons, not_or] at h
    have hc : c ≠ '\n' := Ne.symm h.1
    rw [List.cons_append, linesFrom_cons_of_ne hc, ih (c :: openLine) h.2, List.reverse_cons,
      List.append_assoc, List.singleton_append]

/-- A line with a line feed after it is the first of the lines. -/
theorem lines_append {l : List Char} (h : '\n' ∉ l) (hreturn : l.getLast? ≠ some '\r')
    (rest : List Char) : lines (l ++ '\n' :: rest) = l :: lines rest := by
  rw [← List.head?_reverse] at hreturn
  rw [lines, linesFrom_append [] h, List.append_nil, linesFrom_feed hreturn, List.reverse_reverse,
    lines]

/-- A carriage return before a line feed belongs to the line end. -/
theorem lines_append_return {l : List Char} (h : '\n' ∉ l) (rest : List Char) :
    lines (l ++ ['\r'] ++ '\n' :: rest) = l :: lines rest := by
  have hreturn : '\r' ≠ '\n' := by decide
  rw [List.append_assoc, lines, linesFrom_append [] h, List.append_nil, List.singleton_append,
    linesFrom_cons_of_ne hreturn, linesFrom_return_feed, List.reverse_reverse, lines]

/-- Lines that were joined by line feeds are read again by a function that does not see a carriage
return at the end of a line, if the last is not empty. -/
theorem map_lines_intercalate {β : Type} (f : List Char → β) {ls : List (List Char)}
    (h : ∀ l ∈ ls, '\n' ∉ l) (hreturn : ∀ l, l ++ ['\r'] ∈ ls → f (l ++ ['\r']) = f l)
    (hlast : ls.getLast? ≠ some []) : (lines (['\n'].intercalate ls)).map f = ls.map f := by
  induction ls with
  | nil => rfl
  | cons l ls ih =>
    have hl := h l (by simp)
    cases ls with
    | nil =>
      have hne : l ≠ [] := by simpa using hlast
      have hopen := linesFrom_append [] hl []
      rw [List.append_nil, List.append_nil] at hopen
      rw [List.intercalate_singleton, lines, hopen,
        linesFrom_nil_of_ne_nil (by simpa using hne), List.reverse_reverse]
    | cons k ks =>
      have hrest := ih (fun m hm => h m (by simp [hm])) (fun m hm => hreturn m (by simp [hm]))
        (by simpa using hlast)
      rw [List.intercalate_cons_cons, List.append_assoc, List.singleton_append]
      by_cases hend : l.getLast? = some '\r'
      · obtain ⟨start, rfl⟩ := List.getLast?_eq_some_iff.1 hend
        rw [lines_append_return (by simp_all), List.map_cons, List.map_cons, hrest,
          hreturn start (by simp)]
      · rw [lines_append hl hend, List.map_cons, List.map_cons, hrest]

/-- Lines that were joined by line feeds are read again as they were, if no carriage return ends one
of them and the last is not empty. -/
theorem lines_intercalate {ls : List (List Char)}
    (h : ∀ l ∈ ls, '\n' ∉ l ∧ l.getLast? ≠ some '\r') (hlast : ls.getLast? ≠ some []) :
    lines (['\n'].intercalate ls) = ls := by
  have hread := map_lines_intercalate id (fun l hl => (h l hl).1)
    (fun l hl => absurd (by simp) (h _ hl).2) hlast
  rwa [List.map_id, List.map_id] at hread

end ApiCatalog.Text
