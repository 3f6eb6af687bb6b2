import ApiCatalog.Text.Blank
import Mathlib.Data.List.TakeWhile

/-!
# Trimmed texts

Trimming cuts off blanks at either end and nothing else. What is cut off at the end of a text is
decided by the end of the text (`trimEnd_append`), and what is left does not end in a blank
(`trimEnd_eq_nil_or`). A text is nothing but blanks, or blanks around a text that neither begins nor
ends with one (`exists_trim`, `bounded_trim`).
-/

namespace ApiCatalog.Text

variable {c : Char} {cs : List Char}

/-- What is left of a text after its end is cut off is nothing or ends in a non-blank character. -/
theorem trimEnd_eq_nil_or (cs : List Char) :
    trimEnd cs = [] ∨ ∃ start c, trimEnd cs = start ++ [c] ∧ isBlank c = false := by
  have hhead := List.head?_dropWhile_not isBlank cs.reverse
  rw [trimEnd]
  cases hdrop : cs.reverse.dropWhile isBlank with
  | nil => exact .inl rfl
  | cons c rest =>
    rw [hdrop] at hhead
    exact .inr ⟨rest.reverse, c, by simp, hhead⟩

@[simp] theorem trimEnd_trimEnd (cs : List Char) : trimEnd (trimEnd cs) = trimEnd cs := by
  rcases trimEnd_eq_nil_or cs with hnil | ⟨start, c, hend, hc⟩
  · rw [hnil, trimEnd_nil]
  · rw [hend, trimEnd_append_of_not_blank hc]

theorem trimEnd_append (a cs : List Char) :
    trimEnd (a ++ cs) = if trimEnd cs = [] then trimEnd a else a ++ trimEnd cs := by
  simp only [trimEnd, List.reverse_append, List.dropWhile_append, List.isEmpty_iff,
    List.reverse_eq_nil_iff]
  split <;> simp

theorem trimEnd_of_not_blank (h : ∀ c ∈ cs, isBlank c = false) : trimEnd cs = cs := by
  rcases List.eq_nil_or_concat cs with rfl | ⟨start, c, rfl⟩
  · rfl
  · rw [List.concat_eq_append]
    exact trimEnd_append_of_not_blank (h c (by simp))

/-- The last character of a text without a blank at its end. -/
theorem getLast?_ne_of_trimEnd (h : trimEnd cs = cs) (hc : isBlank c = true) :
    cs.getLast? ≠ some c := by
  intro hlast
  rcases trimEnd_eq_nil_or cs with hnil | ⟨start, d, hend, hd⟩
  · rw [← h, hnil] at hlast
    simp at hlast
  · rw [← h, hend, List.getLast?_concat, Option.some.injEq] at hlast
    rw [hlast, hc] at hd
    exact absurd hd (by decide)

theorem trim_of_blank_cons (h : isBlank c = true) : trim (c :: cs) = trim cs := by
  simp [trim, trimStart, h]

theorem trim_eq_trimEnd (h : trimStart cs = cs) : trim cs = trimEnd cs := by
  rw [trim, h]

/-- The start of a text that has no blank at its start. -/
theorem trimStart_of_append {a b : List Char} (h : trimStart (a ++ b) = a ++ b) :
    trimStart a = a := by
  cases a with
  | nil => rfl
  | cons c a =>
    by_cases hc : isBlank c = true
    · have hle := (trimStart_suffix (a ++ b)).length_le
      have hdrop : trimStart (c :: a ++ b) = trimStart (a ++ b) := by simp [trimStart, hc]
      rw [← hdrop, h, List.cons_append, List.length_cons] at hle
      omega
    · exact trimStart_cons_of_not_blank (by simpa using hc)

/-- A text that trimming leaves alone has no blank at its start. -/
theorem trimStart_eq_self (h : trim cs = cs) : trimStart cs = cs := by
  have hend : (trim cs).length ≤ (trimStart cs).length := (trimEnd_isInitial _).length_le
  rw [h] at hend
  exact (trimStart_suffix cs).eq_of_length_le hend

/-! ## Texts put together -/

@[simp] theorem trimStart_trimStart (cs : List Char) : trimStart (trimStart cs) = trimStart cs := by
  induction cs with
  | nil => rfl
  | cons c cs ih =>
    by_cases hc : isBlank c = true
    · simpa [trimStart, hc] using ih
    · simp [trimStart, hc]

/-- A text that is more than blanks decides alone what is cut off at its start. -/
theorem trimStart_append {a : List Char} (h : trimStart a ≠ []) (cs : List Char) :
    trimStart (a ++ cs) = trimStart a ++ cs := by
  rw [trimStart] at h ⊢
  simp [trimStart, List.dropWhile_append, h]

theorem trimStart_append_of_blank {a : List Char} (h : trimStart a = []) (cs : List Char) :
    trimStart (a ++ cs) = trimStart cs := by
  rw [trimStart] at h
  simp [trimStart, List.dropWhile_append, h]

/-- The blanks at the start of a text can be cut off before more text is put to its end. -/
theorem trimStart_append_trimStart (a cs : List Char) :
    trimStart (trimStart a ++ cs) = trimStart (a ++ cs) := by
  by_cases hblank : trimStart a = []
  · rw [hblank, trimStart_append_of_blank hblank, List.nil_append]
  · have hagain := trimStart_trimStart a
    rw [trimStart_append hblank, trimStart_append (by rw [hagain]; exact hblank), hagain]

/-- A blank at the end of a text is cut off. -/
theorem trim_append_of_blank (h : isBlank c = true) : trim (cs ++ [c]) = trim cs := by
  have hstart : trimStart [c] = [] := by simp [trimStart, h]
  have hend : trimEnd [c] = [] := by simp [trimEnd, h]
  rw [trim, trim]
  by_cases hblank : trimStart cs = []
  · rw [trimStart_append_of_blank hblank, hstart, hblank]
  · rw [trimStart_append hblank, trimEnd_append, if_pos hend]

/-- More text at the end leaves what a text begins with. -/
theorem trim_isInitial_append (a cs : List Char) : trim a <+: trim (a ++ cs) := by
  rw [trim, trim]
  by_cases hblank : trimStart a = []
  · rw [hblank]
    exact List.nil_prefix
  · rw [trimStart_append hblank, trimEnd_append]
    split
    · exact List.prefix_rfl
    · exact (trimEnd_isInitial _).trans (List.prefix_append _ _)

/-! ## What is cut off -/

theorem exists_trimStart (cs : List Char) :
    ∃ before, cs = before ++ trimStart cs ∧ ∀ c ∈ before, isBlank c = true :=
  ⟨cs.takeWhile isBlank, List.takeWhile_append_dropWhile.symm,
    fun _ hc => List.mem_takeWhile_imp hc⟩

theorem exists_trimEnd (cs : List Char) :
    ∃ after, cs = trimEnd cs ++ after ∧ ∀ c ∈ after, isBlank c = true := by
  obtain ⟨before, hcs, hbefore⟩ := exists_trimStart cs.reverse
  refine ⟨before.reverse, ?_, by simpa using hbefore⟩
  rw [← List.reverse_inj, hcs]
  simp [trimEnd, trimStart]

/-- Trimming cuts off blanks only. -/
theorem exists_trim (cs : List Char) :
    ∃ before after, cs = before ++ trim cs ++ after ∧ (∀ c ∈ before, isBlank c = true) ∧
      ∀ c ∈ after, isBlank c = true := by
  obtain ⟨before, hstart, hbefore⟩ := exists_trimStart cs
  obtain ⟨after, hend, hafter⟩ := exists_trimEnd (trimStart cs)
  exact ⟨before, after, by rw [List.append_assoc, trim, ← hend, ← hstart], hbefore, hafter⟩

/-- Trimming leaves nothing exactly of a text of blanks. -/
theorem trim_eq_nil_iff : trim cs = [] ↔ ∀ c ∈ cs, isBlank c = true := by
  constructor
  · intro h
    obtain ⟨before, after, hcs, hbefore, hafter⟩ := exists_trim cs
    rw [h, List.append_nil] at hcs
    rw [hcs]
    exact List.forall_mem_append.2 ⟨hbefore, hafter⟩
  · intro h
    have hstart : trimStart cs = [] := List.dropWhile_eq_nil_iff.2 h
    rw [trim, hstart, trimEnd_nil]

/-- A text that begins and ends with characters that are no blanks. -/
def Bounded (cs : List Char) : Prop :=
  (∃ c rest, cs = c :: rest ∧ isBlank c = false) ∧ ∃ rest c, cs = rest ++ [c] ∧ isBlank c = false

theorem Bounded.ne_nil (h : Bounded cs) : cs ≠ [] := by
  obtain ⟨⟨c, rest, rfl, -⟩, -⟩ := h
  exact List.cons_ne_nil c rest

theorem Bounded.first (h : Bounded cs) : ∀ c ∈ cs.head?, isBlank c = false := by
  obtain ⟨⟨c, rest, rfl, hc⟩, -⟩ := h
  rintro d ⟨⟩
  exact hc

/-- What trimming leaves of a text is nothing or bounded. -/
theorem bounded_trim (h : trim cs ≠ []) : Bounded (trim cs) := by
  refine ⟨?_, ?_⟩
  · have hstart : trimStart (trim cs) = trim cs := by
      obtain ⟨after, hend, -⟩ := exists_trimEnd (trimStart cs)
      have hagain := trimStart_trimStart cs
      rw [hend] at hagain
      exact trimStart_of_append hagain
    obtain ⟨c, rest, hcs⟩ := List.exists_cons_of_ne_nil h
    refine ⟨c, rest, hcs, ?_⟩
    have hhead := List.head?_dropWhile_not isBlank (trim cs)
    rw [trimStart] at hstart
    rw [hstart, hcs] at hhead
    exact hhead
  · rcases trimEnd_eq_nil_or (trimStart cs) with hnil | hend
    · exact absurd hnil h
    · exact hend

/-- Trimming cuts off all blanks around a bounded text. -/
theorem trim_blanks_bounded {before after : List Char} (hbefore : ∀ c ∈ before, isBlank c = true)
    (h : Bounded cs) (hafter : ∀ c ∈ after, isBlank c = true) :
    trim (before ++ cs ++ after) = cs := by
  obtain ⟨⟨c, rest, hfirst, hc⟩, rest', d, hlast, hd⟩ := h
  have hstart : trimStart (before ++ cs ++ after) = cs ++ after := by
    rw [trimStart, List.append_assoc, List.dropWhile_append_of_pos hbefore, hfirst,
      List.cons_append, List.dropWhile_cons, if_neg (by simp [hc])]
  have hnone : trimEnd after = [] := by
    have hdrop : after.reverse.dropWhile isBlank = [] :=
      List.dropWhile_eq_nil_iff.2 fun c hc => hafter c (List.mem_reverse.1 hc)
    rw [trimEnd, hdrop, List.reverse_nil]
  rw [trim, hstart, trimEnd_append, if_pos hnone, hlast, trimEnd_append_of_not_blank hd]

end ApiCatalog.Text
