import ApiCatalog.Proofs.Text.Lines
import ApiCatalog.Proofs.Text.Trimming

/-!
# What a text shows

The visible characters of a text are those that are no blanks. They do not depend on how the text is
laid out: trimming it, joining it by blanks (`visible_intercalate`) and cutting it into lines
(`flatMap_visible_lines`) leave them as they are.
-/

namespace ApiCatalog.Text

/-- The characters of a text that are no blanks, in order. -/
def visible (cs : List Char) : List Char := cs.filter (!isBlank ·)

variable {c : Char} {cs : List Char}

@[simp] theorem visible_nil : visible [] = [] := rfl

@[simp] theorem visible_append (a cs : List Char) :
    visible (a ++ cs) = visible a ++ visible cs :=
  List.filter_append a cs

theorem visible_cons_of_blank (h : isBlank c = true) : visible (c :: cs) = visible cs :=
  List.filter_cons_of_neg (by simp [h])

theorem visible_cons_of_not_blank (h : isBlank c = false) : visible (c :: cs) = c :: visible cs :=
  List.filter_cons_of_pos (by simp [h])

theorem visible_eq_nil_iff : visible cs = [] ↔ ∀ c ∈ cs, isBlank c = true := by
  simp [visible, List.filter_eq_nil_iff]

/-! ## Layout -/

@[simp] theorem visible_trimStart (cs : List Char) : visible (trimStart cs) = visible cs := by
  obtain ⟨before, hcs, hbefore⟩ := exists_trimStart cs
  have hshown : visible (before ++ trimStart cs) = visible cs := by rw [← hcs]
  rw [← hshown, visible_append, visible_eq_nil_iff.2 hbefore, List.nil_append]

@[simp] theorem visible_trimEnd (cs : List Char) : visible (trimEnd cs) = visible cs := by
  obtain ⟨after, hcs, hafter⟩ := exists_trimEnd cs
  have hshown : visible (trimEnd cs ++ after) = visible cs := by rw [← hcs]
  rw [← hshown, visible_append, visible_eq_nil_iff.2 hafter, List.append_nil]

@[simp] theorem visible_trim (cs : List Char) : visible (trim cs) = visible cs := by
  rw [trim, visible_trimEnd, visible_trimStart]

/-- A blank between the parts of a text is not seen. -/
theorem visible_intercalate (h : isBlank c = true) (parts : List (List Char)) :
    visible ([c].intercalate parts) = parts.flatMap visible := by
  induction parts with
  | nil => rfl
  | cons part parts ih =>
    cases parts with
    | nil => simp
    | cons next parts =>
      have hsep : visible [c] = [] := visible_cons_of_blank h
      rw [List.intercalate_cons_cons, visible_append, visible_append, ih, hsep, List.append_nil]
      rfl

/-! ## Lines -/

/-- The line ends of a text are not seen, whatever the open line. -/
theorem flatMap_visible_linesFrom (openLine cs : List Char) :
    (linesFrom openLine cs).flatMap visible = visible openLine.reverse ++ visible cs := by
  have hfeed : isBlank '\n' = true := by decide
  have hreturn : isBlank '\r' = true := by decide
  induction cs generalizing openLine with
  | nil => cases openLine <;> simp [linesFrom]
  | cons c cs ih =>
    unfold linesFrom
    split
    · rename_i hc
      rw [List.flatMap_cons, ih, hc, visible_cons_of_blank hfeed]
      split
      · simp [visible_cons_of_blank hreturn]
      · simp
    · rw [ih, List.reverse_cons, visible_append, List.append_assoc, ← visible_append]
      rfl

/-- The lines of a text show what the text shows. -/
theorem flatMap_visible_lines (cs : List Char) : (lines cs).flatMap visible = visible cs :=
  flatMap_visible_linesFrom [] cs

end ApiCatalog.Text
