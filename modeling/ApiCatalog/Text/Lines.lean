/-!
# Lines and separated pieces

`lines` reads a text as the lines of a file: a line feed ends a line, a carriage return just
before it belongs to the line end, and no empty line follows the last line end. `pieces` cuts at
every occurrence of a separator and keeps empty pieces.
-/

namespace ApiCatalog.Text

/-- The lines of a text whose characters so far, most recent first, belong to an open line. -/
def linesFrom (openLine : List Char) : List Char → List (List Char)
  | [] => if openLine.isEmpty then [] else [openLine.reverse]
  | c :: cs =>
    if c = '\n' then
      (match openLine with
        | '\r' :: before => before.reverse
        | before => before.reverse) :: linesFrom [] cs
    else linesFrom (c :: openLine) cs

/-- The lines of a text, without their line ends. -/
def lines (cs : List Char) : List (List Char) := linesFrom [] cs

/-- The stretches between the occurrences of `sep`, one more than there are occurrences. -/
def pieces (sep : Char) : List Char → List (List Char)
  | [] => [[]]
  | c :: cs =>
    if c = sep then [] :: pieces sep cs
    else match pieces sep cs with
      | [] => [[c]]
      | p :: ps => (c :: p) :: ps

theorem linesFrom_cons_of_ne {openLine cs : List Char} {c : Char} (hc : c ≠ '\n') :
    linesFrom openLine (c :: cs) = linesFrom (c :: openLine) cs :=
  if_neg hc

/-- A line feed ends the open line. -/
theorem linesFrom_feed {openLine : List Char} (h : openLine.head? ≠ some '\r') (cs : List Char) :
    linesFrom openLine ('\n' :: cs) = openLine.reverse :: linesFrom [] cs := by
  rw [linesFrom, if_pos rfl]
  rintro before rfl
  exact h rfl

/-- A carriage return before a line feed belongs to the line end. -/
theorem linesFrom_return_feed (openLine cs : List Char) :
    linesFrom ('\r' :: openLine) ('\n' :: cs) = openLine.reverse :: linesFrom [] cs :=
  if_pos rfl

theorem linesFrom_nil_of_ne_nil {openLine : List Char} (h : openLine ≠ []) :
    linesFrom openLine [] = [openLine.reverse] :=
  if_neg (by simpa using h)

theorem pieces_nil (sep : Char) : pieces sep [] = [[]] := rfl

theorem pieces_cons_self (sep : Char) (cs : List Char) :
    pieces sep (sep :: cs) = [] :: pieces sep cs :=
  if_pos rfl

theorem pieces_cons_of_ne {sep c : Char} {cs p : List Char} {ps : List (List Char)} (hc : c ≠ sep)
    (h : pieces sep cs = p :: ps) : pieces sep (c :: cs) = (c :: p) :: ps := by
  rw [pieces, if_neg hc, h]

theorem pieces_ne_nil (sep : Char) (cs : List Char) : pieces sep cs ≠ [] := by
  induction cs with
  | nil => exact List.cons_ne_nil _ _
  | cons c cs ih =>
    by_cases hc : c = sep
    · rw [hc, pieces_cons_self]
      exact List.cons_ne_nil _ _
    · obtain ⟨p, ps, h⟩ := List.exists_cons_of_ne_nil ih
      rw [pieces_cons_of_ne hc h]
      exact List.cons_ne_nil _ _

/-- The pieces, joined by the separator again, are the text. -/
theorem intercalate_pieces (sep : Char) (cs : List Char) :
    [sep].intercalate (pieces sep cs) = cs := by
  induction cs with
  | nil => rfl
  | cons c cs ih =>
    have hne := pieces_ne_nil sep cs
    cases hp : pieces sep cs with
    | nil => exact absurd hp hne
    | cons p ps =>
      rw [hp] at ih
      by_cases h : c = sep
      · subst h
        rw [pieces_cons_self, hp, ← ih]
        simp [List.intercalate]
      · rw [pieces_cons_of_ne h hp, ← ih]
        cases ps <;> simp [List.intercalate]

end ApiCatalog.Text
