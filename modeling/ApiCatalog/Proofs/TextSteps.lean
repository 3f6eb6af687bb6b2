import ApiCatalog.Pipeline

/-!
# Steps on text

A pipeline stops early at a draft that holds nothing. So a row of steps of which none empties a text
is run as a whole (`runSteps_onText`), and all its steps are applied (`appliedSteps_onText`).
-/

namespace ApiCatalog

theorem Draft.isEmpty_text_of_ne_nil {text : List Char} (h : text ≠ []) :
    (Draft.text (String.ofList text)).isEmpty = false := by
  simpa [Draft.isEmpty] using h

namespace Pipeline

variable {row : List (String × (List Char → List Char))}
  (hrow : ∀ step ∈ row, ∀ text, text ≠ [] → step.2 text ≠ []) (rest : List (String × Step))
  {text : List Char} (ht : text ≠ [])

include hrow ht

/-- A row of steps that empty no text is run as a whole, before other steps. -/
theorem runSteps_onText (name : String) :
    runSteps name ((row.map fun step => (step.1, Step.onText step.2)) ++ rest)
        (.text (String.ofList text)) =
      runSteps name rest (.text (String.ofList (row.foldl (fun t step => step.2 t) text))) := by
  induction row generalizing text with
  | nil => rfl
  | cons step row ih =>
    have hstep := hrow step (by simp) text ht
    rw [List.map_cons, List.cons_append, runSteps, Step.onText_text, String.toList_ofList]
    simp only [Draft.isEmpty_text_of_ne_nil hstep, Bool.false_eq_true, if_false]
    exact ih (fun other h => hrow other (by simp [h])) hstep

/-- A row of steps that empty no text is applied as a whole, before other steps. -/
theorem appliedSteps_onText :
    appliedSteps ((row.map fun step => (step.1, Step.onText step.2)) ++ rest)
        (.text (String.ofList text)) =
      row.map Prod.fst ++
        appliedSteps rest (.text (String.ofList (row.foldl (fun t step => step.2 t) text))) := by
  induction row generalizing text with
  | nil => rfl
  | cons step row ih =>
    have hstep := hrow step (by simp) text ht
    rw [List.map_cons, List.cons_append, appliedSteps, Step.onText_text, String.toList_ofList]
    simp only [Draft.isEmpty_text_of_ne_nil hstep, Bool.false_eq_true, if_false]
    rw [ih (fun other h => hrow other (by simp [h])) hstep]
    rfl

end Pipeline

end ApiCatalog
