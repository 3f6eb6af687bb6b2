import ApiCatalog.Proofs.Quoting.Preservation
import ApiCatalog.Proofs.Response.Matches
import ApiCatalog.Proofs.TextSteps

/-!
# What the parser of the response shorthand does

The parser collapses blanks, expands the shorthand step by step and decodes the result. No step
empties a text, so a run stops early only at a text of blanks (`parse_eq`).
-/

namespace ApiCatalog.Response

open ApiCatalog.Json (Value)
open ApiCatalog.Quoting
open ApiCatalog.Text (ne_of_isWordChar)

/-- The steps between the first and the last by name: those that expand the shorthand. -/
def expansions : List (String × (List Char → List Char)) :=
  [("shortArray", expandListTypes), ("keyNames", quoteKeys), ("varsOfType", expandTypedFields),
   ("repeatedObject", expandTypedObjects), ("types", expandNamedTypes)]

/-- The text after all expansions in order. -/
def expand (text : List Char) : List Char := expansions.foldl (fun t expansion => expansion.2 t) text

/-- What a value that was read, or its absence, makes of the content of a tag. -/
def decoded (content : String) : Option Value → Except Fault (Option Value)
  | none => .error (.unresolvedShorthand "decode" (String.ofList (Text.trim content.toList)))
  | some v =>
    if v.isNull then
      .error (.unresolvedShorthand "decode" (String.ofList (Text.trim content.toList)))
    else .ok (if v.isEmpty then none else some v)

theorem steps_eq :
    steps = ("newlines", .onText Text.collapse) ::
      (expansions.map fun expansion => (expansion.1, Step.onText expansion.2)) ++
        [("decode", .decoding)] := rfl

/-! ## No step empties a text -/

/-- No replacement begins with a colon. -/
theorem avoids_listType : Avoids ':' listType listTypeText := by
  intro part rest m _
  unfold listTypeText
  exact ⟨'[', _, rfl, by decide⟩

theorem avoids_keyAndColons : Avoids ':' keyAndColons keyText := by
  intro part rest m hm
  obtain ⟨w, b, colons, v, rfl, hw, -, hcolons, rfl⟩ := keyAndColons_matches hm
  rw [List.append_assoc, List.append_assoc, List.append_assoc]
  rcases hcolons with rfl | rfl
  · exact ⟨'"', _, keyText_captures_one w b _, by decide⟩
  · obtain ⟨c, cs, rfl⟩ := List.exists_cons_of_ne_nil hw.1
    refine ⟨c, _, keyText_captures_two _ b _, ?_⟩
    exact ne_of_isWordChar (hw.2 c (by simp)) (by decide)

theorem avoids_typedField : Avoids ':' typedField typedFieldText := by
  intro part rest m _
  exact ⟨'"', _, rfl, by decide⟩

theorem avoids_typedObject : Avoids ':' typedObject typedObjectText := by
  intro part rest m _
  exact ⟨'\x7b', _, referenceTo_eq _, by decide⟩

theorem avoids_namedType : Avoids ':' namedType namedTypeText := by
  intro part rest m _
  exact ⟨'\x7b', _, referenceTo_eq _, by decide⟩

theorem expansion_ne_nil {expansion : String × (List Char → List Char)}
    (h : expansion ∈ expansions) {text : List Char} (ht : text ≠ []) : expansion.2 text ≠ [] := by
  simp only [expansions, List.mem_cons, List.not_mem_nil, or_false] at h
  rcases h with rfl | rfl | rfl | rfl | rfl
  · show expandListTypes text ≠ []
    rw [expandListTypes_eq]
    exact rewrite_ne_nil avoids_listType ht
  · show quoteKeys text ≠ []
    rw [quoteKeys_eq]
    exact rewrite_ne_nil avoids_keyAndColons ht
  · show expandTypedFields text ≠ []
    rw [expandTypedFields_eq]
    exact rewrite_ne_nil avoids_typedField ht
  · show expandTypedObjects text ≠ []
    rw [expandTypedObjects_eq]
    exact rewrite_ne_nil avoids_typedObject ht
  · show expandNamedTypes text ≠ []
    rw [expandNamedTypes_eq]
    exact rewrite_ne_nil avoids_namedType ht

/-! ## The parser -/

/-- The steps but the last, and others after them: a text of blanks ends the run, and any other is
collapsed and expanded. -/
theorem runSteps_expanding (rest : List (String × Step)) (content : String) :
    Pipeline.runSteps "response" (("newlines", .onText Text.collapse) ::
        (expansions.map fun expansion => (expansion.1, Step.onText expansion.2)) ++ rest)
        (.text content) =
      if Text.collapse content.toList = [] then .ok (.text "")
      else Pipeline.runSteps "response" rest
        (.text (String.ofList (expand (Text.collapse content.toList)))) := by
  rw [List.cons_append, Pipeline.runSteps, Step.onText_text]
  by_cases h : Text.collapse content.toList = []
  · simp [h, Draft.isEmpty]
  · simp only [Draft.isEmpty_text_of_ne_nil h, Bool.false_eq_true, if_false, h]
    rw [Pipeline.runSteps_onText (fun _ hstep _ ht => expansion_ne_nil hstep ht) _ h _, ← expand]

/-- A run of the pipeline: what is not blank is collapsed, expanded and decoded. -/
theorem run_eq (content : String) :
    pipeline.run content =
      if Text.collapse content.toList = [] then .ok (.text "")
      else match Step.decoding
          (.text (String.ofList (expand (Text.collapse content.toList)))) with
        | none => .error (.failedStep "response" "decode")
        | some draft => .ok draft := by
  have hrun : pipeline.run content = Pipeline.runSteps "response" steps (.text content) := rfl
  rw [hrun, steps_eq, runSteps_expanding, Pipeline.runSteps]
  split
  · rfl
  · cases Step.decoding (.text (String.ofList (expand (Text.collapse content.toList)))) <;>
      simp [Pipeline.runSteps]

/-- The parser: what describes nothing is blank, and all else is collapsed, expanded and decoded. -/
theorem parse_eq (content : String) :
    parse content =
      if Text.collapse content.toList = [] then .ok none
      else decoded content (Value.read? (expand (Text.collapse content.toList))) := by
  rw [parse, run_eq]
  by_cases h : Text.collapse content.toList = []
  · simp [h, Draft.isEmpty]
  · rw [if_neg h, if_neg h]
    cases hread : Value.read? (expand (Text.collapse content.toList)) with
    | none => simp [Step.decoding, Draft.text?, hread, decoded, PipelineError.step]
    | some v =>
      cases hnull : v.isNull <;> cases hv : v.isEmpty <;>
        simp [Step.decoding, Draft.text?, hread, decoded, hnull, PipelineError.step, Draft.isEmpty,
          hv, Draft.value?]

end ApiCatalog.Response
