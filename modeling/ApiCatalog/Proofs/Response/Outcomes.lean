import ApiCatalog.Proofs.Response.Parsing

/-!
# What becomes of a response

A text that is not blank passes all steps that expand the shorthand (`applied_eq`); what it is
decoded to decides what becomes of it (`parse_outcome`). So a response is dropped only if its tag is
blank or its JSON is empty, and every failure is one of decoding.
-/

namespace ApiCatalog.Response

open ApiCatalog.Json (Value)
open ApiCatalog.Quoting

/-- The content of a tag on one line. -/
def collapsed (content : String) : List Char := Text.collapse content.toList

/-- The text that the steps before the last make of the content of a tag. -/
def expanded (content : String) : List Char := expand (collapsed content)

/-- The values that describe no response. -/
def emptyValues : List Value := [.string "", .array [], .object []]

theorem isEmpty_iff_mem (v : Value) : v.isEmpty = true ↔ v ∈ emptyValues := by
  cases v <;> simp [Value.isEmpty, emptyValues]

theorem isNull_iff (v : Value) : v.isNull = true ↔ v = .null := by
  cases v <;> simp [Value.isNull]

/-! ## The empty text -/

theorem substitute_nil {searcher : Searcher} (h : searcher.find? [] 0 = none)
    (replacement : Replacement) : substitute searcher replacement [] = [] := by
  rw [substitute, substituteFrom_of_find_none h]
  rfl

theorem expand_nil : expand [] = [] := by
  have hlist : expandListTypes [] = [] := substitute_nil rfl _
  have hkeys : quoteKeys [] = [] := substitute_nil rfl _
  have hfields : expandTypedFields [] = [] := substitute_nil rfl _
  have hobjects : expandTypedObjects [] = [] := substitute_nil rfl _
  have htypes : expandNamedTypes [] = [] := substitute_nil rfl _
  simp [expand, expansions, hlist, hkeys, hfields, hobjects, htypes]

/-! ## The steps that a run applies -/

/-- A run applies all steps, or the first only if the text is blank. -/
theorem applied_eq (content : String) :
    pipeline.applied content =
      if collapsed content = [] then ["newlines"] else pipeline.stepNames := by
  have happlied : pipeline.applied content = Pipeline.appliedSteps steps (.text content) := rfl
  rw [happlied, steps_eq, List.cons_append, Pipeline.appliedSteps, Step.onText_text, ← collapsed]
  by_cases h : collapsed content = []
  · simp [h, Draft.isEmpty]
  · simp only [Draft.isEmpty_text_of_ne_nil h, Bool.false_eq_true, if_false, h]
    -- the last step is applied, whatever it makes of the text
    have hlast : ∀ draft, Pipeline.appliedSteps [("decode", Step.decoding)] draft = ["decode"] := by
      intro draft
      rw [Pipeline.appliedSteps]
      cases Step.decoding draft <;> simp [Pipeline.appliedSteps]
    rw [Pipeline.appliedSteps_onText (fun _ hstep _ ht => expansion_ne_nil hstep ht) _ h, hlast]
    rfl

/-- The steps before the last fail on no text. -/
theorem run_dropLast (content : String) :
    (Pipeline.mk "response" steps.dropLast).run content =
      .ok (.text (String.ofList (expanded content))) := by
  have hsteps : steps.dropLast = ("newlines", .onText Text.collapse) ::
      (expansions.map fun expansion => (expansion.1, Step.onText expansion.2)) ++ [] := rfl
  rw [Pipeline.run, hsteps, runSteps_expanding, expanded, collapsed]
  split
  · rename_i hblank
    rw [hblank, expand_nil]
  · rfl

theorem decoding_ne_text (draft : Draft) (s : String) : Step.decoding draft ≠ some (.text s) := by
  intro h
  obtain ⟨t, -, h⟩ := Option.bind_eq_some_iff.1 h
  obtain ⟨v, -, h⟩ := Option.bind_eq_some_iff.1 h
  split at h <;> simp at h

/-- What a run ends with is text only if the text is blank. -/
theorem run_eq_text_iff (content s : String) :
    pipeline.run content = .ok (.text s) ↔ collapsed content = [] ∧ s = "" := by
  rw [run_eq, ← collapsed]
  by_cases h : collapsed content = []
  · simp [h, eq_comm]
  · simp only [h, if_false, false_and, iff_false]
    intro hrun
    split at hrun
    · simp at hrun
    · rename_i draft hdraft
      exact decoding_ne_text _ s (Except.ok.inj hrun ▸ hdraft)

/-! ## The outcome -/

theorem parse_eq_decoded (content : String) :
    parse content = if collapsed content = [] then .ok none
      else decoded content (Value.read? (expanded content)) :=
  parse_eq content

section

variable (content : String)

theorem decoded_eq_none_iff {value : Option Value} :
    decoded content value = .ok none ↔ ∃ v ∈ emptyValues, value = some v := by
  cases value with
  | none => simp [decoded]
  | some v =>
    have hnull : v.isNull = true → v ∉ emptyValues := fun h => by
      rw [(isNull_iff v).1 h]
      simp [emptyValues]
    simp only [Option.some.injEq, exists_eq_right', ← isEmpty_iff_mem] at hnull ⊢
    cases hn : v.isNull <;> cases hv : v.isEmpty <;> simp_all [decoded]

theorem decoded_eq_some_iff {value : Option Value} {v : Value} :
    decoded content value = .ok (some v) ↔ value = some v ∧ v ≠ .null ∧ v ∉ emptyValues := by
  cases value with
  | none => simp [decoded]
  | some w =>
    rw [Ne, ← isNull_iff, ← isEmpty_iff_mem]
    cases hn : w.isNull <;> cases hv : w.isEmpty <;> simp [decoded, hn, hv] <;>
      rintro rfl <;> simp_all

theorem decoded_eq_error_iff {value : Option Value} {fault : Fault} :
    decoded content value = .error fault ↔ (value = none ∨ value = some .null) ∧
      fault = .unresolvedShorthand "decode" (String.ofList (Text.trim content.toList)) := by
  cases value with
  | none => simp [decoded, @eq_comm _ fault]
  | some w =>
    simp only [reduceCtorEq, false_or, Option.some.injEq, ← isNull_iff]
    cases hn : w.isNull with
    | true => simp [decoded, hn, @eq_comm _ fault]
    | false => simp [decoded, hn]

end

/-- A tag describes nothing if its content is blank or decoded to an empty value; else it describes
the value that it is decoded to, unless that is `null`; and in all other cases it fails, at the last
step and with its trimmed content. The steps before the last fail on no text. To a text that is not
blank all steps are applied, and they do not leave a text. -/
theorem parse_outcome (content : String) :
    (parse content = .ok none ↔
      collapsed content = [] ∨ ∃ v ∈ emptyValues, Value.read? (expanded content) = some v) ∧
    (∀ v, parse content = .ok (some v) ↔
      Value.read? (expanded content) = some v ∧ v ≠ .null ∧ v ∉ emptyValues) ∧
    (∀ fault, parse content = .error fault ↔ collapsed content ≠ [] ∧
      (Value.read? (expanded content) = none ∨ Value.read? (expanded content) = some .null) ∧
      fault = .unresolvedShorthand "decode" (String.ofList (Text.trim content.toList))) ∧
    (Pipeline.mk "response" steps.dropLast).run content =
      .ok (.text (String.ofList (expanded content))) ∧
    (pipeline.applied content = pipeline.stepNames ↔ collapsed content ≠ []) ∧
    ∀ s, pipeline.run content = .ok (.text s) ↔ collapsed content = [] ∧ s = "" := by
  have happlied : pipeline.applied content = pipeline.stepNames ↔ collapsed content ≠ [] := by
    rw [applied_eq]
    by_cases h : collapsed content = []
    · simp [h, Pipeline.stepNames, pipeline, steps]
    · simp [h]
  refine ⟨?_, fun v => ?_, fun fault => ?_, run_dropLast content, happlied,
    run_eq_text_iff content⟩
  all_goals
    rw [parse_eq_decoded]
    by_cases h : collapsed content = []
  · simp [h]
  · simp [h, decoded_eq_none_iff]
  · have hread : Value.read? (expanded content) = none := by
      rw [expanded, h, expand_nil]
      rfl
    simp [h, hread]
  · simp [h, decoded_eq_some_iff]
  · simp [h]
  · simp [h, decoded_eq_error_iff]

end ApiCatalog.Response
