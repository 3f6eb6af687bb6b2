import ApiCatalog.Json.Document

/-!
# Pipelines of named steps

The content of a tag passes through steps, each of which changes it, decodes it or fails. What
passes is a draft: text, or the value it was decoded to. A pipeline is assembled once, from an
order of step names and a table that says what each does. A run ends early, and successfully, at
the first draft that holds nothing.
-/

namespace ApiCatalog

open ApiCatalog.Json (Value)

/-- The content of a tag between two steps. -/
inductive Draft where
  /-- Text, perhaps partly expanded. -/
  | text (s : String)
  /-- The value that the text was decoded to. -/
  | value (v : Value)
deriving Repr, DecidableEq, Inhabited

namespace Draft

/-- Whether the draft holds nothing: no text, or an empty string, array or object. -/
def isEmpty : Draft → Bool
  | .text s => s.isEmpty
  | .value v => v.isEmpty

/-- The text of a draft that was not decoded yet. -/
def text? : Draft → Option String
  | .text s => some s
  | .value _ => none

/-- The value of a draft that was decoded. -/
def value? : Draft → Option Value
  | .text _ => none
  | .value v => some v

end Draft

/-- What a step makes of a draft; `none` if it can make nothing of it. -/
abbrev Step := Draft → Option Draft

namespace Step

/-- The step that changes text. It fails on a decoded draft. -/
def onText (f : List Char → List Char) : Step := fun draft =>
  draft.text?.map fun s => .text (String.ofList (f s.toList))

/-- The step that decodes text to a value other than `null`. It fails on a decoded draft. -/
def decoding : Step := fun draft => do
  let s ← draft.text?
  let v ← Value.read? s.toList
  if v.isNull then none else some (.value v)

@[simp] theorem onText_text (f : List Char → List Char) (s : String) :
    onText f (.text s) = some (.text (String.ofList (f s.toList))) := rfl

end Step

/-- Why a pipeline could not be assembled or run. -/
inductive PipelineError where
  /-- The order names a step that the table does not have. -/
  | unknownStep (pipeline step : String)
  /-- A step could make nothing of its draft. -/
  | failedStep (pipeline step : String)
deriving Repr, DecidableEq

namespace PipelineError

/-- The wording of the error. -/
def message : PipelineError → String
  | .unknownStep pipeline step => "pipeline `" ++ pipeline ++ "` has no step named `" ++ step ++ "`"
  | .failedStep pipeline step =>
    "format is invalid, pipeline `" ++ pipeline ++ "` failed at step `" ++ step ++ "`"

/-- The step that the error is about. -/
def step : PipelineError → String
  | .unknownStep _ step => step
  | .failedStep _ step => step

end PipelineError

/-- Named steps in the order in which they run. -/
structure Pipeline where
  name : String
  steps : List (String × Step)

namespace Pipeline

/-- The steps that an order of names stands for: for each name the first of the table. -/
def resolve (name : String) (table : List (String × Step)) :
    List String → Except PipelineError (List (String × Step))
  | [] => .ok []
  | step :: order =>
    match table.lookup step with
    | none => .error (.unknownStep name step)
    | some f => (resolve name table order).map ((step, f) :: ·)

/-- Assembles a pipeline. -/
def assemble (name : String) (order : List String) (table : List (String × Step)) :
    Except PipelineError Pipeline :=
  (resolve name table order).map (Pipeline.mk name)

/-- The names of the steps in order. -/
def stepNames (p : Pipeline) : List String := p.steps.map Prod.fst

/-- Runs steps one after the other, up to the first draft that holds nothing. -/
def runSteps (name : String) : List (String × Step) → Draft → Except PipelineError Draft
  | [], draft => .ok draft
  | (step, f) :: steps, draft =>
    match f draft with
    | none => .error (.failedStep name step)
    | some next => if next.isEmpty then .ok next else runSteps name steps next

/-- Runs the pipeline on the content of a tag. -/
def run (p : Pipeline) (content : String) : Except PipelineError Draft :=
  runSteps p.name p.steps (.text content)

/-- The names of the steps that a run applies. -/
def appliedSteps : List (String × Step) → Draft → List String
  | [], _ => []
  | (step, f) :: steps, draft =>
    step :: match f draft with
      | none => []
      | some next => if next.isEmpty then [] else appliedSteps steps next

/-- The names of the steps that a run on the content of a tag applies. -/
def applied (p : Pipeline) (content : String) : List String :=
  appliedSteps p.steps (.text content)

end Pipeline

end ApiCatalog
