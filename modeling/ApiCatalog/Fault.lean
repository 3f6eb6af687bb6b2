import ApiCatalog.Pipeline

/-!
# Why an endpoint cannot be documented

Each fault belongs to one endpoint. The wording of a fault is in `message`; a fault of the rule
source has causes of its own, which `chain` adds.
-/

namespace ApiCatalog

/-- What is wrong with the content of a tag. -/
inductive TagProblem where
  /-- Fewer than three parts where a location, a name and a value are expected. -/
  | tooFewParts (content : String)
  /-- The first of three parts is no location. -/
  | unknownLocation (word : String)
  /-- A resource without a name. -/
  | noResourceName
  /-- A content that a pipeline did not accept. -/
  | pipeline (error : PipelineError)
  /-- A value that is not a list of names. -/
  | notAList
deriving Repr, DecidableEq

/-- The wording of the problem. -/
def TagProblem.message : TagProblem → String
  | .tooFewParts content => "expected `location name value`, got `" ++ content ++ "`"
  | .unknownLocation word =>
    "invalid parameter location `" ++ word ++ "`, expected `path` or `query`"
  | .noResourceName => "resource name not specified"
  | .pipeline error => error.message
  | .notAList => "expected a list of names"

/-- Why an endpoint cannot be documented. -/
inductive Fault where
  /-- The content of a tag does not have the form that its name asks for. -/
  | malformedTag (tag : String) (problem : TagProblem)
  /-- A response shorthand could not be resolved past a step. -/
  | unresolvedShorthand (step content : String)
  /-- The endpoint is served by an anonymous handler. -/
  | unsupportedHandler (action : String)
  /-- A placeholder is bound to a parameter without a declared type. -/
  | untypedParameter (name : String)
  /-- The source of validation rules failed, for the given causes, outermost first. -/
  | rulesUnavailable (causes : List String)
deriving Repr, DecidableEq

namespace Fault

/-- The wording of the fault. -/
def message : Fault → String
  | .malformedTag tag problem => "invalid @" ++ tag ++ " tag: " ++ problem.message
  | .unresolvedShorthand step content =>
    "response tag format is invalid, failed at step `" ++ step ++ "`: " ++ content
  | .unsupportedHandler action =>
    "unsupported handler for " ++ action ++ ": use a named handler method"
  | .untypedParameter name => "no type declared for path parameter `" ++ name ++ "`"
  | .rulesUnavailable _ => "failed to compute query validation rules"

/-- The causes behind the fault, outermost first. -/
def causes : Fault → List String
  | .rulesUnavailable causes => causes
  | _ => []

/-- The wording of the fault and of its causes. -/
def chain (fault : Fault) : String := ": ".intercalate (fault.message :: fault.causes)

/-- Whether the fault is to be expected of a route table and deserves no warning. -/
def isSilent : Fault → Bool
  | .unsupportedHandler _ => true
  | .untypedParameter _ => true
  | _ => false

end Fault

end ApiCatalog
