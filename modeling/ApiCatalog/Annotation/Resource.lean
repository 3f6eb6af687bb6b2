import ApiCatalog.Fault
import ApiCatalog.Text.Blank

/-!
# Resource names

A `@resource` tag names the resource that an endpoint belongs to: plain text is one name, and
quoted names separated by commas are a path of names, outermost first.

    Price lists
    "Shop", "Orders", "Refunds"

The content is wrapped until it is the text of an array of strings, and then decoded.
-/

namespace ApiCatalog.Resource

open ApiCatalog.Json (Value)

/-- Whether a text starts with one character and ends with another that stands apart from it. -/
def isDelimited (first last : Char) (cs : List Char) : Bool :=
  2 ≤ cs.length && cs.head? == some first && cs.getLast? == some last

/-- Text without quotes at its ends becomes a quoted string. -/
def quoted (cs : List Char) : List Char :=
  if isDelimited '"' '"' cs then cs else Json.quote cs

/-- Text without brackets at its ends gets them. -/
def bracketed (cs : List Char) : List Char :=
  if isDelimited '[' ']' cs then cs else '[' :: cs ++ [']']

/-- The string that a value is. -/
def name? : Value → Option String
  | .string s => some s
  | _ => none

/-- Decodes text to a list of strings. -/
def decodeNames : Step := fun draft =>
  match Step.decoding draft with
  | some (.value (.array items)) =>
    if items.all fun item => (name? item).isSome then some (.value (.array items)) else none
  | _ => none

/-- The steps in order. -/
def steps : List (String × Step) :=
  [("wrapInQuotes", .onText quoted),
   ("wrapInArrayBrackets", .onText bracketed),
   ("decode", decodeNames)]

/-- The pipeline from the content of a tag to a list of names. -/
def pipeline : Pipeline := ⟨"resource", steps⟩

/-- The fault of a resource tag. -/
def fault (problem : TagProblem) : Fault := .malformedTag "resource" problem

/-- The resource path that the content of a tag names, outermost name first. -/
def parse (content : String) : Except Fault (List String) :=
  let trimmed := Text.trim content.toList
  if trimmed.isEmpty then .error (fault .noResourceName)
  else match pipeline.run (String.ofList trimmed) with
    | .error error => .error (fault (.pipeline error))
    | .ok (.value (.array items)) => .ok (items.filterMap name?)
    | .ok _ => .error (fault .notAList)

end ApiCatalog.Resource
