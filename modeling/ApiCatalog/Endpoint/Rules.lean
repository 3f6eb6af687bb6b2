import ApiCatalog.Endpoint.Basic
import ApiCatalog.Json.Value
import ApiCatalog.Text.Blank
import ApiCatalog.Text.Lines

/-!
# Validation rules of query parameters

The rules of a parameter are declared as one text with bars between the rules, or as a list. Where
they come from is left open: a source answers for a handler method, or fails for a chain of
causes.
-/

namespace ApiCatalog

/-- A declaration of the rules of one parameter. -/
inductive RuleDeclaration where
  /-- Rules in one text, with bars between them. -/
  | piped (text : String)
  | listed (rules : List String)
deriving Repr, DecidableEq

/-- The rules that are declared: pieces between bars are trimmed and dropped if they are empty, a
list is taken as it is. -/
def RuleDeclaration.rules : RuleDeclaration → List String
  | .piped text =>
    (((Text.pieces '|' text.toList).map Text.trim).filter (!·.isEmpty)).map String.ofList
  | .listed rules => rules

/-- The rules of query parameters by name. -/
abbrev RuleTable := OrderedMap (List String)

namespace RuleTable

/-- The rules that declarations make up, in order; the last declaration of a name counts. -/
def ofDeclarations (declarations : List (String × RuleDeclaration)) : RuleTable :=
  OrderedMap.ofList (declarations.map fun d => (d.1, d.2.rules))

/-- The rules as a JSON object. -/
def toJson (rules : RuleTable) : Json.Value :=
  .object (rules.entries.map fun entry => (entry.1, .array (entry.2.map .string)))

end RuleTable

/-- A source of rules: for a handler method its rules, or the causes of failure, outermost
first. -/
abbrev RuleProvider := HandlerMethod → Except (List String) RuleTable

namespace RuleProvider

/-- The source without rules. -/
def none : RuleProvider := fun _ => .ok .empty

/-- The source that always fails. -/
def failing (causes : List String) : RuleProvider := fun _ => .error causes

/-- The source that looks rules up by the action of the handler method. -/
def ofActions (table : OrderedMap RuleTable) : RuleProvider := fun m =>
  .ok ((table.get? m.action).getD .empty)

end RuleProvider

end ApiCatalog
