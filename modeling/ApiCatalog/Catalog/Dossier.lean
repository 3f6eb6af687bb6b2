import ApiCatalog.Annotation.ParameterNote
import ApiCatalog.Annotation.Resource
import ApiCatalog.Annotation.Response
import ApiCatalog.Catalog.Entry
import ApiCatalog.Endpoint.Basic
import ApiCatalog.Endpoint.Placeholder
import ApiCatalog.Endpoint.Rules
import ApiCatalog.Settings.Basic
import ApiCatalog.Text.Title

/-!
# Documenting one endpoint

A dossier is all that the entry of an endpoint is made from: the endpoint and its handler method,
the settings, and the notes on its parameters. Each part of the entry is read off the comments of
the method and of its owner, the declared parameters and the rules; the first part that fails
decides the fault.
-/

namespace ApiCatalog

open ApiCatalog.Json (Value)

/-- What the entry of an endpoint is made from. -/
structure Dossier where
  endpoint : Endpoint
  method : HandlerMethod
  settings : Settings
  /-- The descriptions of parameters. -/
  descriptions : NoteTable
  /-- The default values of parameters. -/
  defaults : NoteTable

namespace Dossier

/-- The dossier of an endpoint: its handler has to be a method, and all notes on parameters
readable. -/
def ofEndpoint (settings : Settings) (endpoint : Endpoint) : Except Fault Dossier :=
  match endpoint.handler.method? with
  | none => .error (.unsupportedHandler endpoint.handler.action)
  | some method => do
    let descriptions ← NoteTable.descriptions method.comments
    let defaults ← NoteTable.defaults method.comments
    pure { endpoint, method, settings, descriptions, defaults }

/-- The summary of the method's comment, or a title made from its name. -/
def title (dossier : Dossier) : String :=
  let summary := Text.trim dossier.method.comment.summary.toList
  if summary.isEmpty then Title.ofName dossier.method.name else String.ofList summary

/-- The body of the method's comment on one line. -/
def description (dossier : Dossier) : String :=
  String.ofList (Text.collapse dossier.method.comment.body.toList)

/-- The tag that names the resource: the first of the method's comment, else of its owner's. -/
def resourceTag? (method : HandlerMethod) : Option Tag :=
  method.comments.findSome? fun comment => comment.tagNamed? "resource"

/-- The resource path. -/
def resourcePath (dossier : Dossier) : Except Fault (List String) :=
  match resourceTag? dossier.method with
  | some tag => Resource.parse tag.content
  | none => .ok [dossier.settings.fallbackResource]

/-! ## Parameters -/

/-- The exposed type of a parameter that is bound to an entity. -/
def entityType : String := "model_id"

/-- The type of an entity that the parameter is bound to by its id. -/
def entityName? (p : Parameter) : Option String :=
  if p.entity && !p.builtin then p.typeName else none

/-- The exposed type of a declared parameter. -/
def exposedType? (p : Parameter) : Option String :=
  if (entityName? p).isSome then some entityType else p.typeName

/-- Whether a placeholder is bound to a parameter that ought to have a type. -/
def lacksType (dossier : Dossier) (name : String) : Bool :=
  dossier.settings.typeChecks &&
    (dossier.method.parameter? name).any fun p => p.typeName.isNone

/-- Documents the placeholder of a token. -/
def documentPlaceholder (dossier : Dossier) (token : String) : Except Fault PathParameter :=
  let name := Placeholder.name token
  let declared := dossier.method.parameter? name
  if dossier.lacksType name then .error (.untypedParameter name)
  else
    let noted := dossier.descriptions.get? .path name
    let ofEntity := (declared.bind entityName?).map fun t => "`" ++ t ++ "` id"
    .ok
      { name
        required := !Placeholder.isOptional token
        typeName := declared.bind exposedType?
        default := (declared.bind Parameter.default).or (dossier.defaults.get? .path name)
        constraint := dossier.endpoint.constraints.get? name
        description := (noted.or ofEntity).getD "" }

/-- Documents all placeholders, from left to right. -/
def documentPlaceholders (dossier : Dossier) : Except Fault (List PathParameter) :=
  (Placeholder.tokens dossier.endpoint.uri).mapM dossier.documentPlaceholder

/-- Documents a parameter of the query. -/
def documentRules (dossier : Dossier) (name : String) (rules : List String) : QueryParameter :=
  { name
    default := dossier.defaults.get? .query name
    rules
    description := (dossier.descriptions.get? .query name).getD "" }

/-- Documents the parameters of the query that have rules, in the order of the rules. -/
def documentQuery (dossier : Dossier) (provider : RuleProvider) :
    Except Fault (List QueryParameter) :=
  match provider dossier.method with
  | .error causes => .error (.rulesUnavailable causes)
  | .ok rules => .ok (rules.entries.map fun entry => dossier.documentRules entry.1 entry.2)

/-! ## Responses and the whole entry -/

/-- The shapes of the responses that the method's comment describes. -/
def responseShapes (dossier : Dossier) : Except Fault (List Value) := do
  let shapes ← (dossier.method.comment.tagsNamed "response").mapM fun tag =>
    Response.parse tag.content
  pure (shapes.filterMap id)

/-- The entry of a dossier. -/
def entry (dossier : Dossier) (provider : RuleProvider) : Except Fault Entry := do
  let methods := dossier.endpoint.methods
  let resource ← dossier.resourcePath
  let pathParameters ← dossier.documentPlaceholders
  let queryParameters ← dossier.documentQuery provider
  let responses ← dossier.responseShapes
  pure
    { id := Entry.idFor dossier.endpoint.uri methods
      resource
      uri := dossier.endpoint.uri
      methods
      title := dossier.title
      description := dossier.description
      pathParameters
      queryParameters
      responses }

end Dossier

end ApiCatalog
