import ApiCatalog.Endpoint.Basic
import ApiCatalog.Json.Record

/-!
# Manifests

A manifest is the JSON form of a list of endpoints. Fields with a usual value may be left out, and
of the fields only names and declared types and defaults may be `null`. A handler is a record with
one more field, `kind`, that says which kind of handler it is; since the kind may be written last,
a handler is read for its value first, so all of it has to have one and it nests no deeper than a
value in its place.
-/

namespace ApiCatalog

open ApiCatalog.Json (Document Record Reader Value)

/-! ## Writing -/

/-- The tag as a JSON object. -/
def Tag.toJson (tag : Tag) : Value :=
  .object [("name", .string tag.name), ("content", .string tag.content)]

/-- The comment as a JSON object. -/
def Comment.toJson (comment : Comment) : Value :=
  .object [("short_text", .string comment.summary), ("long_text", .string comment.body),
    ("tags", .array (comment.tags.map Tag.toJson))]

/-- The parameter as a JSON object. -/
def Parameter.toJson (p : Parameter) : Value :=
  .object [("name", .string p.name), ("type_name", Value.nullable p.typeName),
    ("builtin", .bool p.builtin), ("entity", .bool p.entity), ("default", Value.nullable p.default)]

/-- The handler as a JSON object. -/
def Handler.toJson : Handler → Value
  | .method m =>
    .object [("kind", .string "method"), ("owner", .string m.owner), ("method", .string m.name),
      ("method_doc", m.comment.toJson), ("owner_doc", m.ownerComment.toJson),
      ("parameters", .array (m.parameters.map Parameter.toJson))]
  | .anonymous => .object [("kind", .string "anonymous")]

/-- The endpoint as a JSON object. -/
def Endpoint.toJson (e : Endpoint) : Value :=
  .object [("uri", .string e.uri), ("name", Value.nullable e.name),
    ("methods", .array (e.declaredMethods.map .string)),
    ("wheres", .object (e.constraints.entries.map fun entry => (entry.1, .string entry.2))),
    ("handler", e.handler.toJson)]

/-! ## Reading -/

/-- Reads a tag. -/
def Tag.ofDocument? (d : Document) : Option Tag := do
  let record ← Record.read? ["name", "content"] d
  let name ← record.required "name" Reader.string
  let content ← record.optional "content" "" Reader.string
  pure { name, content }

/-- Reads a comment. -/
def Comment.ofDocument? (d : Document) : Option Comment := do
  let record ← Record.read? ["short_text", "long_text", "tags"] d
  let summary ← record.optional "short_text" "" Reader.string
  let body ← record.optional "long_text" "" Reader.string
  let tags ← record.optional "tags" [] (Reader.list Tag.ofDocument?)
  pure { summary, body, tags }

/-- Reads a parameter. -/
def Parameter.ofDocument? (d : Document) : Option Parameter := do
  let record ← Record.read? ["name", "type_name", "builtin", "entity", "default"] d
  let name ← record.required "name" Reader.string
  let typeName ← record.optional "type_name" none (Reader.nullable Reader.string)
  let builtin ← record.optional "builtin" false Reader.bool
  let entity ← record.optional "entity" false Reader.bool
  let default ← record.optional "default" none (Reader.nullable Reader.string)
  pure { name, typeName, builtin, entity, default }

/-- Reads a handler method. -/
def HandlerMethod.ofDocument? (d : Document) : Option HandlerMethod := do
  let record ← Record.read? ["owner", "method", "method_doc", "owner_doc", "parameters"] d
  let owner ← record.required "owner" Reader.string
  let name ← record.required "method" Reader.string
  let comment ← record.optional "method_doc" {} Comment.ofDocument?
  let ownerComment ← record.optional "owner_doc" {} Comment.ofDocument?
  let parameters ← record.optional "parameters" [] (Reader.list Parameter.ofDocument?)
  pure { owner, name, comment, ownerComment, parameters }

/-- How deep a handler nests: two levels less than a value, for it stands in an endpoint in a
list. -/
def Handler.depthLimit : Nat := Document.depthLimit - 2

/-- The kind of a handler and the document of its other fields. In an array the kind comes
first. -/
def Handler.kindOf? : Document → Option (String × Document)
  | .object members => do
    let record ← Record.read? ["kind"] (.object members)
    let kind ← record.required "kind" Reader.string
    pure (kind, .object members)
  | .array (first :: rest) => do
    let kind ← Reader.string first
    pure (kind, .array rest)
  | _ => none

/-- Whether nothing follows the kind of an anonymous handler that would have to mean something. -/
def Handler.isBare : Document → Bool
  | .array items => items.isEmpty
  | _ => true

/-- Reads a handler. -/
def Handler.ofDocument? (d : Document) : Option Handler :=
  if d.depth ≤ Handler.depthLimit && d.meaning?.isSome then do
    let (kind, fields) ← Handler.kindOf? d
    if kind = "method" then (HandlerMethod.ofDocument? fields).map .method
    else if kind = "anonymous" && Handler.isBare fields then some .anonymous
    else none
  else none

/-- Reads an endpoint. -/
def Endpoint.ofDocument? (d : Document) : Option Endpoint := do
  let record ← Record.read? ["uri", "name", "methods", "wheres", "handler"] d
  let uri ← record.required "uri" Reader.string
  let name ← record.optional "name" none (Reader.nullable Reader.string)
  let declaredMethods ← record.required "methods" (Reader.list Reader.string)
  let constraints ← record.optional "wheres" .empty (Reader.map Reader.string)
  let handler ← record.required "handler" Handler.ofDocument?
  pure { uri, name, declaredMethods, constraints, handler }

namespace Manifest

/-- The text of a manifest. -/
def write (endpoints : List Endpoint) : List Char :=
  (Value.array (endpoints.map Endpoint.toJson)).write

/-- Reads a manifest. -/
def read? (text : List Char) : Option (List Endpoint) :=
  (Document.read? text).bind (Reader.list Endpoint.ofDocument?)

end Manifest

end ApiCatalog
