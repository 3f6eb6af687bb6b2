import ApiCatalog.Catalog.Digest
import ApiCatalog.Json.Value

/-!
# Entries of a catalog

An entry is the documentation of one endpoint. Its id depends on the address and the set of
request methods only.
-/

namespace ApiCatalog

/-- A placeholder of the address, documented. -/
structure PathParameter where
  name : String
  required : Bool
  typeName : Option String
  default : Option String
  /-- The pattern that values must match. -/
  constraint : Option String
  description : String
deriving Repr, DecidableEq

/-- A validated parameter of the query, documented. -/
structure QueryParameter where
  name : String
  default : Option String
  rules : List String
  description : String
deriving Repr, DecidableEq

/-- The documentation of one endpoint. -/
structure Entry where
  id : String
  /-- The names of the resource, outermost first. -/
  resource : List String
  uri : String
  methods : List String
  title : String
  description : String
  pathParameters : List PathParameter
  queryParameters : List QueryParameter
  /-- The shapes of the responses. -/
  responses : List Json.Value
deriving Repr, DecidableEq

namespace Entry

/-! ## Identity -/

/-- The text that the id of an entry is the digest of: the address and the sorted methods. -/
def identity (uri : String) (methods : List String) : String :=
  uri ++ ":" ++ ",".intercalate (methods.mergeSort fun a b => decide (a ≤ b))

/-- The id of the entry for an address and methods. -/
def idFor (uri : String) (methods : List String) : String :=
  Digest.hex (identity uri methods).toUTF8.toList

/-- The name of the section that the entry belongs to. -/
def sectionName (entry : Entry) : String := " / ".intercalate entry.resource

end Entry

/-! ## As JSON -/

/-- The texts as a JSON array. -/
def textArray (texts : List String) : Json.Value := .array (texts.map .string)

/-- The parameter as a JSON object. -/
def PathParameter.toJson (p : PathParameter) : Json.Value :=
  .object [("name", .string p.name), ("required", .bool p.required),
    ("type", .nullable p.typeName), ("default", .nullable p.default),
    ("regex", .nullable p.constraint), ("description", .string p.description)]

/-- The parameter as a JSON object. -/
def QueryParameter.toJson (p : QueryParameter) : Json.Value :=
  .object [("name", .string p.name), ("default", .nullable p.default),
    ("rules", textArray p.rules), ("description", .string p.description)]

/-- The entry as a JSON object. -/
def Entry.toJson (e : Entry) : Json.Value :=
  .object [("id", .string e.id), ("resource", textArray e.resource), ("uri", .string e.uri),
    ("methods", textArray e.methods), ("title", .string e.title),
    ("description", .string e.description),
    ("parameters", .object [("path", .array (e.pathParameters.map PathParameter.toJson)),
      ("query", .array (e.queryParameters.map QueryParameter.toJson))]),
    ("responses", .array e.responses)]

end ApiCatalog
