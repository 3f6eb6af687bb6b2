import ApiCatalog.Json.Document

/-!
# Reading records from documents

A record is written as an object, whose members may come in any order, or as an array of its
fields in their declared order. Members with unknown names are ignored, whatever they hold, but no
known name may come twice; an array may leave out fields at its end. `Record.read?` sorts what is
written by field, and the readers below it say what each field may hold.
-/

namespace ApiCatalog.Json

/-- A reader of documents. -/
abbrev Reader (α : Type) := Document → Option α

namespace Reader

variable {α : Type}

/-- Reads a string. -/
def string : Reader String
  | .string pieces => Document.text? pieces
  | _ => none

/-- Reads a truth value. -/
def bool : Reader Bool
  | .bool b => some b
  | _ => none

/-- Reads an array, item by item. -/
def list (item : Reader α) : Reader (List α)
  | .array items => items.mapM item
  | _ => none

/-- Reads `null`, or what another reader reads. -/
def nullable (reader : Reader α) : Reader (Option α)
  | .null => some none
  | d => (reader d).map some

/-- Reads an object with any keys, of which the last counts if some are equal. -/
def map (reader : Reader α) : Reader (OrderedMap α)
  | .object members => do
    let pairs ← members.mapM fun member => do
      let key ← Document.text? member.1
      let value ← reader member.2
      pure (key, value)
    pure (OrderedMap.ofList pairs)
  | _ => none

end Reader

/-- The fields of a record that are written, by name. -/
structure Record where
  fields : List (String × Document)
deriving Inhabited

namespace Record

/-- The members of an object whose names are known, if all keys are strings and no known one comes
twice. -/
def ofMembers? (names : List String) :
    List (List StringPiece × Document) → Option (List (String × Document))
  | [] => some []
  | (pieces, d) :: rest => do
    let key ← Document.text? pieces
    let fields ← ofMembers? names rest
    if key ∈ names then
      if (fields.lookup key).isSome then none else pure ((key, d) :: fields)
    else pure fields

/-- Reads a record with the given field names. -/
def read? (names : List String) : Document → Option Record
  | .object members => (ofMembers? names members).map Record.mk
  | .array items => if items.length ≤ names.length then some ⟨names.zip items⟩ else none
  | _ => none

variable {α : Type}

/-- The value of a field that must be written. -/
def required (record : Record) (name : String) (reader : Reader α) : Option α :=
  (record.fields.lookup name).bind reader

/-- The value of a field, or a default if it is not written. -/
def optional (record : Record) (name : String) (default : α) (reader : Reader α) : Option α :=
  match record.fields.lookup name with
  | none => some default
  | some d => reader d

end Record

end ApiCatalog.Json
