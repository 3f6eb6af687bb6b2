import ApiCatalog.Fault
import ApiCatalog.Quoting.Substitution
import ApiCatalog.Text.Blank
import ApiCatalog.Text.WordChar

/-!
# The response shorthand

A `@response` tag describes a response body in JSON with a shorthand for named types:

    money[]                  a list of `money`
    :: money                 a `money`
    { price :: money }       an object with a member `price` that is a `money`
    :: { price :: money }    an object of its own type, described by its members

Keys need no quotes. First all blanks are collapsed, then the shorthand is expanded to JSON in steps
that leave quoted text alone, and then the JSON is decoded; a named type becomes `{"$ref": …}`.
-/

namespace ApiCatalog.Response

open ApiCatalog.Json (Value)
open ApiCatalog.Quoting (substitute)
open ApiCatalog.Text (isBlank isWordChar)

/-! ## Patterns -/

/-- Blanks, perhaps none. -/
def blanks : Pattern := .many isBlank

/-- A word. -/
def word : Pattern := .atLeastOne isWordChar

/-- A word and a pair of brackets: the list of a named type. -/
def listType : Pattern := .chain [.group 1 word, .literal ['[', ']']]

/-- A word with one or two colons after it. -/
def keyAndColons : Pattern :=
  .chain [.group 1 word, blanks, .group 2 (.seq (.only ':') (.optional (.only ':')))]

/-- A word, two colons and a word: a member of a named type. -/
def typedField : Pattern :=
  .chain [.group 1 word, blanks, .literal [':', ':'], blanks, .group 2 word]

/-- Two colons and braces: an object of its own type. -/
def typedObject : Pattern :=
  .chain [.literal [':', ':'], blanks, .only '{', .group 1 (.many (· ≠ '\n')), .only '}']

/-- Two colons and a word: a named type. -/
def namedType : Pattern := .chain [blanks, .literal [':', ':'], blanks, .group 1 word]

/-! ## Expansion -/

/-- `T[]` becomes `[ :: T ]`. -/
def expandListTypes : List Char → List Char :=
  substitute listType.searcher fun captures =>
    "[ :: ".toList ++ captures.text 1 ++ " ]".toList

/-- `name:` becomes `"name":`, and `name ::` stays. -/
def quoteKeys : List Char → List Char :=
  substitute keyAndColons.searcher fun captures =>
    if captures.text 2 = [':', ':'] then captures.text 0
    else '"' :: captures.text 1 ++ ['"', ':']

/-- The text of a reference to what `target` says. -/
def referenceTo (target : List Char) : List Char :=
  "\x7b\"$ref\": ".toList ++ target ++ ['}']

/-- `name :: T` becomes `"name": {"$ref": "T"}`. -/
def expandTypedFields : List Char → List Char :=
  substitute typedField.searcher fun captures =>
    '"' :: captures.text 1 ++ "\": ".toList ++ referenceTo ('"' :: captures.text 2 ++ ['"'])

/-- `:: { … }` becomes `{"$ref": { … }}`. -/
def expandTypedObjects : List Char → List Char :=
  substitute typedObject.searcher fun captures =>
    referenceTo ('{' :: captures.text 1 ++ ['}'])

/-- `:: T` becomes `{"$ref": "T"}`. -/
def expandNamedTypes : List Char → List Char :=
  substitute namedType.searcher fun captures =>
    referenceTo ('"' :: captures.text 1 ++ ['"'])

/-! ## The pipeline -/

/-- The steps in order. -/
def steps : List (String × Step) :=
  [("newlines", .onText Text.collapse),
   ("shortArray", .onText expandListTypes),
   ("keyNames", .onText quoteKeys),
   ("varsOfType", .onText expandTypedFields),
   ("repeatedObject", .onText expandTypedObjects),
   ("types", .onText expandNamedTypes),
   ("decode", .decoding)]

/-- The pipeline from the content of a tag to the shape of a response. -/
def pipeline : Pipeline := ⟨"response", steps⟩

/-- The shape that the content of a tag describes, or `none` if it describes nothing. -/
def parse (content : String) : Except Fault (Option Value) :=
  match pipeline.run content with
  | .error error =>
    .error (.unresolvedShorthand error.step (String.ofList (Text.trim content.toList)))
  | .ok draft => .ok (if draft.isEmpty then none else draft.value?)

end ApiCatalog.Response
