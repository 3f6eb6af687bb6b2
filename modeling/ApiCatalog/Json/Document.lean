import ApiCatalog.Json.Token
import ApiCatalog.Json.Value
import ApiCatalog.OrderedMap

/-!
# JSON documents

A document is a JSON text read for its structure alone: object members are kept as often as they
are written, numbers as numerals and strings as pieces. It is assembled from tokens by a machine
whose stack holds the open arrays and objects, so nesting is not limited here.

A value is what a document says if it is taken at its word: numbers are in range, the units of
strings pair up, nesting is limited, and of equal keys the last one counts, at the place of the
first. A reader of records, on the other hand, can ignore parts of a document that have no value.
-/

namespace ApiCatalog.Json

open ApiCatalog.Number (Numeral)

/-- The structure of a JSON text. -/
inductive Document where
  | null
  | bool (b : Bool)
  | number (n : Numeral)
  | string (pieces : List StringPiece)
  | array (items : List Document)
  | object (members : List (List StringPiece × Document))
deriving Repr, Inhabited

namespace Document

/-! ## Assembly from tokens -/

/-- An open array or object: the parts before the open one, most recent first. -/
inductive Frame where
  | array (items : List Document)
  | object (members : List (List StringPiece × Document)) (key : List StringPiece)

/-- What may come next. The stack holds what is open, innermost first. -/
inductive Assembly where
  /-- A value must come. -/
  | value (stack : List Frame)
  /-- A value must come, or the end of an array without items. -/
  | firstItem (stack : List Frame)
  /-- A key must come, or the end of an object without members. -/
  | firstKey (stack : List Frame)
  /-- A key must come, after the members so far. -/
  | key (stack : List Frame) (members : List (List StringPiece × Document))
  /-- The colon after a key must come. -/
  | colon (stack : List Frame) (members : List (List StringPiece × Document))
      (key : List StringPiece)
  /-- A document has ended. -/
  | done (stack : List Frame) (result : Document)

/-- The document that a bare word is. -/
def ofBare? (word : List Char) : Option Document :=
  if word = "null".toList then some .null
  else if word = "true".toList then some (.bool true)
  else if word = "false".toList then some (.bool false)
  else (Numeral.ofChars? word).map .number

namespace Assembly

/-- Reads the first token of a value. -/
def beginValue (stack : List Frame) : Token → Option Assembly
  | .mark .openArray => some (.firstItem stack)
  | .mark .openObject => some (.firstKey stack)
  | .mark _ => none
  | .string pieces => some (.done stack (.string pieces))
  | .bare word => (ofBare? word).map (.done stack)

/-- Reads a token after the end of a document. -/
def proceed (result : Document) : List Frame → Token → Option Assembly
  | .array items :: stack, .mark .comma => some (.value (.array (result :: items) :: stack))
  | .array items :: stack, .mark .closeArray =>
    some (.done stack (.array (result :: items).reverse))
  | .object members k :: stack, .mark .comma => some (.key stack ((k, result) :: members))
  | .object members k :: stack, .mark .closeObject =>
    some (.done stack (.object ((k, result) :: members).reverse))
  | _, _ => none

/-- Reads one token; `none` if it cannot stand there. -/
def step : Assembly → Token → Option Assembly
  | .value stack, t => beginValue stack t
  | .firstItem stack, .mark .closeArray => some (.done stack (.array []))
  | .firstItem stack, t => beginValue (.array [] :: stack) t
  | .firstKey stack, .mark .closeObject => some (.done stack (.object []))
  | .firstKey stack, .string k => some (.colon stack [] k)
  | .firstKey _, _ => none
  | .key stack members, .string k => some (.colon stack members k)
  | .key _ _, _ => none
  | .colon stack members k, .mark .colon => some (.value (.object members k :: stack))
  | .colon _ _ _, _ => none
  | .done stack result, t => proceed result stack t

/-- Reads a row of tokens. -/
def run (s : Assembly) (ts : List Token) : Option Assembly := ts.foldlM step s

/-- The document, if exactly one was read to its end. -/
def finish? : Assembly → Option Document
  | .done [] result => some result
  | _ => none

@[simp] theorem run_nil (s : Assembly) : s.run [] = some s := rfl

@[simp] theorem run_cons (s : Assembly) (t : Token) (ts : List Token) :
    s.run (t :: ts) = (s.step t).bind fun u => u.run ts := rfl

/-- A row of tokens may be read in parts. -/
theorem run_append (s : Assembly) (ts us : List Token) :
    s.run (ts ++ us) = (s.run ts).bind fun u => u.run us := by
  simp only [run, List.foldlM_append]
  rfl

end Assembly

/-- The document that a row of tokens is. -/
def ofTokens? (ts : List Token) : Option Document :=
  ((Assembly.value []).run ts).bind Assembly.finish?

/-- Reads a text. -/
def read? (cs : List Char) : Option Document := (tokens? cs).bind ofTokens?

/-! ## Values of documents -/

/-- The characters of a string whose units pair up: a unit from `0xD800` to `0xDBFF` must be
followed by one from `0xDC00` to `0xDFFF`, which stands nowhere else. -/
def characters? : List StringPiece → Option (List Char)
  | [] => some []
  | .char c :: rest => (characters? rest).map (c :: ·)
  | .unit n :: rest =>
    if n < 0xD800 ∨ 0xE000 ≤ n then (characters? rest).map (Char.ofNat n :: ·)
    else if 0xDC00 ≤ n then none
    else match rest with
      | .unit m :: rest =>
        if 0xDC00 ≤ m ∧ m < 0xE000 then
          (characters? rest).map
            (Char.ofNat (0x10000 + (n - 0xD800) * 0x400 + (m - 0xDC00)) :: ·)
        else none
      | _ => none

/-- The string that pieces make up. -/
def text? (pieces : List StringPiece) : Option String := (characters? pieces).map String.ofList

mutual

/-- How many arrays and objects stand inside one another. -/
def depth : Document → Nat
  | .array items => depthOfItems items + 1
  | .object members => depthOfMembers members + 1
  | _ => 0

/-- The greatest depth of an item. -/
def depthOfItems : List Document → Nat
  | [] => 0
  | d :: ds => max (depth d) (depthOfItems ds)

/-- The greatest depth of a member. -/
def depthOfMembers : List (List StringPiece × Document) → Nat
  | [] => 0
  | (_, d) :: ms => max (depth d) (depthOfMembers ms)

end

mutual

/-- What the document says, at any depth. -/
def meaning? : Document → Option Value
  | .null => some .null
  | .bool b => some (.bool b)
  | .number n => (Number.ofNumeral? n).map .number
  | .string pieces => (text? pieces).map .string
  | .array items => (meanings? items).map .array
  | .object members => (memberMeanings? [] members).map .object

/-- What the items say. -/
def meanings? : List Document → Option (List Value)
  | [] => some []
  | d :: ds => do
    let v ← meaning? d
    let vs ← meanings? ds
    pure (v :: vs)

/-- What the members say, after `before`. -/
def memberMeanings? (before : List (String × Value)) :
    List (List StringPiece × Document) → Option (List (String × Value))
  | [] => some before
  | (k, d) :: ms => do
    let key ← text? k
    let v ← meaning? d
    memberMeanings? (upsert key v before) ms

end

/-- The deepest nesting of a value. -/
def depthLimit : Nat := 127

/-- The value that the document is, if it has one. -/
def value? (d : Document) : Option Value := if d.depth ≤ depthLimit then d.meaning? else none

end Document

/-- Reads the value that a text is. -/
def Value.read? (cs : List Char) : Option Value := (Document.read? cs).bind Document.value?

/-! ## Documents of values -/

namespace Value

/-- The numeral of a number as it is written. -/
def numeralOf (n : Number) : Numeral :=
  (Numeral.ofChars? n.write).getD ⟨false, [0], none, none⟩

/-- The pieces of a string. -/
def piecesOf (s : String) : List StringPiece := s.toList.map .char

mutual

/-- The document that says a value. -/
def toDocument : Value → Document
  | .null => .null
  | .bool b => .bool b
  | .number n => .number (numeralOf n)
  | .string s => .string (piecesOf s)
  | .array items => .array (toDocuments items)
  | .object members => .object (toMembers members)

/-- The documents that say values. -/
def toDocuments : List Value → List Document
  | [] => []
  | v :: vs => toDocument v :: toDocuments vs

/-- The members that say named values. -/
def toMembers : List (String × Value) → List (List StringPiece × Document)
  | [] => []
  | (k, v) :: ms => (piecesOf k, toDocument v) :: toMembers ms

end

end Value

end ApiCatalog.Json
