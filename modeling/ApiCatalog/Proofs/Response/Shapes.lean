import ApiCatalog.Proofs.Json.Integers
import ApiCatalog.Proofs.Response.Spelling

/-!
# Shapes

The grammar of the response shorthand: what a shape is, the row of phrases that writes it, and the
JSON value that it denotes. The document of a shape is the JSON text that it stands for, read for
its structure alone, so it keeps the members of an object that a later one overwrites.
-/

namespace ApiCatalog.Response

open ApiCatalog.Json
open ApiCatalog.Quoting
open ApiCatalog.Text

/-! ## The grammar -/

/-- A key of an object: a word, or a string literal. -/
inductive Key where
  | bare (w : Word)
  | quoted (l : Literal)

mutual

/-- The shape of a response body. -/
inductive Shape where
  | null
  | bool (b : Bool)
  | integer (n : Int) (fits : Fits64 n)
  | text (l : Literal)
  | array (items : List Shape)
  | object (fields : List Field)
  /-- `:: T` -/
  | named (t : Word)
  /-- `T[]` -/
  | listOf (t : Word)
  /-- An object of its own type, with two colons before its brace. -/
  | typed (fields : List Field)

/-- A field of an object. -/
inductive Field where
  /-- `key: shape` -/
  | member (k : Key) (s : Shape)
  /-- `name :: T` -/
  | typedName (n t : Word)

end

/-! ## Phrases -/

/-- A given text as a word. -/
def wordOf (text : String) (h : text.toList ≠ [] ∧ text.toList.all isWordChar = true) : Word :=
  ⟨text.toList, h.1, by simpa using h.2⟩

def nullWord : Word := wordOf "null" (by decide)

def trueWord : Word := wordOf "true" (by decide)

def falseWord : Word := wordOf "false" (by decide)

theorem isWordChar_of_isDigit {c : Char} (h : c.isDigit = true) : isWordChar c = true := by
  have hall : ∀ n, n < 58 → 48 ≤ n → Run.covers wordRuns n = true := by decide
  simp only [Char.isDigit, Bool.and_eq_true, decide_eq_true_eq] at h
  exact hall c.toNat (Nat.lt_succ_of_le h.2) h.1

/-- The digits of a number. -/
def digitWord (n : Nat) : Word :=
  ⟨Number.digitsOf n, digitsOf_ne_nil n, fun _ hc => isWordChar_of_isDigit (isDigit_digitsOf hc)⟩

/-- The phrase of an integer. -/
def integerPhrase (n : Int) : Phrase :=
  if n < 0 then .negative (digitWord n.natAbs) else .word (digitWord n.natAbs)

/-- The phrases of a key and the colon after it. -/
def Key.phrases : Key → List Phrase
  | bare w => [.key w]
  | quoted l => [.literal l, .mark .colon]

mutual

/-- The row of phrases that writes a shape. -/
def Shape.phrases : Shape → List Phrase
  | .null => [.word nullWord]
  | .bool b => [.word (if b then trueWord else falseWord)]
  | .integer n _ => [integerPhrase n]
  | .text l => [.literal l]
  | .array [] => [.mark .openArray, .mark .closeArray]
  | .array (s :: ss) =>
    .mark .openArray :: (s.phrases ++ (itemPhrases ss ++ [.mark .closeArray]))
  | .object [] => [.mark .openObject, .mark .closeObject]
  | .object (f :: fs) =>
    .mark .openObject :: (f.phrases ++ (fieldPhrases fs ++ [.mark .closeObject]))
  | .named t => [.namedType t]
  | .listOf t => [.listType t]
  | .typed [] => [.typedOpen, .mark .closeObject]
  | .typed (f :: fs) => .typedOpen :: (f.phrases ++ (fieldPhrases fs ++ [.mark .closeObject]))

/-- The items after the first, each after a comma. -/
def itemPhrases : List Shape → List Phrase
  | [] => []
  | s :: ss => .mark .comma :: (s.phrases ++ itemPhrases ss)

/-- The row of phrases that writes a field. -/
def Field.phrases : Field → List Phrase
  | .member k s => k.phrases ++ s.phrases
  | .typedName n t => [.typedField n t]

/-- The fields after the first, each after a comma. -/
def fieldPhrases : List Field → List Phrase
  | [] => []
  | f :: fs => .mark .comma :: (f.phrases ++ fieldPhrases fs)

end

/-- The items of an array. -/
def itemRow : List Shape → List Phrase
  | [] => []
  | s :: ss => s.phrases ++ itemPhrases ss

/-- The fields of an object. -/
def fieldRow : List Field → List Phrase
  | [] => []
  | f :: fs => f.phrases ++ fieldPhrases fs

theorem Shape.phrases_array (items : List Shape) :
    (Shape.array items).phrases = .mark .openArray :: (itemRow items ++ [.mark .closeArray]) := by
  cases items with
  | nil => rfl
  | cons s ss => rw [Shape.phrases, itemRow, List.append_assoc]

theorem Shape.phrases_object (fields : List Field) :
    (Shape.object fields).phrases =
      .mark .openObject :: (fieldRow fields ++ [.mark .closeObject]) := by
  cases fields with
  | nil => rfl
  | cons f fs => rw [Shape.phrases, fieldRow, List.append_assoc]

theorem Shape.phrases_typed (fields : List Field) :
    (Shape.typed fields).phrases = .typedOpen :: (fieldRow fields ++ [.mark .closeObject]) := by
  cases fields with
  | nil => rfl
  | cons f fs => rw [Shape.phrases, fieldRow, List.append_assoc]

theorem itemPhrases_eq {items : List Shape} (h : items ≠ []) :
    itemPhrases items = .mark .comma :: itemRow items := by
  cases items with
  | nil => exact absurd rfl h
  | cons s ss => rw [itemPhrases, itemRow]

theorem fieldPhrases_eq {fields : List Field} (h : fields ≠ []) :
    fieldPhrases fields = .mark .comma :: fieldRow fields := by
  cases fields with
  | nil => exact absurd rfl h
  | cons f fs => rw [fieldPhrases, fieldRow]

theorem fieldPhrases_append (fs gs : List Field) :
    fieldPhrases (fs ++ gs) = fieldPhrases fs ++ fieldPhrases gs := by
  induction fs with
  | nil => rfl
  | cons f fs ih => simp [fieldPhrases, ih]

theorem fieldRow_append {fs : List Field} (h : fs ≠ []) (gs : List Field) :
    fieldRow (fs ++ gs) = fieldRow fs ++ fieldPhrases gs := by
  cases fs with
  | nil => exact absurd rfl h
  | cons f fs => simp [fieldRow, fieldPhrases_append]

/-! ## Meaning -/

/-- The string that a key is. -/
def Key.literal : Key → Literal
  | bare w => w.quoted
  | quoted l => l

/-- The string that a literal says. -/
def Literal.string (l : Literal) : String := String.ofList l.chars

/-- The word as a string. -/
def Word.string (w : Word) : String := String.ofList w.chars

/-- The value of a reference to what `target` is. -/
def referenceValue (target : Value) : Value := .object [("$ref", target)]

mutual

/-- The value that a shape denotes. -/
def Shape.denote : Shape → Value
  | .null => .null
  | .bool b => .bool b
  | .integer n _ => .number (.integer n)
  | .text l => .string l.string
  | .array items => .array (denoteItems items)
  | .object fields => .object (denoteFields [] fields)
  | .named t => referenceValue (.string t.string)
  | .listOf t => .array [referenceValue (.string t.string)]
  | .typed fields => referenceValue (.object (denoteFields [] fields))

/-- The values that shapes denote. -/
def denoteItems : List Shape → List Value
  | [] => []
  | s :: ss => s.denote :: denoteItems ss

/-- The members that fields denote, after `before`: a key that is there already keeps its place and
gets the later value. -/
def denoteFields (before : List (String × Value)) : List Field → List (String × Value)
  | [] => before
  | .member k s :: fs => denoteFields (upsert k.literal.string s.denote before) fs
  | .typedName n t :: fs =>
    denoteFields (upsert n.string (referenceValue (.string t.string)) before) fs

end

/-! ## Documents -/

/-- What the scanner reads from a literal. -/
def Literal.pieces (l : Literal) : List StringPiece := glyphsPieces l.glyphs

/-- The document of a reference. -/
def referenceDocument (target : Document) : Document := .object [(refKey.pieces, target)]

mutual

/-- The document that a shape stands for. -/
def Shape.document : Shape → Document
  | .null => .null
  | .bool b => .bool b
  | .integer n _ => .number (Value.numeralOf (.integer n))
  | .text l => .string l.pieces
  | .array items => .array (itemDocuments items)
  | .object fields => .object (fieldDocuments fields)
  | .named t => referenceDocument (.string t.quoted.pieces)
  | .listOf t => .array [referenceDocument (.string t.quoted.pieces)]
  | .typed fields => referenceDocument (.object (fieldDocuments fields))

/-- The documents of items. -/
def itemDocuments : List Shape → List Document
  | [] => []
  | s :: ss => s.document :: itemDocuments ss

/-- The member that a field stands for. -/
def Field.document : Field → List StringPiece × Document
  | .member k s => (k.literal.pieces, s.document)
  | .typedName n t => (n.quoted.pieces, referenceDocument (.string t.quoted.pieces))

/-- The members of an object. -/
def fieldDocuments : List Field → List (List StringPiece × Document)
  | [] => []
  | f :: fs => f.document :: fieldDocuments fs

end

/-! ## What documents of shapes say -/

theorem Literal.text?_pieces (l : Literal) : Document.text? l.pieces = some l.string :=
  text?_glyphs l.glyphs

theorem Word.string_quoted (w : Word) : w.quoted.string = w.string := by
  rw [Literal.string, w.chars_quoted, Word.string]

theorem meaning?_reference {d : Document} {v : Value} (h : d.meaning? = some v) :
    (referenceDocument d).meaning? = some (referenceValue v) := by
  have hkey : Document.text? refKey.pieces = some "$ref" := rfl
  simp [referenceDocument, Document.meaning?, Document.memberMeanings?, hkey, h, upsert,
    referenceValue]

theorem meaning?_named (t : Word) :
    (referenceDocument (.string t.quoted.pieces)).meaning? =
      some (referenceValue (.string t.string)) := by
  refine meaning?_reference ?_
  rw [Document.meaning?, t.quoted.text?_pieces, t.string_quoted]
  rfl

mutual

/-- The document of a shape says what the shape denotes. -/
theorem Shape.meaning?_document (s : Shape) : s.document.meaning? = some s.denote := by
  cases s with
  | null => rfl
  | bool b => rfl
  | integer n fits =>
    rw [Shape.document, Document.meaning?, ofNumeral?_integer fits]
    rfl
  | text l =>
    rw [Shape.document, Document.meaning?, l.text?_pieces]
    rfl
  | array items =>
    rw [Shape.document, Document.meaning?, meanings?_itemDocuments items]
    rfl
  | object fields =>
    rw [Shape.document, Document.meaning?, memberMeanings?_fieldDocuments [] fields]
    rfl
  | named t => exact meaning?_named t
  | listOf t =>
    simp [Shape.document, Document.meaning?, Document.meanings?, meaning?_named, Shape.denote]
  | typed fields =>
    refine meaning?_reference ?_
    rw [Document.meaning?, memberMeanings?_fieldDocuments [] fields]
    rfl

theorem meanings?_itemDocuments (ss : List Shape) :
    Document.meanings? (itemDocuments ss) = some (denoteItems ss) := by
  cases ss with
  | nil => rfl
  | cons s ss =>
    simp [itemDocuments, Document.meanings?, s.meaning?_document, meanings?_itemDocuments ss,
      denoteItems]

theorem memberMeanings?_fieldDocuments (before : List (String × Value)) (fs : List Field) :
    Document.memberMeanings? before (fieldDocuments fs) = some (denoteFields before fs) := by
  match fs with
  | [] => rfl
  | .member k s :: fs =>
    simp [fieldDocuments, Field.document, Document.memberMeanings?, k.literal.text?_pieces,
      s.meaning?_document, memberMeanings?_fieldDocuments _ fs, denoteFields]
  | .typedName n t :: fs =>
    simp [fieldDocuments, Field.document, Document.memberMeanings?, n.quoted.text?_pieces,
      n.string_quoted, meaning?_named, memberMeanings?_fieldDocuments _ fs, denoteFields]

end

/-- A document of a shape has a value unless it is too deep. -/
theorem Shape.value?_document (s : Shape) :
    s.document.value? = if s.document.depth ≤ Document.depthLimit then some s.denote else none := by
  rw [Document.value?, s.meaning?_document]

end ApiCatalog.Response
