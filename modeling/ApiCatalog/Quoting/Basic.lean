/-!
# Quoted stretches of a text

A quote is real unless an odd run of backslashes stands right before it. A place is outside quotes
if an even number of real quotes follows it. In a text with an odd number of real quotes the first
one is therefore taken as closing, and all that precedes it as quoted.
-/

namespace ApiCatalog.Quoting

/-- Which of the characters are real quotes, given whether an odd run of backslashes precedes. -/
def marksAfter (escaped : Bool) : List Char → List Bool
  | [] => []
  | c :: cs => (c == '"' && !escaped) :: marksAfter (c == '\\' && !escaped) cs

/-- Which of the characters of a text are real quotes. -/
def marks (text : List Char) : List Bool := marksAfter false text

/-- How many real quotes stand at or after a place. -/
def quotesFrom (text : List Char) (place : Nat) : Nat := ((marks text).drop place).count true

/-- Whether a place is outside quotes. Every place beyond the end is. -/
def isUnquoted (text : List Char) (place : Nat) : Bool := quotesFrom text place % 2 == 0

/-- For each byte of a text in UTF-8, whether it is outside quotes; the bytes of a character
agree. -/
def unquotedBytes (text : List Char) : List Bool :=
  text.zipIdx.flatMap fun (c, place) => List.replicate c.utf8Size (isUnquoted text place)

/-- Whether a place counted in bytes is outside quotes. Every place from the end on is. -/
def isUnquotedByte (text : List Char) (offset : Nat) : Bool :=
  (unquotedBytes text)[offset]?.getD true

@[simp] theorem length_marksAfter (escaped : Bool) (cs : List Char) :
    (marksAfter escaped cs).length = cs.length := by
  induction cs generalizing escaped with
  | nil => rfl
  | cons c cs ih => simp [marksAfter, ih]

@[simp] theorem length_marks (text : List Char) : (marks text).length = text.length :=
  length_marksAfter false text

theorem isUnquoted_of_length_le {text : List Char} {place : Nat} (h : text.length ≤ place) :
    isUnquoted text place = true := by
  have hd : (marks text).drop place = [] := List.drop_eq_nil_of_le (by simpa using h)
  simp [isUnquoted, quotesFrom, hd]

end ApiCatalog.Quoting
