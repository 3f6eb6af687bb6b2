import ApiCatalog.Text.Blank
import ApiCatalog.Text.Case.Mapping
import ApiCatalog.Text.Case.Property

/-!
# Titles from identifiers

The name of a handler method becomes a title in words: `listOpenPDFFiles` reads `List open PDF
files`, and `cancel_order` reads `Cancel order`. Joints such as `_` are first taken out by raising
the letter after them; then a word starts at each upper-case letter that follows a lower-case one,
and at the last letter of a run of capitals before a lower-case one. Capitalised words lose their
capital, acronyms keep theirs.
-/

namespace ApiCatalog.Title

open ApiCatalog.Text (isBlank isUpperCase isLowerCase upperForm lowerForm)

/-- Whether a character joins words: an underscore, a hyphen or a blank. -/
def isJoint (c : Char) : Bool := c = '_' || c = '-' || isBlank c

/-- The text with its first character in lower case. -/
def uncapitalize : List Char → List Char
  | [] => []
  | c :: cs => lowerForm c ++ cs

/-- The text with its first character in upper case. -/
def capitalize : List Char → List Char
  | [] => []
  | c :: cs => upperForm c ++ cs

/-- Takes out joints. `started` says whether a character came before, and `afterJoint` whether the
next one is to be raised. -/
def dropJoints (started afterJoint : Bool) : List Char → List Char
  | [] => []
  | c :: cs =>
    if isJoint c then dropJoints started started cs
    else if afterJoint then upperForm c ++ dropJoints true false cs
    else c :: dropJoints true false cs

/-- The name without joints, its words marked by capitals. -/
def markWords (name : List Char) : List Char := uncapitalize (dropJoints false false name)

/-- Whether a word starts at `c`, after `previous` and before `rest`. -/
def startsWord (previous c : Char) (rest : List Char) : Bool :=
  isUpperCase c &&
    (isLowerCase previous || (isUpperCase previous && rest.head?.any isLowerCase))

/-- The words of a text, given the open word, most recent character first, and its last
character. -/
def cutFrom (openWord : List Char) (previous : Char) : List Char → List (List Char)
  | [] => [openWord.reverse]
  | c :: rest =>
    if startsWord previous c rest then openWord.reverse :: cutFrom [c] c rest
    else cutFrom (c :: openWord) c rest

/-- The words that capitals mark. -/
def cutWords : List Char → List (List Char)
  | [] => []
  | c :: rest => cutFrom [c] c rest

/-- A capitalised word or a single capital in lower case; any other word as it is. -/
def settleCase : List Char → List Char
  | [] => []
  | c :: rest =>
    if isUpperCase c && rest.head?.all isLowerCase then lowerForm c ++ rest else c :: rest

/-- The title that a name makes, character by character. -/
def ofChars (name : List Char) : List Char :=
  capitalize ([' '].intercalate ((cutWords (markWords name)).map settleCase))

/-- The title that a name makes. -/
def ofName (name : String) : String := String.ofList (ofChars name.toList)

theorem flatten_cutFrom (openWord : List Char) (previous : Char) (cs : List Char) :
    (cutFrom openWord previous cs).flatten = openWord.reverse ++ cs := by
  induction cs generalizing openWord previous with
  | nil => simp [cutFrom]
  | cons c rest ih =>
    simp only [cutFrom]
    split <;> simp [ih]

/-- The words together are the text. -/
theorem flatten_cutWords (cs : List Char) : (cutWords cs).flatten = cs := by
  cases cs with
  | nil => rfl
  | cons c rest => simp [cutWords, flatten_cutFrom]

end ApiCatalog.Title
