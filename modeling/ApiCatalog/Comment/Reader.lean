import ApiCatalog.Comment.Basic
import ApiCatalog.Text.Blank
import ApiCatalog.Text.Lines

/-!
# Reading documentation comments

A raw comment is read line by line. Each line first loses its gutter: the marks that open and
close a block comment, the `*`, `//`, `///` or `//!` at its start, and one space after that. A
line that then starts with `@` and a name starts a tag; other lines belong to the last tag, or to
the text if there is none yet. The text is cut into summary and body at the first blank line or
after the first line that ends in a period.
-/

namespace ApiCatalog.Comment

open ApiCatalog.Text (isBlank trim trimStart trimEnd)

/-! ## Gutters -/

/-- Removes the mark that opens a block comment, with the blanks before it. -/
def withoutOpening (line : List Char) : List Char :=
  match trimStart line with
  | '/' :: '*' :: '*' :: rest => rest
  | '/' :: '*' :: rest => rest
  | _ => line

/-- Removes the mark that closes a block comment at the end of a line, with the blanks before
it. -/
def withoutClosing (line : List Char) : List Char :=
  match (trimEnd line).reverse with
  | '/' :: '*' :: rest => trimEnd rest.reverse
  | _ => line

/-- Removes the blanks and the mark at the start of a line, and one space after the mark. -/
def withoutMargin (line : List Char) : List Char :=
  let text := match trimStart line with
    | '/' :: '/' :: '!' :: rest => rest
    | '/' :: '/' :: '/' :: rest => rest
    | '/' :: '/' :: rest => rest
    | '*' :: rest => rest
    | rest => rest
  match text with
  | ' ' :: rest => rest
  | rest => rest

/-- The text of a comment line, with the indentation that follows the gutter. -/
def withoutGutter (line : List Char) : List Char :=
  trimEnd (withoutMargin (withoutClosing (withoutOpening line)))

/-! ## Tag lines -/

/-- Whether a character can stand in the name of a tag. -/
def isTagNameChar (c : Char) : Bool := c.isAlphanum || c = '_' || c = '-' || c = '\\'

/-- Whether a character starts the content of a tag even right after the name. -/
def startsContent (c : Char) : Bool := c = '{' || c = '[' || c = '"'

/-- The name of the tag that a trimmed line starts, and the content on that line. After the name
the line ends, or a blank follows, or a character that starts content. -/
def tagLine? : List Char → Option (List Char × List Char)
  | '@' :: rest =>
    let name := rest.takeWhile isTagNameChar
    if name.isEmpty then none
    else match rest.dropWhile isTagNameChar with
      | [] => some (name, [])
      | c :: after =>
        if isBlank c then some (name, trimStart after)
        else if startsContent c then some (name, c :: after)
        else none
  | _ => none

/-- A tag while it is read: its name, and its content line by line. -/
structure OpenTag where
  name : List Char
  lines : List (List Char)
deriving Repr, DecidableEq

/-- The lines that belong to what comes before the next tag, and the tags. -/
def sections : List (List Char) → List (List Char) × List OpenTag
  | [] => ([], [])
  | line :: rest =>
    let (before, tags) := sections rest
    match tagLine? (trim line) with
    | some (name, content) => ([], ⟨name, content :: before⟩ :: tags)
    | none => (line :: before, tags)

/-- The tag, with its lines joined and trimmed. -/
def OpenTag.close (tag : OpenTag) : Tag :=
  ⟨String.ofList tag.name, String.ofList (trim (['\n'].intercalate tag.lines))⟩

/-! ## Summary and body -/

/-- Whether a line ends in a period. -/
def endsSentence (line : List Char) : Bool := (trimEnd line).getLast? == some '.'

/-- Whether a line holds blanks only. -/
def isBlankLine (line : List Char) : Bool := (trim line).isEmpty

/-- Cuts lines after the first that ends a sentence, or at the first blank one, which is dropped.
The lines of the first part are trimmed. -/
def cutSummary : List (List Char) → List (List Char) × List (List Char)
  | [] => ([], [])
  | line :: rest =>
    if isBlankLine line then ([], rest)
    else if endsSentence line then ([trim line], rest)
    else
      let (summary, body) := cutSummary rest
      (trim line :: summary, body)

/-- Summary and body of the text of a comment. -/
def summaryAndBody (text : List (List Char)) : List Char × List Char :=
  let (summary, body) := cutSummary (text.dropWhile isBlankLine)
  (trim ([' '].intercalate summary), trim (['\n'].intercalate body))

/-- Reads a raw comment. -/
def parse (raw : String) : Comment :=
  let (text, tags) := sections ((Text.lines raw.toList).map withoutGutter)
  let (summary, body) := summaryAndBody text
  ⟨String.ofList summary, String.ofList body, tags.map OpenTag.close⟩

end ApiCatalog.Comment
