import ApiCatalog.Comment.Basic
import ApiCatalog.Fault
import ApiCatalog.OrderedMap
import ApiCatalog.Text.Blank

/-!
# Notes on parameters

The tags `@describe` and `@default` say something about one parameter: where it is carried, what
it is called, and the text of the note.

    @describe path order The number of the order
    @default query page 1

The notes of several comments are collected in a table, in which the last note on a parameter
counts.
-/

namespace ApiCatalog

open ApiCatalog.Text (isBlank trim)

/-- Where a parameter is carried. -/
inductive Location where
  | path
  | query
deriving Repr, DecidableEq

/-- The keyword of a location. -/
def Location.keyword : Location → String
  | .path => "path"
  | .query => "query"

/-- The location that a keyword names. -/
def Location.ofKeyword? (word : String) : Option Location :=
  if word = "path" then some .path
  else if word = "query" then some .query
  else none

@[simp] theorem Location.ofKeyword?_keyword (location : Location) :
    Location.ofKeyword? location.keyword = some location := by
  cases location <;> decide

theorem Location.ofKeyword?_eq_some_iff {word : String} {location : Location} :
    Location.ofKeyword? word = some location ↔ word = location.keyword := by
  constructor
  · intro h
    simp only [ofKeyword?] at h
    split at h
    · rename_i hw
      simp only [Option.some.injEq] at h
      subst h
      exact hw
    · split at h
      · rename_i hw
        simp only [Option.some.injEq] at h
        subst h
        exact hw
      · simp at h
  · rintro rfl
    simp

/-- A note on a parameter. -/
structure ParameterNote where
  location : Location
  name : String
  value : String
deriving Repr, DecidableEq

namespace ParameterNote

/-- The first word of a text and what follows it and the blanks after it. -/
def cutWord (cs : List Char) : List Char × List Char :=
  (cs.takeWhile (!isBlank ·), (cs.dropWhile (!isBlank ·)).dropWhile isBlank)

/-- The three parts of a trimmed text: two words and the rest, none of them empty. -/
def parts? (cs : List Char) : Option (List Char × List Char × List Char) :=
  let (first, afterFirst) := cutWord cs
  let (second, rest) := cutWord afterFirst
  if rest.isEmpty then none else some (first, second, rest)

/-- Reads the note of a tag. -/
def ofTag (tag : Tag) : Except Fault ParameterNote :=
  let content := trim tag.content.toList
  match parts? content with
  | none => .error (.malformedTag tag.name (.tooFewParts (String.ofList content)))
  | some (word, name, value) =>
    match Location.ofKeyword? (String.ofList word) with
    | none => .error (.malformedTag tag.name (.unknownLocation (String.ofList word)))
    | some location => .ok ⟨location, String.ofList name, String.ofList value⟩

end ParameterNote

/-- The notes of one kind, by location and name of the parameter. -/
structure NoteTable where
  path : OrderedMap String
  query : OrderedMap String
deriving DecidableEq

namespace NoteTable

/-- The table without notes. -/
def empty : NoteTable := ⟨.empty, .empty⟩

/-- The notes on the parameters of a location. -/
def notes (table : NoteTable) : Location → OrderedMap String
  | .path => table.path
  | .query => table.query

/-- Adds a note; an earlier one on the same parameter gives way. -/
def add (table : NoteTable) (location : Location) (name value : String) : NoteTable :=
  match location with
  | .path => { table with path := table.path.insert name value }
  | .query => { table with query := table.query.insert name value }

/-- The note on a parameter. -/
def get? (table : NoteTable) (location : Location) (name : String) : Option String :=
  (table.notes location).get? name

/-- Whether there are no notes. -/
def isEmpty (table : NoteTable) : Bool := table.path.isEmpty && table.query.isEmpty

/-- Adds the notes of tags, one after the other, each value changed by `transform`. -/
def addTags (transform : String → String) (table : NoteTable) (tags : List Tag) :
    Except Fault NoteTable :=
  tags.foldlM (fun t tag => do
    let note ← ParameterNote.ofTag tag
    pure (t.add note.location note.name (transform note.value))) table

/-- The notes of all tags of a name, comment by comment. -/
def gather (name : String) (transform : String → String) (comments : List Comment) :
    Except Fault NoteTable :=
  addTags transform empty (comments.flatMap fun comment => comment.tagsNamed name)

/-- The descriptions, each laid out on one line. -/
def descriptions (comments : List Comment) : Except Fault NoteTable :=
  gather "describe" (fun value => String.ofList (Text.collapse value.toList)) comments

/-- The default values, as they are written. -/
def defaults (comments : List Comment) : Except Fault NoteTable :=
  gather "default" id comments

theorem get?_add (table : NoteTable) (location other : Location) (name key value : String) :
    (table.add location name value).get? other key =
      if other = location ∧ key = name then some value else table.get? other key := by
  cases location <;> cases other <;> simp [add, get?, notes, OrderedMap.get?_insert]

end NoteTable

end ApiCatalog
