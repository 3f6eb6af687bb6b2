import ApiCatalog.Text.Names

/-!
# Documentation comments

A comment has a summary, a body and tags. Tag names are compared without regard to case.
-/

namespace ApiCatalog

/-- An entry `@name content` of a comment. -/
structure Tag where
  name : String
  content : String := ""
deriving Repr, DecidableEq, Inhabited

/-- Whether the tag has the given name. -/
def Tag.isNamed (tag : Tag) (name : String) : Bool := Text.sameName tag.name name

/-- A documentation comment. -/
structure Comment where
  /-- The first sentence or paragraph. -/
  summary : String := ""
  /-- The text after the summary. -/
  body : String := ""
  /-- The tags in order. -/
  tags : List Tag := []
deriving Repr, DecidableEq, Inhabited

namespace Comment

/-- The tags of a name, in order. -/
def tagsNamed (comment : Comment) (name : String) : List Tag :=
  comment.tags.filter fun tag => tag.isNamed name

/-- The first tag of a name. -/
def tagNamed? (comment : Comment) (name : String) : Option Tag :=
  comment.tags.find? fun tag => tag.isNamed name

/-- Whether there is a tag of a name. -/
def hasTag (comment : Comment) (name : String) : Bool := (comment.tagNamed? name).isSome

theorem tagNamed?_eq_head? (comment : Comment) (name : String) :
    comment.tagNamed? name = (comment.tagsNamed name).head? := by
  simp [tagNamed?, tagsNamed, List.head?_filter]

end Comment

end ApiCatalog
