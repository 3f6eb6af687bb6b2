import ApiCatalog.Proofs.Catalog.Requirements
import Mathlib.Data.List.Induction

/-!
# Tables of notes

A table is gathered from the tags of one name in a row of comments, read one after the other. If one
of them is not read, there is no table, but the fault of the first such tag; otherwise the table
holds for each parameter the value of the last note on it (`gather_lastNote`). Adding a tag to a row
makes its note the last one on its parameter and leaves all other parameters as they are
(`get?_addTags_append`), and from that follows what a whole row leaves (`get?_addTags`).
-/

namespace ApiCatalog

/-- The tags of a name in a row of comments, comment by comment. -/
def tagsNamedIn (name : String) (comments : List Comment) : List Tag :=
  (comments.flatMap Comment.tags).filter (·.isNamed name)

namespace ParameterNote

/-- The value of the note on a parameter, if a tag holds one. -/
def valueOn? (location : Location) (name : String) (tag : Tag) : Option String :=
  match ofTag tag with
  | .error _ => none
  | .ok note => if location = note.location ∧ name = note.name then some note.value else none

theorem valueOn?_eq_some_iff {location : Location} {name : String} {tag : Tag} {value : String} :
    valueOn? location name tag = some value ↔ ofTag tag = .ok ⟨location, name, value⟩ := by
  rw [valueOn?]
  cases ofTag tag with
  | error fault => simp
  | ok note =>
    obtain ⟨location', name', value'⟩ := note
    simp only [Option.ite_none_right_eq_some, Option.some.injEq, Except.ok.injEq, mk.injEq]
    constructor
    · rintro ⟨⟨rfl, rfl⟩, rfl⟩
      exact ⟨rfl, rfl, rfl⟩
    · rintro ⟨rfl, rfl, rfl⟩
      exact ⟨⟨rfl, rfl⟩, rfl⟩

theorem valueOn?_eq_none_iff {location : Location} {name : String} {tag : Tag} :
    valueOn? location name tag = none ↔ ∀ value, ofTag tag ≠ .ok ⟨location, name, value⟩ := by
  rw [Option.eq_none_iff_forall_ne_some]
  simp only [ne_eq, valueOn?_eq_some_iff]

/-- The values of the notes on a parameter in a row of tags, in order. -/
def valuesOn (location : Location) (name : String) (tags : List Tag) : List String :=
  tags.filterMap (valueOn? location name)

end ParameterNote

open ParameterNote

/-- The last note on a parameter in a row of tags has the given value. -/
def LastNote (location : Location) (name : String) (tags : List Tag) (value : String) : Prop :=
  ∃ before tag after, tags = before ++ tag :: after ∧ ofTag tag = .ok ⟨location, name, value⟩ ∧
    ∀ later ∈ after, ∀ other, ofTag later ≠ .ok ⟨location, name, other⟩

namespace NoteTable

variable {location : Location} {key : String} {tags : List Tag} {transform : String → String}

/-! ## One tag after the others -/

theorem addTags_append (table : NoteTable) (tag : Tag) :
    addTags transform table (tags ++ [tag]) =
      addTags transform table tags >>= fun before =>
        ofTag tag >>= fun note =>
          pure (before.add note.location note.name (transform note.value)) := by
  simp [addTags, List.foldlM_append]

/-- A further tag sets the value of its own parameter only. -/
theorem get?_addTags_append {table result : NoteTable} {tag : Tag}
    (h : addTags transform table (tags ++ [tag]) = .ok result) :
    ∃ before, addTags transform table tags = .ok before ∧
      result.get? location key =
        ((valueOn? location key tag).map transform).or (before.get? location key) := by
  rw [addTags_append] at h
  obtain ⟨before, hbefore, h⟩ := exists_of_bind_ok h
  obtain ⟨note, hnote, h⟩ := exists_of_bind_ok h
  obtain rfl := Except.ok.inj h
  refine ⟨before, hbefore, ?_⟩
  rw [get?_add, valueOn?, hnote]
  by_cases hsame : location = note.location ∧ key = note.name <;> simp [hsame]

/-- A parameter has the value of the last note of a row on it, or else the value that it had. -/
theorem get?_addTags {table result : NoteTable} (h : addTags transform table tags = .ok result) :
    result.get? location key =
      ((valuesOn location key tags).getLast?.map transform).or (table.get? location key) := by
  induction tags using List.reverseRecOn generalizing result with
  | nil =>
    obtain rfl := Except.ok.inj h
    rfl
  | append_singleton tags tag ih =>
    obtain ⟨before, hbefore, hget⟩ := get?_addTags_append h
    rw [hget, ih hbefore, valuesOn, valuesOn, List.filterMap_append, List.getLast?_append]
    cases hvalue : valueOn? location key tag <;> simp [hvalue]

/-! ## Gathering -/

theorem gather_eq (name : String) (transform : String → String) (comments : List Comment) :
    gather name transform comments = addTags transform empty (tagsNamedIn name comments) := by
  rw [gather, tagsNamedIn, List.filter_flatMap]
  rfl

theorem get?_gather {name : String} {comments : List Comment} {table : NoteTable}
    (h : gather name transform comments = .ok table) :
    table.get? location key =
      (valuesOn location key (tagsNamedIn name comments)).getLast?.map transform := by
  rw [gather_eq] at h
  have hempty : empty.get? location key = none := by cases location <;> rfl
  rw [get?_addTags h, hempty, Option.or_none]

theorem getLast?_valuesOn_eq_some_iff {value : String} :
    (valuesOn location key tags).getLast? = some value ↔ LastNote location key tags value := by
  rw [valuesOn, List.getLast?_filterMap, List.findSome?_eq_some_iff]
  simp only [valueOn?_eq_some_iff, valueOn?_eq_none_iff, LastNote]
  constructor
  · rintro ⟨after, tag, before, htags, hread, hlater⟩
    refine ⟨before.reverse, tag, after.reverse, ?_, hread, by simpa using hlater⟩
    rw [← List.reverse_inj, htags]
    simp
  · rintro ⟨before, tag, after, rfl, hread, hlater⟩
    exact ⟨after.reverse, tag, before.reverse, by simp, hread, by simpa using hlater⟩

theorem valuesOn_eq_nil_iff :
    valuesOn location key tags = [] ↔
      ∀ tag ∈ tags, ∀ value, ofTag tag ≠ .ok ⟨location, key, value⟩ := by
  simp only [valuesOn, List.filterMap_eq_nil_iff, valueOn?_eq_none_iff]

/-- Tables are gathered from the tags of one name alone: there is one exactly if all of them are
read, and otherwise the fault of the first that is not. The value of a parameter is that of the last
note on it, changed by `transform`, so two rows of comments that agree in the notes on a parameter
agree in its value. -/
theorem gather_lastNote (name : String) (transform : String → String) (comments : List Comment) :
    (∀ fault, gather name transform comments = .error fault ↔
      FirstFails ofTag (tagsNamedIn name comments) fault) ∧
    ((∃ table, gather name transform comments = .ok table) ↔
      ∀ comment ∈ comments, ∀ tag ∈ comment.tags, tag.isNamed name = true →
        ∃ note, ofTag tag = .ok note) ∧
    (∀ comments', tagsNamedIn name comments' = tagsNamedIn name comments →
      gather name transform comments' = gather name transform comments) ∧
    ∀ table, gather name transform comments = .ok table → ∀ location key,
      (∀ value, table.get? location key = some value ↔
        ∃ written, LastNote location key (tagsNamedIn name comments) written ∧
          transform written = value) ∧
      (table.get? location key = none ↔
        ∀ tag ∈ tagsNamedIn name comments, ∀ value, ofTag tag ≠ .ok ⟨location, key, value⟩) ∧
      ∀ comments' table', gather name transform comments' = .ok table' →
        valuesOn location key (tagsNamedIn name comments') =
          valuesOn location key (tagsNamedIn name comments) →
        table'.get? location key = table.get? location key := by
  refine ⟨fun fault => ?_, ?_, fun comments' htags => ?_,
    fun table htable location key => ⟨fun value => ?_, ?_, fun comments' table' htable' hvalues => ?_⟩⟩
  · rw [gather_eq, ← faultOf_eq_some_iff, faultOf_addTags, findSome?_eq_some_iff_firstFails]
  · rw [gather_eq, ← faultOf_eq_none_iff, faultOf_addTags, findSome?_eq_none_iff_allRead, AllRead]
    simp only [tagsNamedIn, List.mem_filter, List.mem_flatMap]
    constructor
    · exact fun h comment hcomment tag htag hname => h tag ⟨⟨comment, hcomment, htag⟩, hname⟩
    · rintro h tag ⟨⟨comment, hcomment, htag⟩, hname⟩
      exact h comment hcomment tag htag hname
  · rw [gather_eq, gather_eq, htags]
  · simp only [get?_gather htable, Option.map_eq_some_iff, getLast?_valuesOn_eq_some_iff]
  · rw [get?_gather htable, Option.map_eq_none_iff, List.getLast?_eq_none_iff, valuesOn_eq_nil_iff]
  · rw [get?_gather htable', get?_gather htable, hvalues]

/-- The comments of a method and of its owner, which both have a note on the same parameter. -/
def orderComments : List Comment :=
  [{ tags := [⟨"describe", "path order Its number"⟩, ⟨"default", "order"⟩,
      ⟨"Describe", "query page From one on"⟩] },
    { tags := [⟨"DESCRIBE", "path order\nThe number"⟩, ⟨"response", "int"⟩] }]

/-- A comment with the same notes on that parameter, and with others. -/
def orderComment : Comment where
  tags := [⟨"describe", "path order Its number"⟩, ⟨"describe", "query order desc"⟩,
    ⟨"describe", "path order The number"⟩]

theorem gather_lastNote_orderComments :
    ∃ table table', gather "describe" id orderComments = .ok table ∧
      gather "describe" id [orderComment] = .ok table' ∧
      table.get? .path "order" = some "The number" ∧ table.get? .query "order" = none ∧
      table'.get? .path "order" = table.get? .path "order" ∧
      table'.get? .query "order" = some "desc" := by
  have htable : gather "describe" id orderComments =
      .ok ⟨⟨[("order", "The number")], by decide⟩, ⟨[("page", "From one on")], by decide⟩⟩ := rfl
  have htable' : gather "describe" id [orderComment] =
      .ok ⟨⟨[("order", "The number")], by decide⟩, ⟨[("order", "desc")], by decide⟩⟩ := rfl
  have hpath : valuesOn .path "order" (tagsNamedIn "describe" orderComments) =
      ["Its number", "The number"] := rfl
  have hpath' : valuesOn .path "order" (tagsNamedIn "describe" [orderComment]) =
      ["Its number", "The number"] := rfl
  have hlast : LastNote .path "order" (tagsNamedIn "describe" orderComments) "The number" :=
    getLast?_valuesOn_eq_some_iff.1 (by rw [hpath]; rfl)
  have hnone : ∀ tag ∈ tagsNamedIn "describe" orderComments, ∀ value,
      ofTag tag ≠ .ok ⟨.query, "order", value⟩ :=
    valuesOn_eq_nil_iff.1 rfl
  obtain ⟨-, -, -, hvalues⟩ := gather_lastNote "describe" id orderComments
  obtain ⟨-, habsent, -⟩ := hvalues _ htable .query "order"
  obtain ⟨hsome, -, hagree⟩ := hvalues _ htable .path "order"
  exact ⟨_, _, htable, htable', (hsome _).2 ⟨_, hlast, rfl⟩, habsent.2 hnone,
    hagree _ _ htable' (hpath'.trans hpath.symm), rfl⟩

end NoteTable

end ApiCatalog
