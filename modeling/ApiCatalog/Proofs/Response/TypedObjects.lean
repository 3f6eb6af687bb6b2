import ApiCatalog.Proofs.Response.Closing
import ApiCatalog.Proofs.Response.Refusals

/-!
# Parsing typed objects

A shape with one typed object is parsed as its regrouped shape, and any other shape with typed
objects is refused (`parse_typedObjects`). So what the shape denotes is found if the typed object is
the only one and is closed last.
-/

namespace ApiCatalog.Response

open ApiCatalog.Json
open ApiCatalog.Json.Document (Assembly Frame)
open ApiCatalog.Text

/-- The shape that is read in place of a shape with typed objects. -/
def Shape.reading? (s : Shape) : Option Shape :=
  if s.typedObjects = 1 then s.regrouped? else none

/-! ## Reading -/

/-- With one typed object the expanded text has the tokens of the row, opened and closed twice. -/
theorem Shape.Cut.tokens_doubled {s : Shape} {xs ys zs : List Phrase} (h : s.Cut xs ys zs)
    (hs : s.typedObjects = 1) {text : List Char} (hl : Layout isSpace s.phrases text) :
    tokens? (expand text) = some (openTokens (Response.doubleLast s.phrases)) := by
  have hys : .typedOpen ∉ ys := by
    have hcount := h.typedObjects_eq
    rw [← countP_opens_eq_zero]
    omega
  rw [h.tokens hl, h.doubleLast]
  simp only [openTokens_append, openTokens_typedOpen, openTokens_mark,
    Response.openTokens_eq h.first, Response.openTokens_eq hys,
    Response.openTokens_eq (typedOpen_not_mem h.last)]

/-- The document that is read of a shape with typed objects. -/
theorem Shape.read?_eq {s : Shape} {text : List Char} (h : 0 < s.typedObjects)
    (hl : Layout isSpace s.phrases text) :
    Document.read? (expand text) = s.reading?.map Shape.document := by
  rw [Shape.reading?]
  by_cases hs : s.typedObjects = 1
  · obtain ⟨xs, ys, zs, hcut⟩ := Shape.exists_cut h
    rw [if_pos hs, Document.read?, hcut.tokens_doubled hs hl, Option.bind_some]
    cases hr : s.regrouped? with
    | none =>
      have hrun := s.run_none_of_regrouped? hs hr [] []
      rw [List.append_nil] at hrun
      rw [Document.ofTokens?, hrun]
      rfl
    | some r =>
      obtain ⟨htokens, hcount⟩ := s.tokens_regrouped hs hr
      rw [htokens, r.ofTokens? hcount]
      rfl
  · -- there are at least two typed objects
    rw [if_neg hs, Shape.read?_several (by omega) hl]
    rfl

/-! ## What is read is not empty -/

theorem denoteFields_ne_nil {before : List (String × Value)} (fs : List Field)
    (h : before ≠ []) : denoteFields before fs ≠ [] := by
  induction fs generalizing before with
  | nil => exact h
  | cons f fs ih =>
    rw [denoteFields_cons]
    exact ih (upsert_ne_nil _ _ _)

theorem Shape.isEmpty_object {fs : List Field} (h : fs ≠ []) :
    (Shape.object fs).denote.isEmpty = false := by
  obtain ⟨f, fs, rfl⟩ := List.exists_cons_of_ne_nil h
  rw [Shape.denote, denoteFields_cons, Value.isEmpty, List.isEmpty_eq_false_iff]
  exact denoteFields_ne_nil fs (upsert_ne_nil _ _ _)

theorem Shape.isEmpty_array {ss : List Shape} (h : ss ≠ []) :
    (Shape.array ss).denote.isEmpty = false := by
  obtain ⟨s, ss, rfl⟩ := List.exists_cons_of_ne_nil h
  rfl

theorem openedFields?_ne_nil {fs gs : List Field} (h : openedFields? fs = some gs) : gs ≠ [] := by
  intro heq
  subst heq
  match fs with
  | [] => exact absurd h (by simp [openedFields?])
  | .member k s :: fs =>
    rw [openedFields?] at h
    split at h <;> exact absurd h (by simp)
  | .typedName n t :: fs => exact absurd h (by simp [openedFields?])

/-- What is read is an object or an array with something in it. -/
theorem Shape.denote_regrouped {s r : Shape} (h : s.regrouped? = some r) :
    r.denote.isNull = false ∧ r.denote.isEmpty = false := by
  cases s with
  | array items =>
    obtain ⟨rs, hrs, rfl⟩ := Option.map_eq_some_iff.1 h
    exact ⟨rfl, Shape.isEmpty_array (regroupedItems?_ne_nil hrs)⟩
  | object fields =>
    obtain ⟨gs, hgs, rfl⟩ := Option.map_eq_some_iff.1 h
    exact ⟨rfl, Shape.isEmpty_object (openedFields?_ne_nil hgs)⟩
  | typed fields =>
    obtain rfl := Option.some.inj h
    exact ⟨rfl, Shape.isEmpty_object (List.cons_ne_nil _ _)⟩
  | _ => exact absurd h (by simp [Shape.regrouped?])

/-! ## Parsing -/

/-- What the parser makes of a shape with typed objects. -/
def Shape.outcome (s : Shape) (content : String) : Except Fault (Option Value) :=
  match s.reading? with
  | some r =>
    if r.document.depth ≤ Document.depthLimit then .ok (some r.denote)
    else .error (.unresolvedShorthand "decode" (String.ofList (Text.trim content.toList)))
  | none => .error (.unresolvedShorthand "decode" (String.ofList (Text.trim content.toList)))

theorem Shape.parse_eq_outcome {s : Shape} {content : String} (h : 0 < s.typedObjects)
    (hl : Layout isBlank s.phrases content.toList) : parse content = s.outcome content := by
  obtain ⟨hcollapse, hparse⟩ := parse_layout hl
  rw [hparse, Value.read?, Shape.read?_eq h hcollapse, Shape.outcome]
  cases hr : s.reading? with
  | none => rfl
  | some r =>
    have hregrouped : s.regrouped? = some r := by
      rw [Shape.reading?] at hr
      split at hr
      · exact hr
      · exact absurd hr (by simp)
    obtain ⟨hnull, hempty⟩ := Shape.denote_regrouped hregrouped
    rw [Option.map_some, Option.bind_some, r.value?_document]
    by_cases hdepth : r.document.depth ≤ Document.depthLimit
    · simp [hdepth, decoded, hnull, hempty]
    · simp [hdepth, decoded]

/-- The parser finds what a shape with typed objects denotes if the typed object is the only one and
closed last. -/
theorem Shape.outcome_of_closesLast {s : Shape} (hs : s.typedObjects = 1)
    (hlast : s.closesLast = true) (hdepth : s.document.depth ≤ Document.depthLimit)
    (content : String) : s.outcome content = .ok (some s.denote) := by
  obtain ⟨r, hr, hdocument⟩ := s.exists_regrouped hlast
  have hdenote : r.denote = s.denote := by
    have hmeaning := r.meaning?_document
    rw [hdocument, s.meaning?_document] at hmeaning
    exact (Option.some.inj hmeaning).symm
  have hreading : s.reading? = some r := by rw [Shape.reading?, if_pos hs, hr]
  rw [Shape.outcome, hreading]
  show (if r.document.depth ≤ Document.depthLimit then _ else _) = _
  rw [hdocument, if_pos hdepth, hdenote]

/-- With distinct keys there is no other way. -/
theorem Shape.closesLast_of_outcome {s : Shape} (hs : s.DistinctKeys) {content : String}
    (h : s.outcome content = .ok (some s.denote)) :
    s.typedObjects = 1 ∧ s.closesLast = true := by
  rw [Shape.outcome] at h
  cases hr : s.reading? with
  | none =>
    rw [hr] at h
    cases h
  | some r =>
    have hdenote : r.denote = s.denote := by
      rw [hr] at h
      by_cases hdepth : r.document.depth ≤ Document.depthLimit
      · simpa [hdepth] using h
      · simp [hdepth] at h
    rw [Shape.reading?] at hr
    by_cases hcount : s.typedObjects = 1
    · rw [if_pos hcount] at hr
      exact ⟨hcount, s.closesLast_of_denote hs hr hdenote⟩
    · rw [if_neg hcount] at hr
      cases hr

/-- Whatever shape with typed objects a text lays out, and however it does, the parser finds what
the regrouped shape denotes, if the typed object is the only one, if there is such a shape and if it
is not too deep. That is what the shape denotes if the typed object is closed last, and where keys
are distinct only then. -/
theorem parse_typedObjects (s : Shape) (content : String) (h : 0 < s.typedObjects)
    (hl : Layout isBlank s.phrases content.toList) :
    parse content = s.outcome content ∧
      (s.document.depth ≤ Document.depthLimit → s.typedObjects = 1 → s.closesLast = true →
        parse content = .ok (some s.denote)) ∧
      (s.DistinctKeys → parse content = .ok (some s.denote) →
        s.typedObjects = 1 ∧ s.closesLast = true) := by
  rw [Shape.parse_eq_outcome h hl]
  refine ⟨rfl, ?_, ?_⟩
  · intro hdepth hs hlast
    exact Shape.outcome_of_closesLast hs hlast hdepth content
  · intro hdistinct hfound
    exact Shape.closesLast_of_outcome hdistinct hfound

/-- An array of users. -/
def userListShape : Shape :=
  .array [.typed [.typedName (wordOf "id" (by decide)) (wordOf "int" (by decide))]]

theorem layout_userListShape :
    Layout isBlank userListShape.phrases "[ :: \x7b id :: int \x7d ]".toList := by
  have hspace : Gap isBlank [' '] := gap_of_all (by decide)
  have hend : Layout isBlank [.mark .closeArray] ([' '] ++ [']']) :=
    .single hspace (.mark .closeArray)
  have hclose := Layout.next (.mark .closeObject) (by simp [Phrase.endsInColon]) hend
  have hfield := Layout.next
    (.typedField (wordOf "id" (by decide)) (wordOf "int" (by decide)) hspace hspace)
    (by simp [Phrase.endsInColon]) (hclose.gap_append hspace)
  have hopen := Layout.next (.typedOpen hspace) (by simp [Phrase.endsInColon])
    (hfield.gap_append hspace)
  exact .next (.mark .openArray) (by simp [Phrase.endsInColon]) (hopen.gap_append hspace)

theorem parse_userListShape :
    userListShape.document.depth ≤ Document.depthLimit ∧ userListShape.DistinctKeys ∧
      parse "[ :: \x7b id :: int \x7d ]" =
        .ok (some (.array [referenceValue (.object [("id", referenceValue (.string "int"))])])) ∧
      userListShape.typedObjects = 1 ∧ userListShape.closesLast = true := by
  obtain ⟨-, hfound, hlast⟩ := parse_typedObjects userListShape _ (by decide) layout_userListShape
  have hdepth : userListShape.document.depth ≤ Document.depthLimit := by decide
  have hdistinct : userListShape.DistinctKeys := by
    simp [userListShape, Shape.DistinctKeys, distinctKeysIn, distinctKeysUnder]
  have hparse := hfound hdepth rfl rfl
  exact ⟨hdepth, hdistinct, hparse, hlast hdistinct hparse⟩

/-- A post with its author and a title. -/
def postShape : Shape :=
  .object [.member (.bare (wordOf "author" (by decide)))
      (.typed [.typedName (wordOf "id" (by decide)) (wordOf "int" (by decide))]),
    .typedName (wordOf "title" (by decide)) (wordOf "text" (by decide))]

theorem layout_postShape : Layout isBlank postShape.phrases
    "\x7b author: :: \x7b id :: int \x7d, title :: text \x7d".toList := by
  have hspace : Gap isBlank [' '] := gap_of_all (by decide)
  have hend : Layout isBlank [.mark .closeObject] ([' '] ++ ['\x7d']) :=
    .single hspace (.mark .closeObject)
  have htitle := Layout.next
    (.typedField (wordOf "title" (by decide)) (wordOf "text" (by decide)) hspace hspace)
    (by simp [Phrase.endsInColon]) hend
  have hcomma := Layout.next (.mark .comma) (by simp [Phrase.endsInColon])
    (htitle.gap_append hspace)
  have hclose := Layout.next (.mark .closeObject) (by simp [Phrase.endsInColon]) hcomma
  have hid := Layout.next
    (.typedField (wordOf "id" (by decide)) (wordOf "int" (by decide)) hspace hspace)
    (by simp [Phrase.endsInColon]) (hclose.gap_append hspace)
  have hopen := Layout.next (.typedOpen hspace) (by simp [Phrase.endsInColon])
    (hid.gap_append hspace)
  have hauthor := Layout.next (.key (wordOf "author" (by decide)) gap_nil)
    (fun _ => noColon_cons.2 (by decide)) (hopen.gap_append hspace)
  exact .next (.mark .openObject) (by simp [Phrase.endsInColon]) (hauthor.gap_append hspace)

/-- The title of the post is read into the reference to its author. -/
theorem parse_postShape :
    Layout isBlank postShape.phrases
        "\x7b author: :: \x7b id :: int \x7d, title :: text \x7d".toList ∧
      postShape.denote = .object
        [("author", referenceValue (.object [("id", referenceValue (.string "int"))])),
          ("title", referenceValue (.string "text"))] ∧
      parse "\x7b author: :: \x7b id :: int \x7d, title :: text \x7d" = .ok (some (.object
        [("author", .object
          [("$ref", .object [("id", referenceValue (.string "int"))]),
            ("title", referenceValue (.string "text"))])])) ∧
      parse "\x7b author: :: \x7b id :: int \x7d, title :: text \x7d" ≠
        .ok (some postShape.denote) := by
  have hparse : parse "\x7b author: :: \x7b id :: int \x7d, title :: text \x7d" =
      postShape.outcome "\x7b author: :: \x7b id :: int \x7d, title :: text \x7d" :=
    Shape.parse_eq_outcome (by decide) layout_postShape
  refine ⟨layout_postShape, rfl, hparse.trans rfl, ?_⟩
  intro hfound
  rw [hparse] at hfound
  have hmembers := Value.object.inj (Option.some.inj (Except.ok.inj hfound))
  exact absurd (congrArg List.length hmembers) (by decide)

end ApiCatalog.Response
