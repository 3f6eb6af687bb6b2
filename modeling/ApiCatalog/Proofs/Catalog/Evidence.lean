import ApiCatalog.Proofs.Catalog.Requirements
import Mathlib.Data.List.Forall2

/-!
# What an entry depends on

The entry of an endpoint is decided by its evidence (`SameEvidence`): the address, the methods and
the constraints, the name and the parameters of the handler method, the text of its comment, and the
contents of the tags that the entry is made from, each kind of tag by itself. Nothing else in the
comments counts, so tags of other names can be added and tags of different names interleaved in any
way (`document_sameEvidence`).

Faults quote the name of a tag as it is written. Two runs are therefore not equal but alike: the
same value, or faults of one kind. `Alike` goes through both runs side by side, part by part.
-/

namespace ApiCatalog

/-! ## Results that are alike -/

/-- The same value, or errors that are related. -/
inductive Alike {ε α : Type} (related : ε → ε → Prop) : Except ε α → Except ε α → Prop where
  | ok (value : α) : Alike related (.ok value) (.ok value)
  | error {e e' : ε} (h : related e e') : Alike related (.error e) (.error e')

/-- Faults of one kind. They agree in all but the case of a tag's name, which is quoted as it is
written, and the causes that a source of rules gives. -/
inductive Fault.SameKind : Fault → Fault → Prop where
  | malformedTag {tag tag' : String} (problem : TagProblem) (h : Text.sameName tag tag' = true) :
      SameKind (.malformedTag tag problem) (.malformedTag tag' problem)
  | unresolvedShorthand (step content : String) :
      SameKind (.unresolvedShorthand step content) (.unresolvedShorthand step content)
  | unsupportedHandler (action : String) :
      SameKind (.unsupportedHandler action) (.unsupportedHandler action)
  | untypedParameter (name : String) : SameKind (.untypedParameter name) (.untypedParameter name)
  | rulesUnavailable (causes causes' : List String) :
      SameKind (.rulesUnavailable causes) (.rulesUnavailable causes')

theorem Fault.SameKind.refl (fault : Fault) : fault.SameKind fault := by
  cases fault with
  | malformedTag tag problem => exact .malformedTag problem (Text.sameName_refl tag)
  | unresolvedShorthand step content => exact .unresolvedShorthand step content
  | unsupportedHandler action => exact .unsupportedHandler action
  | untypedParameter name => exact .untypedParameter name
  | rulesUnavailable causes => exact .rulesUnavailable causes causes

namespace Alike

variable {ε α β γ : Type} {related : ε → ε → Prop}

theorem of_eq (hrefl : ∀ e, related e e) {result result' : Except ε α} (h : result = result') :
    Alike related result result' := by
  subst h
  cases result with
  | ok value => exact .ok value
  | error e => exact .error (hrefl e)

/-- Two parts one after the other. -/
theorem bind {result result' : Except ε α} {next next' : α → Except ε β}
    (h : Alike related result result') (hnext : ∀ value, Alike related (next value) (next' value)) :
    Alike related (result >>= next) (result' >>= next') := by
  cases h with
  | ok value => exact hnext value
  | error h => exact .error h

/-- Many steps one after the other, on items that correspond. -/
theorem foldlM {corresponds : β → γ → Prop} {step : α → β → Except ε α}
    {step' : α → γ → Except ε α}
    (h : ∀ state item item', corresponds item item' →
      Alike related (step state item) (step' state item'))
    {items : List β} {items' : List γ} (hitems : List.Forall₂ corresponds items items')
    (state : α) : Alike related (items.foldlM step state) (items'.foldlM step' state) := by
  induction hitems generalizing state with
  | nil => exact .ok state
  | cons hitem _ ih =>
    rw [List.foldlM_cons, List.foldlM_cons]
    exact (h state _ _ hitem).bind ih

end Alike

/-! ## Evidence -/

/-- The contents of the tags of a name, in any case of its letters, in order. -/
def Comment.contents (comment : Comment) (name : String) : List String :=
  (comment.tags.filter fun tag => Text.sameName tag.name name).map Tag.content

/-- Two endpoints with the same evidence. The name of the route, the owner's text and responses, all
other tags, the later tags that name a resource and the order of tags of different names are left
open. -/
structure SameEvidence (endpoint other : Endpoint) (m m' : HandlerMethod) : Prop where
  handler : endpoint.handler = .method m
  otherHandler : other.handler = .method m'
  uri : endpoint.uri = other.uri
  methods : endpoint.methods = other.methods
  constraints : ∀ name, endpoint.constraints.get? name = other.constraints.get? name
  name : m.name = m'.name
  parameters : m.parameters = m'.parameters
  summary : m.comment.summary = m'.comment.summary
  body : m.comment.body = m'.comment.body
  responses : m.comment.contents "response" = m'.comment.contents "response"
  descriptions : m.comment.contents "describe" = m'.comment.contents "describe"
  ownerDescriptions : m.ownerComment.contents "describe" = m'.ownerComment.contents "describe"
  defaults : m.comment.contents "default" = m'.comment.contents "default"
  ownerDefaults : m.ownerComment.contents "default" = m'.ownerComment.contents "default"
  /-- The tag that names the resource: the first of the method's, else of its owner's. -/
  resource : (m.comment.contents "resource" ++ m.ownerComment.contents "resource").head? =
    (m'.comment.contents "resource" ++ m'.ownerComment.contents "resource").head?

/-! ## Notes -/

/-- Tags of one name and content, in any case of the letters of the name. -/
def Tag.Corresponds (tag tag' : Tag) : Prop :=
  tag.content = tag'.content ∧ Text.sameName tag.name tag'.name = true

/-- Notes are read off the content; a fault quotes the name. -/
theorem ofTag_alike {tag tag' : Tag} (h : tag.Corresponds tag') :
    Alike Fault.SameKind (ParameterNote.ofTag tag) (ParameterNote.ofTag tag') := by
  obtain ⟨hcontent, hname⟩ := h
  rw [ParameterNote.ofTag, ParameterNote.ofTag, hcontent]
  split
  · exact .error (Fault.SameKind.malformedTag _ hname)
  · split
    · exact .error (Fault.SameKind.malformedTag _ hname)
    · exact .ok _

/-- The tags of a name correspond one by one if their contents are the same. -/
theorem forall₂_tagsNamed {comment comment' : Comment} {name : String}
    (h : comment.contents name = comment'.contents name) :
    List.Forall₂ Tag.Corresponds (comment.tagsNamed name) (comment'.tagsNamed name) := by
  have hcontents : List.Forall₂ (fun tag tag' : Tag => tag.content = tag'.content)
      (comment.tagsNamed name) (comment'.tagsNamed name) :=
    List.forall₂_map_left_iff.1 (List.forall₂_map_right_iff.1 (List.forall₂_eq_eq_eq ▸ h))
  have hnamed : ∀ c : Comment, ∀ tag ∈ c.tagsNamed name, Text.sameName tag.name name = true :=
    fun c tag htag => (List.mem_filter.1 htag).2
  refine List.forall₂_iff_zip.2 ⟨hcontents.length_eq, fun {tag tag'} hpair => ?_⟩
  -- each has the name that was asked for, in some case
  have hname := hnamed comment tag (List.of_mem_zip hpair).1
  have hname' := hnamed comment' tag' (List.of_mem_zip hpair).2
  rw [Text.sameName_comm] at hname'
  exact ⟨List.forall₂_zip hcontents hpair, Text.sameName_trans hname hname'⟩

/-- Notes are gathered alike if the contents of their tags are the same, comment by comment. -/
theorem gather_alike {m m' : HandlerMethod} {name : String}
    (hown : m.comment.contents name = m'.comment.contents name)
    (howner : m.ownerComment.contents name = m'.ownerComment.contents name)
    (transform : String → String) :
    Alike Fault.SameKind (NoteTable.gather name transform m.comments)
      (NoteTable.gather name transform m'.comments) := by
  have htags : List.Forall₂ Tag.Corresponds
      (m.comments.flatMap fun comment => comment.tagsNamed name)
      (m'.comments.flatMap fun comment => comment.tagsNamed name) := by
    simp only [HandlerMethod.comments, List.flatMap_cons, List.flatMap_nil, List.append_nil]
    exact List.rel_append (forall₂_tagsNamed hown) (forall₂_tagsNamed howner)
  refine Alike.foldlM (fun table tag tag' htag => ?_) htags NoteTable.empty
  exact (ofTag_alike htag).bind fun note => .ok _

/-! ## The parts of an entry -/

section Parts

variable {endpoint other : Endpoint} {m m' : HandlerMethod}

theorem map_content_resourceTag? (m : HandlerMethod) :
    (Dossier.resourceTag? m).map Tag.content =
      (m.comment.contents "resource" ++ m.ownerComment.contents "resource").head? := by
  simp [resourceTag?_eq_head?, HandlerMethod.comments, Comment.contents, Comment.tagsNamed,
    Tag.isNamed, List.head?_append, Option.map_or]

theorem SameEvidence.resourcePath_eq (h : SameEvidence endpoint other m m') (settings : Settings)
    (descriptions defaults : NoteTable) :
    Dossier.resourcePath ⟨endpoint, m, settings, descriptions, defaults⟩ =
      Dossier.resourcePath ⟨other, m', settings, descriptions, defaults⟩ := by
  -- the path depends on the text of the tag alone
  have hparse : ∀ dossier : Dossier, dossier.resourcePath =
      ((Dossier.resourceTag? dossier.method).map Tag.content).elim
        (.ok [dossier.settings.fallbackResource]) Resource.parse := by
    intro dossier
    rw [Dossier.resourcePath]
    cases Dossier.resourceTag? dossier.method <;> rfl
  rw [hparse, hparse, map_content_resourceTag?, map_content_resourceTag?, h.resource]

theorem SameEvidence.documentPlaceholders_eq (h : SameEvidence endpoint other m m')
    (settings : Settings) (descriptions defaults : NoteTable) :
    Dossier.documentPlaceholders ⟨endpoint, m, settings, descriptions, defaults⟩ =
      Dossier.documentPlaceholders ⟨other, m', settings, descriptions, defaults⟩ := by
  have hdeclared : ∀ name, m.parameter? name = m'.parameter? name := fun name => by
    rw [HandlerMethod.parameter?, HandlerMethod.parameter?, h.parameters]
  have hone : ∀ token,
      Dossier.documentPlaceholder ⟨endpoint, m, settings, descriptions, defaults⟩ token =
        Dossier.documentPlaceholder ⟨other, m', settings, descriptions, defaults⟩ token := by
    intro token
    simp only [Dossier.documentPlaceholder, Dossier.lacksType, hdeclared, h.constraints]
    rfl
  rw [Dossier.documentPlaceholders, Dossier.documentPlaceholders, h.uri, funext hone]

theorem SameEvidence.responseShapes_eq (h : SameEvidence endpoint other m m')
    (settings : Settings) (descriptions defaults : NoteTable) :
    Dossier.responseShapes ⟨endpoint, m, settings, descriptions, defaults⟩ =
      Dossier.responseShapes ⟨other, m', settings, descriptions, defaults⟩ := by
  have hshapes : ∀ dossier : Dossier, dossier.responseShapes =
      (fun shapes => shapes.filterMap id) <$>
        (dossier.method.comment.contents "response").mapM Response.parse := by
    intro dossier
    rw [Dossier.responseShapes, Comment.contents, List.mapM_map]
    rfl
  rw [hshapes, hshapes, h.responses]

/-- The parameters of the query are documented alike if the source of rules answers alike. -/
theorem documentQuery_alike {provider : RuleProvider}
    (hrules : Alike (fun _ _ => True) (provider m) (provider m')) (settings : Settings)
    (descriptions defaults : NoteTable) :
    Alike Fault.SameKind
      (Dossier.documentQuery ⟨endpoint, m, settings, descriptions, defaults⟩ provider)
      (Dossier.documentQuery ⟨other, m', settings, descriptions, defaults⟩ provider) := by
  simp only [Dossier.documentQuery]
  generalize provider m = answer at hrules ⊢
  generalize provider m' = answer' at hrules ⊢
  cases hrules with
  | ok rules => exact .ok _
  | error _ => exact .error (Fault.SameKind.rulesUnavailable _ _)

/-- The same evidence and notes give entries alike. -/
theorem SameEvidence.entry_alike (h : SameEvidence endpoint other m m') {provider : RuleProvider}
    (hrules : Alike (fun _ _ => True) (provider m) (provider m')) (settings : Settings)
    (descriptions defaults : NoteTable) :
    Alike Fault.SameKind
      (Dossier.entry ⟨endpoint, m, settings, descriptions, defaults⟩ provider)
      (Dossier.entry ⟨other, m', settings, descriptions, defaults⟩ provider) := by
  have htitle : Dossier.title ⟨endpoint, m, settings, descriptions, defaults⟩ =
      Dossier.title ⟨other, m', settings, descriptions, defaults⟩ := by
    simp only [Dossier.title, h.summary, h.name]
  have hdescription : Dossier.description ⟨endpoint, m, settings, descriptions, defaults⟩ =
      Dossier.description ⟨other, m', settings, descriptions, defaults⟩ := by
    simp only [Dossier.description, h.body]
  -- all parts are equal but for the query, where two causes of failure may differ
  simp only [Dossier.entry, h.uri, h.methods, htitle, hdescription, h.resourcePath_eq,
    h.documentPlaceholders_eq, h.responseShapes_eq]
  refine (Alike.of_eq Fault.SameKind.refl rfl).bind fun resource => ?_
  refine (Alike.of_eq Fault.SameKind.refl rfl).bind fun pathParameters => ?_
  refine (documentQuery_alike hrules settings descriptions defaults).bind fun queryParameters => ?_
  exact Alike.of_eq Fault.SameKind.refl rfl

end Parts

/-! ## The entry -/

/-- Two endpoints with the same evidence, for which the source of rules answers alike, have the same
entry or fail with faults of one kind. -/
theorem document_sameEvidence {endpoint other : Endpoint} {m m' : HandlerMethod}
    (compiler : Compiler) (provider : RuleProvider) (h : SameEvidence endpoint other m m')
    (hrules : Alike (fun _ _ => True) (provider m) (provider m')) :
    Alike Fault.SameKind (compiler.document provider endpoint)
      (compiler.document provider other) := by
  rw [document_of_method h.handler, document_of_method h.otherHandler]
  refine (gather_alike h.descriptions h.ownerDescriptions _).bind fun descriptions => ?_
  refine (gather_alike h.defaults h.ownerDefaults id).bind fun defaults => ?_
  exact h.entry_alike hrules compiler.settings descriptions defaults

/-- A method whose comment and owner have some tags. -/
def orderMethod (tags ownerTags : List Tag) : HandlerMethod where
  owner := "Orders"
  name := "show"
  comment := { summary := "One order", tags }
  ownerComment := { tags := ownerTags }

/-- The endpoint that the method serves. -/
def orderEndpoint (name : Option String) (m : HandlerMethod) : Endpoint where
  uri := "/orders/{id}"
  name
  declaredMethods := ["GET"]
  handler := .method m

/-- The tags of an order in another order and case, with others between them and after them, and a
name for the route. The second tag has no value, so that both endpoints fail, with the name of the
tag as it is written. -/
theorem document_sameEvidence_orderEndpoint :
    let m := orderMethod
      [⟨"describe", "path id Its number"⟩, ⟨"default", "path id"⟩, ⟨"resource", "Orders"⟩,
        ⟨"response", "id :: int"⟩] []
    let m' := orderMethod
      [⟨"Response", "id :: int"⟩, ⟨"author", "us"⟩, ⟨"DEFAULT", "path id"⟩,
        ⟨"Describe", "path id Its number"⟩]
      [⟨"resource", "Orders"⟩, ⟨"response", "[]"⟩, ⟨"resource", "Shop"⟩]
    SameEvidence (orderEndpoint none m) (orderEndpoint (some "orders.show") m') m m' ∧
      (Compiler.mk {} []).document .none (orderEndpoint none m) =
        .error (.malformedTag "default" (.tooFewParts "path id")) ∧
      (Compiler.mk {} []).document .none (orderEndpoint (some "orders.show") m') =
        .error (.malformedTag "DEFAULT" (.tooFewParts "path id")) ∧
      Alike Fault.SameKind ((Compiler.mk {} []).document .none (orderEndpoint none m))
        ((Compiler.mk {} []).document .none (orderEndpoint (some "orders.show") m')) := by
  intro m m'
  have hevidence :
      SameEvidence (orderEndpoint none m) (orderEndpoint (some "orders.show") m') m m' := by
    constructor
    case constraints => exact fun _ => rfl
    all_goals rfl
  exact ⟨hevidence, by rfl, by rfl,
    document_sameEvidence (Compiler.mk {} []) .none hevidence (.ok OrderedMap.empty)⟩

end ApiCatalog
