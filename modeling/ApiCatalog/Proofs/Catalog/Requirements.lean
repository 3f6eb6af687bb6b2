import ApiCatalog.Catalog.Compiler

/-!
# When an endpoint is documented

An endpoint has to meet seven requirements, which are checked in a fixed order (`Requirement.all`).
It is documented if it meets all of them, and otherwise fails with the fault of the first one that
it does not meet (`document_requirements`). The proof goes through `Requirement.fault?`, which looks
for the fault of each requirement on its own: each part of an entry fails with the fault of its
requirement, and the first part that fails decides (`faultOf_bind`).
-/

namespace ApiCatalog

variable {α β : Type}

/-! ## What the first failure is -/

/-- All items are read. -/
def AllRead (read : α → Except Fault β) (items : List α) : Prop :=
  ∀ item ∈ items, ∃ value, read item = .ok value

/-- The first item that is not read fails with the fault. -/
def FirstFails (read : α → Except Fault β) (items : List α) (fault : Fault) : Prop :=
  ∃ before item after, items = before ++ item :: after ∧ AllRead read before ∧
    read item = .error fault

/-- The fault of what failed. -/
def faultOf : Except Fault α → Option Fault
  | .ok _ => none
  | .error fault => some fault

theorem faultOf_eq_none_iff {result : Except Fault α} :
    faultOf result = none ↔ ∃ value, result = .ok value := by
  cases result <;> simp [faultOf]

theorem faultOf_eq_some_iff {result : Except Fault α} {fault : Fault} :
    faultOf result = some fault ↔ result = .error fault := by
  cases result <;> simp [faultOf]

/-- Two parts fail with the fault of the first, or with that of the second, which may use the value
of the first but fails in the same way for all values. -/
theorem faultOf_bind {result : Except Fault α} {next : α → Except Fault β} {later : Option Fault}
    (h : ∀ value, faultOf (next value) = later) :
    faultOf (result >>= next) = (faultOf result).or later := by
  cases result with
  | error fault => rfl
  | ok value => exact h value

/-- Two parts succeed one after the other. -/
theorem exists_of_bind_ok {result : Except Fault α} {next : α → Except Fault β} {value : β}
    (h : result >>= next = .ok value) : ∃ first, result = .ok first ∧ next first = .ok value := by
  cases result with
  | error fault => exact absurd h (by simp [bind, Except.bind])
  | ok first => exact ⟨first, rfl, h⟩

theorem faultOf_bind_pure (result : Except Fault α) (f : α → β) :
    faultOf (result >>= fun value => pure (f value)) = faultOf result := by
  cases result <;> rfl

theorem faultOf_mapM (read : α → Except Fault β) (items : List α) :
    faultOf (items.mapM read) = items.findSome? fun item => faultOf (read item) := by
  induction items with
  | nil => rfl
  | cons item items ih =>
    rw [List.mapM_cons, faultOf_bind fun value => faultOf_bind_pure _ _, ih, List.findSome?_cons]
    cases faultOf (read item) <;> rfl

/-- All items are read if the search for a fault finds none. -/
theorem findSome?_eq_none_iff_allRead {read : α → Except Fault β} {items : List α} :
    (items.findSome? fun item => faultOf (read item)) = none ↔ AllRead read items := by
  simp only [List.findSome?_eq_none_iff, faultOf_eq_none_iff, AllRead]

theorem findSome?_eq_some_iff_firstFails {read : α → Except Fault β} {items : List α}
    {fault : Fault} :
    (items.findSome? fun item => faultOf (read item)) = some fault ↔
      FirstFails read items fault := by
  simp only [List.findSome?_eq_some_iff, faultOf_eq_none_iff, faultOf_eq_some_iff, FirstFails,
    AllRead]
  constructor
  · rintro ⟨before, item, after, hitems, hfault, hread⟩
    exact ⟨before, item, after, hitems, hread, hfault⟩
  · rintro ⟨before, item, after, hitems, hread, hfault⟩
    exact ⟨before, item, after, hitems, hfault, hread⟩

/-! ## Requirements -/

namespace Endpoint

/-- The tags of a name on the handler method, those of its own comment before those of its
owner's. -/
def tagsNamed (endpoint : Endpoint) (name : String) : List Tag :=
  match endpoint.handler with
  | .method m => (m.comment.tags ++ m.ownerComment.tags).filter (·.isNamed name)
  | .anonymous => []

/-- The tags of a name in the method's own comment. -/
def ownTagsNamed (endpoint : Endpoint) (name : String) : List Tag :=
  match endpoint.handler with
  | .method m => m.comment.tags.filter (·.isNamed name)
  | .anonymous => []

/-- Whether the placeholder of a token is bound to a declared parameter without a type. The first
parameter of its name counts, in any case of its letters. -/
def BindsUntyped (endpoint : Endpoint) (token : String) : Prop :=
  ∃ m, endpoint.handler = .method m ∧
    ∃ p, m.parameters.find? (Text.sameName ·.name (Placeholder.name token)) = some p ∧
      p.typeName = none

end Endpoint

/-- What an endpoint has to meet to be documented. -/
inductive Requirement where
  /-- The handler is a method. -/
  | namedHandler
  /-- All descriptions of parameters are readable, on the method and on its owner. -/
  | descriptions
  /-- All default values of parameters are readable, on the method and on its owner. -/
  | defaults
  /-- The tag that names the resource is readable, if there is one. -/
  | resource
  /-- No placeholder is bound to a parameter without a type, if types are checked. -/
  | typedPlaceholders
  /-- The source of rules answers. -/
  | rules
  /-- All responses of the method are readable. -/
  | responses
deriving Repr, DecidableEq

namespace Requirement

/-- The requirements in the order in which they are checked. -/
def all : List Requirement :=
  [.namedHandler, .descriptions, .defaults, .resource, .typedPlaceholders, .rules, .responses]

theorem mem_all (requirement : Requirement) : requirement ∈ all := by
  cases requirement <;> decide

section

variable (settings : Settings) (provider : RuleProvider) (endpoint : Endpoint)

/-- Whether an endpoint meets a requirement. -/
def IsMet : Requirement → Prop
  | .namedHandler => ∃ m, endpoint.handler = .method m
  | .descriptions => AllRead ParameterNote.ofTag (endpoint.tagsNamed "describe")
  | .defaults => AllRead ParameterNote.ofTag (endpoint.tagsNamed "default")
  | .resource => ∀ tag, (endpoint.tagsNamed "resource").head? = some tag →
      ∃ path, Resource.parse tag.content = .ok path
  | .typedPlaceholders => settings.typeChecks = true →
      ∀ token ∈ Placeholder.tokens endpoint.uri, ¬ endpoint.BindsUntyped token
  | .rules => ∀ m, endpoint.handler = .method m → ∃ rules, provider m = .ok rules
  | .responses => AllRead (fun tag => Response.parse tag.content) (endpoint.ownTagsNamed "response")

/-- Whether an endpoint does not meet a requirement, and fails with a fault. -/
def FailsWith (fault : Fault) : Requirement → Prop
  | .namedHandler => endpoint.handler = .anonymous ∧
      fault = .unsupportedHandler endpoint.handler.action
  | .descriptions => FirstFails ParameterNote.ofTag (endpoint.tagsNamed "describe") fault
  | .defaults => FirstFails ParameterNote.ofTag (endpoint.tagsNamed "default") fault
  | .resource => ∃ tag, (endpoint.tagsNamed "resource").head? = some tag ∧
      Resource.parse tag.content = .error fault
  | .typedPlaceholders => settings.typeChecks = true ∧ ∃ before token after,
      Placeholder.tokens endpoint.uri = before ++ token :: after ∧
        (∀ earlier ∈ before, ¬ endpoint.BindsUntyped earlier) ∧ endpoint.BindsUntyped token ∧
        fault = .untypedParameter (Placeholder.name token)
  | .rules => ∃ m causes, endpoint.handler = .method m ∧ provider m = .error causes ∧
      fault = .rulesUnavailable causes
  | .responses => FirstFails (fun tag => Response.parse tag.content)
      (endpoint.ownTagsNamed "response") fault

/-- The fault of the placeholder of a token. -/
def placeholderFault? (token : String) : Option Fault :=
  let untyped := endpoint.handler.method?.any fun m =>
    (m.parameter? (Placeholder.name token)).any (·.typeName.isNone)
  if settings.typeChecks && untyped then some (.untypedParameter (Placeholder.name token)) else none

/-- The fault of an endpoint that does not meet a requirement. -/
def fault? : Requirement → Option Fault
  | .namedHandler =>
    if endpoint.handler = .anonymous then some (.unsupportedHandler endpoint.handler.action)
    else none
  | .descriptions => (endpoint.tagsNamed "describe").findSome? (faultOf <| ParameterNote.ofTag ·)
  | .defaults => (endpoint.tagsNamed "default").findSome? (faultOf <| ParameterNote.ofTag ·)
  | .resource => (endpoint.tagsNamed "resource").head?.bind (faultOf <| Resource.parse ·.content)
  | .typedPlaceholders =>
    (Placeholder.tokens endpoint.uri).findSome? (placeholderFault? settings endpoint)
  | .rules => endpoint.handler.method?.bind fun m =>
      match provider m with
      | .error causes => some (.rulesUnavailable causes)
      | .ok _ => none
  | .responses =>
    (endpoint.ownTagsNamed "response").findSome? (faultOf <| Response.parse ·.content)

variable {settings provider endpoint}

theorem placeholderFault?_eq_some_iff {token : String} {fault : Fault} :
    placeholderFault? settings endpoint token = some fault ↔
      settings.typeChecks = true ∧ endpoint.BindsUntyped token ∧
        fault = .untypedParameter (Placeholder.name token) := by
  cases hhandler : endpoint.handler with
  | anonymous => simp [placeholderFault?, Endpoint.BindsUntyped, hhandler, Handler.method?]
  | method m =>
    cases hp : m.parameters.find? (Text.sameName ·.name (Placeholder.name token)) <;>
      simp [placeholderFault?, Endpoint.BindsUntyped, hhandler, Handler.method?,
        HandlerMethod.parameter?, hp, and_assoc, @eq_comm _ fault]

theorem placeholderFault?_eq_none_iff {token : String} (h : settings.typeChecks = true) :
    placeholderFault? settings endpoint token = none ↔ ¬ endpoint.BindsUntyped token := by
  rw [Option.eq_none_iff_forall_ne_some]
  simp only [ne_eq, placeholderFault?_eq_some_iff, h, true_and, not_and]
  exact ⟨fun hnone hbinds => hnone _ hbinds rfl, fun hbinds _ h => absurd h hbinds⟩

/-- A requirement is met if no fault is found for it. -/
theorem fault?_eq_none_iff (requirement : Requirement) :
    requirement.fault? settings provider endpoint = none ↔
      requirement.IsMet settings provider endpoint := by
  cases requirement with
  | namedHandler => cases hhandler : endpoint.handler <;> simp [fault?, IsMet, hhandler]
  | descriptions => exact findSome?_eq_none_iff_allRead
  | defaults => exact findSome?_eq_none_iff_allRead
  | resource => simp [fault?, IsMet, Option.bind_eq_none_iff, faultOf_eq_none_iff]
  | typedPlaceholders =>
    rw [fault?, List.findSome?_eq_none_iff, IsMet]
    cases hchecks : settings.typeChecks with
    | false => simp [placeholderFault?, hchecks]
    | true => simp [placeholderFault?_eq_none_iff hchecks]
  | rules =>
    cases hhandler : endpoint.handler with
    | anonymous => simp [fault?, IsMet, hhandler, Handler.method?]
    | method m =>
      cases hrules : provider m <;>
        simp [fault?, IsMet, hhandler, Handler.method?, hrules]
  | responses => exact findSome?_eq_none_iff_allRead

/-- The fault that is found for a requirement is the one that the endpoint fails with. -/
theorem fault?_eq_some_iff (requirement : Requirement) {fault : Fault} :
    requirement.fault? settings provider endpoint = some fault ↔
      requirement.FailsWith settings provider endpoint fault := by
  cases requirement with
  | namedHandler =>
    cases hhandler : endpoint.handler <;> simp [fault?, FailsWith, hhandler, eq_comm]
  | descriptions => exact findSome?_eq_some_iff_firstFails
  | defaults => exact findSome?_eq_some_iff_firstFails
  | resource => simp [fault?, FailsWith, Option.bind_eq_some_iff, faultOf_eq_some_iff]
  | typedPlaceholders =>
    rw [fault?, List.findSome?_eq_some_iff, FailsWith]
    constructor
    · rintro ⟨before, token, after, htokens, hfault, hbefore⟩
      obtain ⟨hchecks, hbinds, rfl⟩ := placeholderFault?_eq_some_iff.1 hfault
      exact ⟨hchecks, before, token, after, htokens,
        fun earlier he => (placeholderFault?_eq_none_iff hchecks).1 (hbefore earlier he),
        hbinds, rfl⟩
    · rintro ⟨hchecks, before, token, after, htokens, hbefore, hbinds, rfl⟩
      exact ⟨before, token, after, htokens, placeholderFault?_eq_some_iff.2 ⟨hchecks, hbinds, rfl⟩,
        fun earlier he => (placeholderFault?_eq_none_iff hchecks).2 (hbefore earlier he)⟩
  | rules =>
    cases hhandler : endpoint.handler with
    | anonymous => simp [fault?, FailsWith, hhandler, Handler.method?]
    | method m =>
      cases hrules : provider m <;>
        simp [fault?, FailsWith, hhandler, Handler.method?, hrules, eq_comm]
  | responses => exact findSome?_eq_some_iff_firstFails

end

end Requirement

/-! ## The parts of an entry -/

section Parts

open Requirement

variable {settings : Settings} {provider : RuleProvider} {endpoint : Endpoint} {m : HandlerMethod}

theorem flatMap_tagsNamed (hmethod : endpoint.handler = .method m) (name : String) :
    (m.comments.flatMap fun comment => comment.tagsNamed name) = endpoint.tagsNamed name := by
  simp [HandlerMethod.comments, Comment.tagsNamed, Endpoint.tagsNamed, hmethod]

/-- The resource is named by the first tag of that name. -/
theorem resourceTag?_eq_head? (m : HandlerMethod) :
    Dossier.resourceTag? m =
      (m.comments.flatMap fun comment => comment.tagsNamed "resource").head? := by
  simp only [Dossier.resourceTag?, HandlerMethod.comments, Comment.tagNamed?_eq_head?]
  cases hown : (m.comment.tagsNamed "resource").head? <;> simp [hown, List.head?_append]

/-- Notes are gathered tag by tag. -/
theorem faultOf_addTags (transform : String → String) (table : NoteTable) (tags : List Tag) :
    faultOf (NoteTable.addTags transform table tags) =
      tags.findSome? (faultOf <| ParameterNote.ofTag ·) := by
  induction tags generalizing table with
  | nil => rfl
  | cons tag tags ih =>
    rw [NoteTable.addTags, List.foldlM_cons, List.findSome?_cons]
    cases hnote : ParameterNote.ofTag tag with
    | error fault => simp [faultOf, bind, Except.bind]
    | ok note => exact ih _

theorem faultOf_gather (hmethod : endpoint.handler = .method m) (name : String)
    (transform : String → String) :
    faultOf (NoteTable.gather name transform m.comments) =
      (endpoint.tagsNamed name).findSome? (faultOf <| ParameterNote.ofTag ·) := by
  rw [NoteTable.gather, faultOf_addTags, flatMap_tagsNamed hmethod]

/-! The parts of the entry of a dossier fail with the faults of their requirements. -/

variable {dossier : Dossier}

theorem faultOf_resourcePath (settings : Settings) (provider : RuleProvider)
    (hmethod : endpoint.handler = .method dossier.method) :
    faultOf dossier.resourcePath = Requirement.resource.fault? settings provider endpoint := by
  rw [Dossier.resourcePath, resourceTag?_eq_head?, flatMap_tagsNamed hmethod, fault?]
  cases (endpoint.tagsNamed "resource").head? <;> rfl

theorem faultOf_documentPlaceholders (provider : RuleProvider)
    (hsettings : dossier.settings = settings) (hendpoint : dossier.endpoint = endpoint)
    (hmethod : endpoint.handler = .method dossier.method) :
    faultOf dossier.documentPlaceholders =
      Requirement.typedPlaceholders.fault? settings provider endpoint := by
  have hone : ∀ token, faultOf (dossier.documentPlaceholder token) =
      placeholderFault? settings endpoint token := by
    intro token
    simp only [Dossier.documentPlaceholder, Dossier.lacksType, placeholderFault?, hmethod,
      Handler.method?, hsettings, Option.any_some]
    split <;> rfl
  rw [Dossier.documentPlaceholders, faultOf_mapM, hendpoint, fault?, funext hone]

theorem faultOf_documentQuery (settings : Settings) (provider : RuleProvider)
    (hmethod : endpoint.handler = .method dossier.method) :
    faultOf (dossier.documentQuery provider) =
      Requirement.rules.fault? settings provider endpoint := by
  rw [Dossier.documentQuery, fault?, hmethod]
  cases hrules : provider dossier.method <;>
    simp [Handler.method?, hrules, faultOf]

theorem faultOf_responseShapes (settings : Settings) (provider : RuleProvider)
    (hmethod : endpoint.handler = .method dossier.method) :
    faultOf dossier.responseShapes =
      Requirement.responses.fault? settings provider endpoint := by
  rw [Dossier.responseShapes, faultOf_bind_pure, faultOf_mapM, fault?, Endpoint.ownTagsNamed,
    hmethod]
  rfl

/-- The search for the first fault that a row of requirements has. -/
theorem findSome?_fault?_cons (requirement : Requirement) (rest : List Requirement) :
    (requirement :: rest).findSome? (fault? settings provider endpoint) =
      (requirement.fault? settings provider endpoint).or
        (rest.findSome? (fault? settings provider endpoint)) := by
  rw [List.findSome?_cons]
  cases requirement.fault? settings provider endpoint <;> rfl

/-- The entry of a dossier fails with the first fault of the later requirements. -/
theorem faultOf_entry (hsettings : dossier.settings = settings)
    (hendpoint : dossier.endpoint = endpoint)
    (hmethod : endpoint.handler = .method dossier.method) :
    faultOf (dossier.entry provider) =
      [Requirement.resource, .typedPlaceholders, .rules, .responses].findSome?
        (fault? settings provider endpoint) := by
  simp only [findSome?_fault?_cons, List.findSome?_nil, Option.or_none,
    ← faultOf_resourcePath settings provider hmethod,
    ← faultOf_documentPlaceholders provider hsettings hendpoint hmethod,
    ← faultOf_documentQuery settings provider hmethod,
    ← faultOf_responseShapes settings provider hmethod]
  rw [Dossier.entry]
  exact faultOf_bind fun _ => faultOf_bind fun _ => faultOf_bind fun _ => faultOf_bind_pure _ _

end Parts

/-- An endpoint that a method serves is documented once its notes are gathered. -/
theorem document_of_method {endpoint : Endpoint} {m : HandlerMethod}
    (hmethod : endpoint.handler = .method m) (compiler : Compiler) (provider : RuleProvider) :
    compiler.document provider endpoint =
      NoteTable.descriptions m.comments >>= fun descriptions =>
        NoteTable.defaults m.comments >>= fun defaults =>
          Dossier.entry ⟨endpoint, m, compiler.settings, descriptions, defaults⟩ provider := by
  simp [Compiler.document, Dossier.ofEndpoint, hmethod, Handler.method?]

/-- An endpoint fails with the first fault of all requirements. -/
theorem faultOf_document (compiler : Compiler) (provider : RuleProvider) (endpoint : Endpoint) :
    faultOf (compiler.document provider endpoint) =
      Requirement.all.findSome? (Requirement.fault? compiler.settings provider endpoint) := by
  rw [Requirement.all, findSome?_fault?_cons]
  cases hhandler : endpoint.handler with
  | anonymous =>
    have hunsupported : compiler.document provider endpoint =
        .error (.unsupportedHandler Handler.anonymous.action) := by
      rw [Compiler.document, Dossier.ofEndpoint, hhandler]
      rfl
    rw [hunsupported, Requirement.fault?, if_pos hhandler, hhandler]
    rfl
  | method m =>
    rw [Requirement.fault?, if_neg (by rw [hhandler]; simp), Option.none_or, findSome?_fault?_cons,
      findSome?_fault?_cons, Requirement.fault?, Requirement.fault?,
      ← faultOf_gather hhandler "describe", ← faultOf_gather hhandler "default",
      document_of_method hhandler]
    exact faultOf_bind fun _ => faultOf_bind fun _ => faultOf_entry rfl rfl hhandler

/-- An endpoint is documented exactly if it meets all requirements. Otherwise it fails with the
fault of the first requirement that it does not meet, at the first tag or placeholder that does not
meet it. -/
theorem document_requirements (compiler : Compiler) (provider : RuleProvider)
    (endpoint : Endpoint) :
    ((∃ entry, compiler.document provider endpoint = .ok entry) ↔
      ∀ requirement : Requirement, requirement.IsMet compiler.settings provider endpoint) ∧
    ∀ fault, compiler.document provider endpoint = .error fault ↔
      ∃ before requirement after, Requirement.all = before ++ requirement :: after ∧
        (∀ earlier ∈ before, Requirement.IsMet compiler.settings provider endpoint earlier) ∧
        requirement.FailsWith compiler.settings provider endpoint fault := by
  constructor
  · rw [← faultOf_eq_none_iff, faultOf_document, List.findSome?_eq_none_iff]
    simp only [Requirement.fault?_eq_none_iff]
    exact ⟨fun hmet requirement => hmet requirement requirement.mem_all,
      fun hmet requirement _ => hmet requirement⟩
  · intro fault
    rw [← faultOf_eq_some_iff, faultOf_document, List.findSome?_eq_some_iff]
    simp only [Requirement.fault?_eq_none_iff, Requirement.fault?_eq_some_iff]
    constructor
    · rintro ⟨before, requirement, after, hall, hfails, hmet⟩
      exact ⟨before, requirement, after, hall, hmet, hfails⟩
    · rintro ⟨before, requirement, after, hall, hmet, hfails⟩
      exact ⟨before, requirement, after, hall, hfails, hmet⟩

end ApiCatalog
