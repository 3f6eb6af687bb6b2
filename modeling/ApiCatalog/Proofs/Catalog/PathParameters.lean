import ApiCatalog.Proofs.Catalog.Requirements
import ApiCatalog.Proofs.Endpoint.Placeholders
import Mathlib.Data.List.Forall2

/-!
# The parameters of an address

The placeholders of an address are documented token by token. `Describes` says what the
documentation of one token is, as a relation to the declared parameter that the token is bound to,
the notes and the constraints; a token and a dossier have no more than one such documentation, and
it is the one that is made (`documentPlaceholder_eq_ok_iff`). For a whole address there is one for
each token, in order, unless types are checked and a token is bound to a parameter without one
(`documentPlaceholders_pattern`).
-/

namespace ApiCatalog

open Placeholder (IsNameOf isNameOf_iff)

variable {α β ε : Type}

/-- What is read one by one corresponds one by one to what is read. -/
theorem mapM_eq_ok_iff {read : α → Except ε β} {items : List α} {values : List β} :
    items.mapM read = .ok values ↔
      List.Forall₂ (fun item value => read item = .ok value) items values := by
  induction items generalizing values with
  | nil => cases values <;> simp [pure, Except.pure]
  | cons item items ih =>
    rw [List.mapM_cons]
    cases hitem : read item with
    | error e =>
      have hnone : ¬ List.Forall₂ (fun item value => read item = .ok value) (item :: items) values := by
        rintro ⟨⟩
        simp_all
      simp [bind, Except.bind, hnone]
    | ok value =>
      cases values with
      | nil => cases items.mapM read <;> simp [bind, Except.bind, pure, Except.pure]
      | cons value' values =>
        rw [List.forall₂_cons, ← ih, hitem]
        cases items.mapM read <;> simp [bind, Except.bind, pure, Except.pure]

/-! ## What a token is bound to -/

/-- The first declared parameter that is named so, in any case of its letters. -/
def HandlerMethod.Binds (m : HandlerMethod) (name : String) (p : Parameter) : Prop :=
  ∃ before after, m.parameters = before ++ p :: after ∧ Text.sameName p.name name = true ∧
    ∀ earlier ∈ before, Text.sameName earlier.name name = false

/-- A parameter of a declared type that is an entity and no primitive. -/
def Parameter.IsEntity (p : Parameter) (type : String) : Prop :=
  p.typeName = some type ∧ p.entity = true ∧ p.builtin = false

theorem HandlerMethod.parameter?_eq_some_iff {m : HandlerMethod} {name : String} {p : Parameter} :
    m.parameter? name = some p ↔ m.Binds name p := by
  rw [parameter?, List.find?_eq_some_iff_append, Binds]
  constructor
  · rintro ⟨hname, before, after, hparameters, hbefore⟩
    exact ⟨before, after, hparameters, hname, by simpa using hbefore⟩
  · rintro ⟨before, after, hparameters, hname, hbefore⟩
    exact ⟨hname, before, after, hparameters, by simpa using hbefore⟩

theorem HandlerMethod.parameter?_eq_none_iff {m : HandlerMethod} {name : String} :
    m.parameter? name = none ↔ ∀ p, ¬ m.Binds name p := by
  simp only [Option.eq_none_iff_forall_ne_some, ne_eq, parameter?_eq_some_iff]

namespace Dossier

/-- A token is bound to a declared parameter without a type. -/
def BindsUntyped (dossier : Dossier) (token : String) : Prop :=
  ∃ name p, IsNameOf name token ∧ dossier.method.Binds name p ∧ p.typeName = none

/-- What the documentation of a token is. -/
structure Describes (dossier : Dossier) (token : String) (described : PathParameter) : Prop where
  /-- The name is the token without the question marks at its end. -/
  name : IsNameOf described.name token
  /-- The parameter is required unless the token ends in a question mark. -/
  required : described.required = true ↔ token.toList.getLast? ≠ some '?'
  /-- An entity is bound by its id. -/
  type_entity : ∀ p type, dossier.method.Binds described.name p → p.IsEntity type →
    described.typeName = some "model_id"
  /-- Every other type is exposed as it is declared. -/
  type_declared : ∀ p, dossier.method.Binds described.name p → (∀ type, ¬ p.IsEntity type) →
    described.typeName = p.typeName
  type_unbound : (∀ p, ¬ dossier.method.Binds described.name p) → described.typeName = none
  /-- A declared default value comes before a noted one. -/
  default_declared : ∀ p value, dossier.method.Binds described.name p → p.default = some value →
    described.default = some value
  default_noted : (∀ p, dossier.method.Binds described.name p → p.default = none) →
    described.default = dossier.defaults.get? .path described.name
  constraint : described.constraint = dossier.endpoint.constraints.get? described.name
  /-- A noted description comes before that of an entity. -/
  description_noted : ∀ text, dossier.descriptions.get? .path described.name = some text →
    described.description = text
  description_entity : dossier.descriptions.get? .path described.name = none →
    ∀ p type, dossier.method.Binds described.name p → p.IsEntity type →
      described.description = "`" ++ type ++ "` id"
  description_none : dossier.descriptions.get? .path described.name = none →
    (∀ p type, dossier.method.Binds described.name p → ¬ p.IsEntity type) →
      described.description = ""

/-! ## One token -/

variable {dossier : Dossier} {token : String} {described other : PathParameter}

/-- A token and a dossier determine the documentation. -/
theorem Describes.unique (h : dossier.Describes token described)
    (h' : dossier.Describes token other) : described = other := by
  have hname : described.name = other.name :=
    (isNameOf_iff.1 h.name).trans (isNameOf_iff.1 h'.name).symm
  have hrequired : described.required = other.required :=
    Bool.eq_iff_iff.2 (h.required.trans h'.required.symm)
  obtain ⟨name, required, typeName, default, constraint, description⟩ := described
  obtain ⟨name', required', typeName', default', constraint', description'⟩ := other
  obtain rfl : name = name' := hname
  obtain rfl : required = required' := hrequired
  obtain rfl : constraint = constraint' := h.constraint.trans h'.constraint.symm
  have htype : typeName = typeName' := by
    by_cases hbound : ∃ p, dossier.method.Binds name p
    · obtain ⟨p, hp⟩ := hbound
      by_cases hentity : ∃ type, p.IsEntity type
      · obtain ⟨type, htype⟩ := hentity
        exact (h.type_entity p type hp htype).trans (h'.type_entity p type hp htype).symm
      · rw [not_exists] at hentity
        exact (h.type_declared p hp hentity).trans (h'.type_declared p hp hentity).symm
    · rw [not_exists] at hbound
      exact (h.type_unbound hbound).trans (h'.type_unbound hbound).symm
  have hdefault : default = default' := by
    by_cases hdeclared : ∃ p value, dossier.method.Binds name p ∧ p.default = some value
    · obtain ⟨p, value, hp, hvalue⟩ := hdeclared
      exact (h.default_declared p value hp hvalue).trans
        (h'.default_declared p value hp hvalue).symm
    · have hnone : ∀ p, dossier.method.Binds name p → p.default = none := fun p hp =>
        Option.eq_none_iff_forall_ne_some.2 fun value hvalue => hdeclared ⟨p, value, hp, hvalue⟩
      exact (h.default_noted hnone).trans (h'.default_noted hnone).symm
  have hdescription : description = description' := by
    cases hnoted : dossier.descriptions.get? .path name with
    | some text =>
      exact (h.description_noted text hnoted).trans (h'.description_noted text hnoted).symm
    | none =>
      by_cases hentity : ∃ p type, dossier.method.Binds name p ∧ p.IsEntity type
      · obtain ⟨p, type, hp, htype⟩ := hentity
        exact (h.description_entity hnoted p type hp htype).trans
          (h'.description_entity hnoted p type hp htype).symm
      · have hnone : ∀ p type, dossier.method.Binds name p → ¬ p.IsEntity type :=
          fun p type hp htype => hentity ⟨p, type, hp, htype⟩
        exact (h.description_none hnoted hnone).trans (h'.description_none hnoted hnone).symm
  rw [htype, hdefault, hdescription]

theorem entityName?_eq_some_iff {p : Parameter} {type : String} :
    entityName? p = some type ↔ p.IsEntity type := by
  rw [entityName?, Parameter.IsEntity]
  cases p.entity <;> cases p.builtin <;> simp

theorem entityName?_eq_none_iff {p : Parameter} :
    entityName? p = none ↔ ∀ type, ¬ p.IsEntity type := by
  simp only [Option.eq_none_iff_forall_ne_some, ne_eq, entityName?_eq_some_iff]

theorem lacksType_eq_true_iff :
    dossier.lacksType (Placeholder.name token) = true ↔
      dossier.settings.typeChecks = true ∧ dossier.BindsUntyped token := by
  rw [lacksType, Bool.and_eq_true, Option.any_eq_true]
  refine and_congr_right' ?_
  constructor
  · rintro ⟨p, hp, htype⟩
    exact ⟨_, p, isNameOf_iff.2 rfl, HandlerMethod.parameter?_eq_some_iff.1 hp, by simpa using htype⟩
  · rintro ⟨name, p, hname, hp, htype⟩
    obtain rfl := isNameOf_iff.1 hname
    exact ⟨p, HandlerMethod.parameter?_eq_some_iff.2 hp, by simp [htype]⟩

/-- What is made of a token describes it. -/
theorem describes_of_ok (h : dossier.documentPlaceholder token = .ok described) :
    dossier.Describes token described := by
  simp only [documentPlaceholder] at h
  split at h
  · exact absurd h (by simp)
  · obtain rfl := Except.ok.inj h
    have hbound : ∀ {p}, dossier.method.Binds (Placeholder.name token) p →
        dossier.method.parameter? (Placeholder.name token) = some p :=
      HandlerMethod.parameter?_eq_some_iff.2
    have hentity : ∀ {p type}, p.IsEntity type → entityName? p = some type :=
      entityName?_eq_some_iff.2
    exact
      { name := isNameOf_iff.2 rfl
        required := by simp [Placeholder.isOptional]
        type_entity := fun p type hp htype => by
          simp [hbound hp, exposedType?, hentity htype, entityType]
        type_declared := fun p hp htype => by
          simp [hbound hp, exposedType?, entityName?_eq_none_iff.2 htype]
        type_unbound := fun hnone => by
          simp [HandlerMethod.parameter?_eq_none_iff.2 hnone]
        default_declared := fun p value hp hvalue => by
          simp [hbound hp, hvalue]
        default_noted := fun hnone => by
          cases hp : dossier.method.parameter? (Placeholder.name token) with
          | none => rfl
          | some p => simp [hnone p (HandlerMethod.parameter?_eq_some_iff.1 hp)]
        constraint := rfl
        description_noted := fun text htext => by simp [htext]
        description_entity := fun hnone p type hp htype => by
          simp [hnone, hbound hp, hentity htype]
        description_none := fun hnone hentity => by
          cases hp : dossier.method.parameter? (Placeholder.name token) with
          | none => simp [hnone]
          | some p =>
            have hname := entityName?_eq_none_iff.2
              (hentity p · (HandlerMethod.parameter?_eq_some_iff.1 hp))
            simp [hnone, hname] }

theorem documentPlaceholder_eq_error_iff {fault : Fault} :
    dossier.documentPlaceholder token = .error fault ↔
      dossier.settings.typeChecks = true ∧ dossier.BindsUntyped token ∧
        ∃ name, IsNameOf name token ∧ fault = .untypedParameter name := by
  rw [← and_assoc, ← lacksType_eq_true_iff]
  simp only [documentPlaceholder, isNameOf_iff, exists_eq_left]
  split <;> simp [*, eq_comm]

theorem exists_documentPlaceholder_iff :
    (∃ described, dossier.documentPlaceholder token = .ok described) ↔
      ¬ (dossier.settings.typeChecks = true ∧ dossier.BindsUntyped token) := by
  rw [← lacksType_eq_true_iff]
  simp only [documentPlaceholder]
  split <;> simp [*]

theorem documentPlaceholder_eq_ok_iff :
    dossier.documentPlaceholder token = .ok described ↔
      ¬ (dossier.settings.typeChecks = true ∧ dossier.BindsUntyped token) ∧
        dossier.Describes token described := by
  rw [← exists_documentPlaceholder_iff]
  constructor
  · intro h
    exact ⟨⟨described, h⟩, describes_of_ok h⟩
  · rintro ⟨⟨made, hmade⟩, h⟩
    rw [hmade, (describes_of_ok hmade).unique h]

/-! ## All tokens -/

/-- The tokens of an address are all documented, one by one, or else the first of them that is bound
to a parameter without a type is at fault. -/
theorem documentPlaceholders_pattern (dossier : Dossier) (pattern : AddressPattern)
    (huri : dossier.endpoint.uri.toList = pattern.text) :
    (∀ fault, dossier.documentPlaceholders = .error fault ↔
      dossier.settings.typeChecks = true ∧ ∃ before token after,
        pattern.tokens = before ++ token :: after ∧
          (∀ earlier ∈ before, ¬ dossier.BindsUntyped earlier) ∧ dossier.BindsUntyped token ∧
          ∃ name, IsNameOf name token ∧ fault = .untypedParameter name) ∧
    ((∃ fault, dossier.documentPlaceholders = .error fault) ↔
      dossier.settings.typeChecks = true ∧ ∃ token ∈ pattern.tokens, dossier.BindsUntyped token) ∧
    ∀ described, dossier.documentPlaceholders = .ok described ↔
      ¬ (dossier.settings.typeChecks = true ∧
          ∃ token ∈ pattern.tokens, dossier.BindsUntyped token) ∧
        List.Forall₂ dossier.Describes pattern.tokens described := by
  have hall : dossier.documentPlaceholders = pattern.tokens.mapM dossier.documentPlaceholder := by
    rw [documentPlaceholders, Placeholder.tokens_text huri]
  have huntyped : (∀ token ∈ pattern.tokens,
      ¬ (dossier.settings.typeChecks = true ∧ dossier.BindsUntyped token)) ↔
        ¬ (dossier.settings.typeChecks = true ∧
          ∃ token ∈ pattern.tokens, dossier.BindsUntyped token) := by
    constructor
    · rintro h ⟨hchecks, token, htoken, hbinds⟩
      exact h token htoken ⟨hchecks, hbinds⟩
    · rintro h token htoken ⟨hchecks, hbinds⟩
      exact h ⟨hchecks, token, htoken, hbinds⟩
  refine ⟨fun fault => ?_, ?_, fun described => ?_⟩
  · rw [hall, ← faultOf_eq_some_iff, faultOf_mapM, findSome?_eq_some_iff_firstFails, FirstFails]
    simp only [AllRead, exists_documentPlaceholder_iff, documentPlaceholder_eq_error_iff]
    constructor
    · rintro ⟨before, token, after, htokens, hbefore, hchecks, huntyped, hfault⟩
      exact ⟨hchecks, before, token, after, htokens,
        fun earlier hearlier hbinds => hbefore earlier hearlier ⟨hchecks, hbinds⟩, huntyped, hfault⟩
    · rintro ⟨hchecks, before, token, after, htokens, hbefore, huntyped, hfault⟩
      exact ⟨before, token, after, htokens,
        fun earlier hearlier hbinds => hbefore earlier hearlier hbinds.2, hchecks, huntyped, hfault⟩
  · have hok : (∃ described, dossier.documentPlaceholders = .ok described) ↔
        ¬ (dossier.settings.typeChecks = true ∧
          ∃ token ∈ pattern.tokens, dossier.BindsUntyped token) := by
      rw [← huntyped, ← faultOf_eq_none_iff, hall, faultOf_mapM, findSome?_eq_none_iff_allRead,
        AllRead]
      simp only [exists_documentPlaceholder_iff]
    rw [← not_iff_not, ← hok]
    cases dossier.documentPlaceholders <;> simp
  · rw [hall, mapM_eq_ok_iff, ← huntyped, ← List.forall₂_and_left]
    simp only [documentPlaceholder_eq_ok_iff]

/-- The address `/orders/{order}/items/{Item?}`, with something after the last placeholder. -/
def itemPattern : AddressPattern where
  start := "/orders/".toList
  parts := [("order".toList, "/items/".toList), ("Item?".toList, "\x7d".toList)]
  start_plain := by decide
  tokens_plain := by decide
  literals_plain := by decide

/-- A dossier with an entity, a parameter without a type, and notes. -/
def itemDossier (typeChecks : Bool) : Dossier where
  endpoint :=
    { uri := "/orders/\x7border\x7d/items/\x7bItem?\x7d\x7d"
      declaredMethods := ["GET"]
      constraints := OrderedMap.ofList [("Item", "[0-9]+")]
      handler := .anonymous }
  method :=
    { owner := "Orders"
      name := "item"
      parameters := [{ name := "Order", typeName := some "Order", entity := true },
        { name := "item", default := some "1" }] }
  settings := { typeChecks }
  descriptions := NoteTable.empty.add .path "Item" "Its place"
  defaults := NoteTable.empty.add .path "order" "7"

/-- What the two placeholders are documented as if types are not checked. -/
def itemParameters : List PathParameter :=
  [{ name := "order", required := true, typeName := some "model_id", default := some "7",
      constraint := none, description := "`Order` id" },
    { name := "Item", required := false, typeName := none, default := some "1",
      constraint := some "[0-9]+", description := "Its place" }]

theorem documentPlaceholders_pattern_item :
    (∀ typeChecks, (itemDossier typeChecks).endpoint.uri.toList = itemPattern.text) ∧
      (itemDossier true).documentPlaceholders = .error (.untypedParameter "Item") ∧
      (itemDossier false).documentPlaceholders = .ok itemParameters ∧
      List.Forall₂ (itemDossier false).Describes itemPattern.tokens itemParameters := by
  have huri : ∀ typeChecks, (itemDossier typeChecks).endpoint.uri.toList = itemPattern.text := by
    decide
  have hmade : (itemDossier false).documentPlaceholders = .ok itemParameters := rfl
  have htyped : ¬ (itemDossier true).BindsUntyped "order" := fun h =>
    absurd (lacksType_eq_true_iff.2 ⟨rfl, h⟩) (by decide)
  have huntyped : (itemDossier true).BindsUntyped "Item?" := (lacksType_eq_true_iff.1 (by decide)).2
  obtain ⟨hfails, -, -⟩ := documentPlaceholders_pattern (itemDossier true) itemPattern (huri true)
  obtain ⟨-, -, hdescribed⟩ :=
    documentPlaceholders_pattern (itemDossier false) itemPattern (huri false)
  refine ⟨huri, (hfails _).2 ⟨rfl, ["order"], "Item?", [], by decide, by simpa using htyped,
    huntyped, "Item", isNameOf_iff.2 (by decide), rfl⟩, hmade, ((hdescribed _).1 hmade).2⟩

end Dossier

end ApiCatalog
