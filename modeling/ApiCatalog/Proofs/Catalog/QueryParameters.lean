import ApiCatalog.Catalog.Dossier
import ApiCatalog.Proofs.Endpoint.Rules
import ApiCatalog.Proofs.OrderedMap

/-!
# The parameters of a query

The parameters of a query are those that rules are declared for, in the order of their first
declarations, and each of them once. `DescribesQuery` says what the documentation of one of them is:
it has the rules of its last declaration, and only the notes on parameters of the query count. For
every row of declarations there is such a documentation (`documentQuery_declared`).
-/

namespace ApiCatalog.Dossier

/-- What the documentation of a declared parameter of the query is. -/
structure DescribesQuery (dossier : Dossier) (declarations : List (String × RuleDeclaration))
    (described : QueryParameter) : Prop where
  /-- The last declaration of the name decides the rules. -/
  rules : ∃ declaration, LastPair described.name declarations declaration ∧
    declaration.Declares described.rules
  default : described.default = dossier.defaults.get? .query described.name
  description_noted : ∀ text, dossier.descriptions.get? .query described.name = some text →
    described.description = text
  description_none : dossier.descriptions.get? .query described.name = none →
    described.description = ""

variable {dossier other : Dossier} {provider : RuleProvider} {rules : RuleTable}
  {declarations : List (String × RuleDeclaration)}

theorem documentQuery_of_ok (h : provider dossier.method = .ok rules) :
    dossier.documentQuery provider =
      .ok (rules.entries.map fun entry => dossier.documentRules entry.1 entry.2) := by
  rw [documentQuery, h]

/-- Only the notes on parameters of the query are read. -/
theorem documentQuery_congr (hrules : provider other.method = provider dossier.method)
    (hdefaults : ∀ name, other.defaults.get? .query name = dossier.defaults.get? .query name)
    (hdescriptions : ∀ name,
      other.descriptions.get? .query name = dossier.descriptions.get? .query name) :
    other.documentQuery provider = dossier.documentQuery provider := by
  have hone : other.documentRules = dossier.documentRules := by
    funext name rules
    rw [documentRules, documentRules, hdefaults, hdescriptions]
  rw [documentQuery, documentQuery, hrules, hone]

/-- An entry of a table of declared rules holds the rules of the last declaration of its name. -/
theorem exists_lastPair_of_mem {name : String} {rules : List String}
    (h : (name, rules) ∈ (RuleTable.ofDeclarations declarations).entries) :
    ∃ declaration, LastPair name declarations declaration ∧ declaration.Declares rules := by
  obtain ⟨before, after, hdeclarations, hafter⟩ :=
    OrderedMap.get?_ofList_eq_some_iff.1 (OrderedMap.get?_of_mem h)
  obtain ⟨before, rest, rfl, -, hrest⟩ := List.map_eq_append_iff.1 hdeclarations
  obtain ⟨⟨key, declaration⟩, after, rfl, hpair, rfl⟩ := List.map_eq_cons_iff.1 hrest
  obtain ⟨rfl, hrules⟩ := Prod.mk.inj hpair
  refine ⟨declaration, ⟨before, after, rfl, ?_⟩, declares_iff.2 hrules⟩
  simpa using hafter

theorem describesQuery_of_mem {name : String} {rules : List String}
    (h : (name, rules) ∈ (RuleTable.ofDeclarations declarations).entries) :
    dossier.DescribesQuery declarations (dossier.documentRules name rules) where
  rules := exists_lastPair_of_mem h
  default := rfl
  description_noted text htext := by simp only [documentRules] at htext ⊢; rw [htext]; rfl
  description_none hnone := by simp only [documentRules] at hnone ⊢; rw [hnone]; rfl

theorem names_ofDeclarations (declarations : List (String × RuleDeclaration)) :
    (RuleTable.ofDeclarations declarations).names = (declarations.map Prod.fst).eraseDups := by
  rw [RuleTable.ofDeclarations, OrderedMap.names_ofList, List.map_map]
  rfl

/-- The parameters of a query are documented from any declarations of rules: one for each declared
name, in the order of the first declarations, with the rules of the last declaration and with the
notes on parameters of the query alone. Rules that are declared in one text, joined by bars, are
those that were joined. -/
theorem documentQuery_declared (dossier : Dossier) (provider : RuleProvider)
    (declarations : List (String × RuleDeclaration))
    (hprovider : provider dossier.method = .ok (RuleTable.ofDeclarations declarations)) :
    (∃ described, dossier.documentQuery provider = .ok described ∧
      described.map QueryParameter.name = (declarations.map Prod.fst).eraseDups ∧
      (described.map QueryParameter.name).Nodup ∧
      ∀ parameter ∈ described, dossier.DescribesQuery declarations parameter) ∧
    (∀ other : Dossier, provider other.method = provider dossier.method →
      (∀ name, other.defaults.get? .query name = dossier.defaults.get? .query name) →
      (∀ name, other.descriptions.get? .query name = dossier.descriptions.get? .query name) →
      other.documentQuery provider = dossier.documentQuery provider) ∧
    ∀ pieces rules, (∀ rule ∈ rules, '|' ∉ rule.toList) → Holds pieces rules →
      (RuleDeclaration.piped (String.ofList (['|'].intercalate pieces))).rules = rules := by
  refine ⟨⟨_, documentQuery_of_ok hprovider, ?_, ?_, ?_⟩,
    fun other hrules hdefaults hdescriptions => documentQuery_congr hrules hdefaults hdescriptions,
    fun pieces rules hrules hholds => rules_piped_intercalate hrules hholds⟩
  · rw [← names_ofDeclarations, List.map_map]
    rfl
  · rw [List.map_map]
    exact (RuleTable.ofDeclarations declarations).nodup
  · intro parameter hparameter
    obtain ⟨entry, hentry, rfl⟩ := List.mem_map.1 hparameter
    exact describesQuery_of_mem hentry

/-- Pieces with three rules and two empty ones between bars. -/
def yearPieces : List (List Char) :=
  ["".toList, " required ".toList, "integer".toList, "".toList, "min:2017 ".toList]

/-- The rules in these pieces. -/
def yearRules : List String := ["required", "integer", "min:2017"]

/-- Rules that are declared for two parameters, for one of them twice. -/
def calendarDeclarations : List (String × RuleDeclaration) :=
  [("year", .listed ["integer"]), ("weekDay", .listed ["a|b", ""]),
    ("year", .piped "| required |integer||min:2017 ")]

/-- The source of these declarations. -/
def calendarRules : RuleProvider := fun _ => .ok (RuleTable.ofDeclarations calendarDeclarations)

/-- A dossier with notes on a parameter of the query. -/
def calendarDossier : Dossier where
  endpoint := { uri := "/calendar", declaredMethods := ["GET"], handler := .anonymous }
  method := { owner := "Calendar", name := "show" }
  settings := {}
  descriptions := NoteTable.empty.add .query "weekDay" "Day of the week"
  defaults := NoteTable.empty.add .query "weekDay" "2"

/-- The same dossier with a note on a parameter of the address. -/
def notedDossier : Dossier :=
  { calendarDossier with defaults := calendarDossier.defaults.add .path "year" "1970" }

/-- What the two parameters are documented as. -/
def calendarParameters : List QueryParameter :=
  [{ name := "year", default := none, rules := yearRules, description := "" },
    { name := "weekDay", default := some "2", rules := ["a|b", ""],
      description := "Day of the week" }]

theorem documentQuery_declared_calendar :
    calendarRules calendarDossier.method = .ok (RuleTable.ofDeclarations calendarDeclarations) ∧
      calendarDossier.documentQuery calendarRules = .ok calendarParameters ∧
      (calendarDeclarations.map Prod.fst).eraseDups = ["year", "weekDay"] ∧
      (∀ parameter ∈ calendarParameters,
        calendarDossier.DescribesQuery calendarDeclarations parameter) ∧
      notedDossier.documentQuery calendarRules = .ok calendarParameters ∧
      Holds yearPieces yearRules ∧
      (RuleDeclaration.piped (String.ofList (['|'].intercalate yearPieces))).rules = yearRules := by
  have hmade : calendarDossier.documentQuery calendarRules = .ok calendarParameters := rfl
  have hholds : Holds yearPieces yearRules := holds_kept yearPieces
  obtain ⟨⟨described, hok, hnames, -, hdescribes⟩, hother, hjoined⟩ :=
    documentQuery_declared calendarDossier calendarRules calendarDeclarations rfl
  obtain rfl := Except.ok.inj (hok.symm.trans hmade)
  exact ⟨rfl, hmade, hnames.symm, hdescribes,
    (hother notedDossier rfl (fun _ => rfl) fun _ => rfl).trans hmade, hholds,
    hjoined yearPieces yearRules (by decide) hholds⟩

end ApiCatalog.Dossier
