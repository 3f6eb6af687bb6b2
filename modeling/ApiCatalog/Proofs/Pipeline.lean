import ApiCatalog.Pipeline
import ApiCatalog.Proofs.OrderedMap
import ApiCatalog.Text.Blank

/-!
# Runs of pipelines

A run either passes all its steps, each of which makes a draft that holds something, or it stops at
the first step that fails or makes a draft that holds nothing (`passes_or_stops`). What comes after
a stop is never looked at, and what comes after steps that were passed is run on the draft they made
(`run_assembled`).
-/

namespace ApiCatalog.Pipeline

variable {name step : String} {order : List String} {table steps row rest : List (String × Step)}
variable {f : Step} {draft final : Draft} {outcome : Except PipelineError Draft}

/-! ## Assembling -/

/-- An entry of a table that no entry of the same name precedes. -/
def FirstEntry (table : List (String × Step)) (entry : String × Step) : Prop :=
  ∃ before after, table = before ++ entry :: after ∧ entry.1 ∉ before.map Prod.fst

theorem lookup_eq_some_iff_firstEntry :
    table.lookup step = some f ↔ FirstEntry table (step, f) := by
  simp only [List.lookup_eq_some_iff, forall_bne_iff_notMem, FirstEntry]

theorem lookup_eq_none_iff_notMem : table.lookup step = none ↔ step ∉ table.map Prod.fst := by
  rw [List.lookup_eq_none_iff, forall_bne_iff_notMem]

/-- An order stands for the first entries of its names. -/
theorem resolve_eq_ok_iff :
    resolve name table order = .ok steps ↔
      steps.map Prod.fst = order ∧ ∀ entry ∈ steps, FirstEntry table entry := by
  induction order generalizing steps with
  | nil =>
    rw [resolve, List.map_eq_nil_iff]
    constructor
    · rintro ⟨⟩
      exact ⟨rfl, by simp⟩
    · rintro ⟨rfl, -⟩
      rfl
  | cons step order ih =>
    rw [resolve, List.map_eq_cons_iff]
    cases hlookup : table.lookup step with
    | none =>
      refine iff_of_false (by simp) ?_
      rintro ⟨⟨⟨_, f⟩, rest, rfl, rfl, -⟩, hfirst⟩
      rw [lookup_eq_some_iff_firstEntry.2 (hfirst _ List.mem_cons_self)] at hlookup
      cases hlookup
    | some f =>
      constructor
      · intro h
        cases hrest : resolve name table order with
        | error e => rw [hrest] at h; cases h
        | ok rest =>
          rw [hrest] at h
          cases h
          obtain ⟨hnames, hfirst⟩ := ih.1 hrest
          exact ⟨⟨_, rest, rfl, rfl, hnames⟩,
            List.forall_mem_cons.2 ⟨lookup_eq_some_iff_firstEntry.1 hlookup, hfirst⟩⟩
      · rintro ⟨⟨⟨_, g⟩, rest, rfl, rfl, hnames⟩, hfirst⟩
        obtain ⟨hentry, hothers⟩ := List.forall_mem_cons.1 hfirst
        rw [lookup_eq_some_iff_firstEntry.2 hentry] at hlookup
        cases hlookup
        rw [ih.2 ⟨hnames, hothers⟩]
        rfl

/-- An order with an unknown name stands for nothing, and the first such name is reported. -/
theorem resolve_eq_error_iff {e : PipelineError} :
    resolve name table order = .error e ↔
      ∃ before step after, order = before ++ step :: after ∧
        (∀ known ∈ before, known ∈ table.map Prod.fst) ∧ step ∉ table.map Prod.fst ∧
        e = .unknownStep name step := by
  induction order with
  | nil => exact iff_of_false (by simp [resolve]) (by simp)
  | cons step order ih =>
    rw [resolve]
    cases hlookup : table.lookup step with
    | none =>
      have hstep := lookup_eq_none_iff_notMem.1 hlookup
      constructor
      · rintro ⟨⟩
        exact ⟨[], step, order, rfl, by simp, hstep, rfl⟩
      · rintro ⟨before, unknown, after, horder, hknown, -, rfl⟩
        cases before with
        | nil =>
          obtain ⟨rfl, -⟩ := List.cons.inj horder
          rfl
        | cons known before =>
          obtain ⟨rfl, -⟩ := List.cons.inj horder
          exact absurd (hknown _ List.mem_cons_self) hstep
    | some f =>
      have hstep : step ∈ table.map Prod.fst := by
        by_contra hstep
        rw [lookup_eq_none_iff_notMem.2 hstep] at hlookup
        cases hlookup
      have hmap : (resolve name table order).map ((step, f) :: ·) = .error e ↔
          resolve name table order = .error e := by
        cases resolve name table order <;> simp [Except.map]
      rw [hmap, ih]
      constructor
      · rintro ⟨before, unknown, after, rfl, hknown, hunknown⟩
        exact ⟨step :: before, unknown, after, rfl, List.forall_mem_cons.2 ⟨hstep, hknown⟩,
          hunknown⟩
      · rintro ⟨before, unknown, after, horder, hknown, hunknown⟩
        cases before with
        | nil =>
          obtain ⟨rfl, -⟩ := List.cons.inj horder
          exact absurd hstep hunknown.1
        | cons known before =>
          obtain ⟨rfl, rfl⟩ := List.cons.inj horder
          exact ⟨before, unknown, after, rfl, (List.forall_mem_cons.1 hknown).2, hunknown⟩

theorem assemble_eq_ok_iff {p : Pipeline} :
    assemble name order table = .ok p ↔
      p.name = name ∧ p.stepNames = order ∧ ∀ entry ∈ p.steps, FirstEntry table entry := by
  rw [stepNames, ← @resolve_eq_ok_iff name, assemble]
  obtain ⟨pname, psteps⟩ := p
  cases resolve name table order with
  | error e => simp [Except.map]
  | ok steps => simp [Except.map, eq_comm]

theorem assemble_eq_error_iff {e : PipelineError} :
    assemble name order table = .error e ↔
      ∃ before step after, order = before ++ step :: after ∧
        (∀ known ∈ before, known ∈ table.map Prod.fst) ∧ step ∉ table.map Prod.fst ∧
        e = .unknownStep name step := by
  rw [← resolve_eq_error_iff, assemble]
  cases resolve name table order <;> simp [Except.map]

/-! ## Running -/

/-- Each step makes of the draft before it one that holds something; the last of them is
`final`. -/
inductive Passes : List (String × Step) → Draft → Draft → Prop where
  | nil (draft : Draft) : Passes [] draft draft
  | cons {step : String} {f : Step} {steps : List (String × Step)} {draft next final : Draft}
      (hstep : f draft = some next) (hnext : next.isEmpty = false)
      (hrest : Passes steps next final) : Passes ((step, f) :: steps) draft final

/-- A run comes to an early end at the last step of a row: the steps before are passed, and this one
fails or makes a draft that holds nothing. -/
inductive Stops (name : String) :
    List (String × Step) → Draft → Except PipelineError Draft → Prop where
  | failed {before : List (String × Step)} {step : String} {f : Step} {draft last : Draft}
      (hbefore : Passes before draft last) (hstep : f last = none) :
      Stops name (before ++ [(step, f)]) draft (.error (.failedStep name step))
  | emptied {before : List (String × Step)} {step : String} {f : Step} {draft last next : Draft}
      (hbefore : Passes before draft last) (hstep : f last = some next)
      (hnext : next.isEmpty = true) :
      Stops name (before ++ [(step, f)]) draft (.ok next)

/-- Steps that are passed are run and applied as a whole, before other steps. -/
theorem Passes.run (h : Passes row draft final) (name : String) (rest : List (String × Step)) :
    runSteps name (row ++ rest) draft = runSteps name rest final ∧
      appliedSteps (row ++ rest) draft = row.map Prod.fst ++ appliedSteps rest final := by
  induction h with
  | nil draft => exact ⟨rfl, rfl⟩
  | cons hstep hnext _ ih =>
    obtain ⟨hrun, happlied⟩ := ih
    rw [List.cons_append, runSteps, appliedSteps]
    simp only [hstep, hnext, Bool.false_eq_true, if_false]
    exact ⟨hrun, congrArg _ happlied⟩

/-- What comes after a stop is neither run nor applied. -/
theorem Stops.run (h : Stops name row draft outcome) (rest : List (String × Step)) :
    runSteps name (row ++ rest) draft = outcome ∧
      appliedSteps (row ++ rest) draft = row.map Prod.fst := by
  cases h with
  | @failed before step f _ last hbefore hstep =>
    obtain ⟨hrun, happlied⟩ := hbefore.run name ([(step, f)] ++ rest)
    rw [List.append_assoc, hrun, happlied, List.singleton_append, runSteps, appliedSteps]
    simp [hstep]
  | @emptied before step f _ last next hbefore hstep hnext =>
    obtain ⟨hrun, happlied⟩ := hbefore.run name ([(step, f)] ++ rest)
    rw [List.append_assoc, hrun, happlied, List.singleton_append, runSteps, appliedSteps]
    simp [hstep, hnext]

/-- A run can come to its end at the first step. -/
theorem Stops.first_failed (name : String) (hstep : f draft = none) :
    Stops name [(step, f)] draft (.error (.failedStep name step)) :=
  @failed name [] step f draft draft (.nil draft) hstep

theorem Stops.first_emptied (name : String) {next : Draft} (hstep : f draft = some next)
    (hnext : next.isEmpty = true) : Stops name [(step, f)] draft (.ok next) :=
  @emptied name [] step f draft draft next (.nil draft) hstep hnext

theorem Stops.cons {next : Draft} (hstep : f draft = some next) (hnext : next.isEmpty = false)
    (h : Stops name row next outcome) : Stops name ((step, f) :: row) draft outcome := by
  cases h with
  | failed hbefore hlast => exact .failed (.cons hstep hnext hbefore) hlast
  | emptied hbefore hlast hempty => exact .emptied (.cons hstep hnext hbefore) hlast hempty

/-- Every run passes all its steps or comes to an early end. -/
theorem passes_or_stops (name : String) (steps : List (String × Step)) (draft : Draft) :
    (∃ final, Passes steps draft final) ∨
      ∃ row rest outcome, steps = row ++ rest ∧ Stops name row draft outcome := by
  induction steps generalizing draft with
  | nil => exact .inl ⟨draft, .nil draft⟩
  | cons entry steps ih =>
    obtain ⟨step, f⟩ := entry
    cases hstep : f draft with
    | none => exact .inr ⟨[(step, f)], steps, _, rfl, .first_failed name hstep⟩
    | some next =>
      cases hnext : next.isEmpty with
      | true =>
        exact .inr ⟨[(step, f)], steps, _, rfl, .first_emptied name hstep hnext⟩
      | false =>
        rcases ih next with ⟨final, hpasses⟩ | ⟨row, rest, outcome, rfl, hstops⟩
        · exact .inl ⟨final, .cons hstep hnext hpasses⟩
        · exact .inr ⟨(step, f) :: row, rest, outcome, rfl, hstops.cons hstep hnext⟩

theorem Passes.run_eq (h : Passes steps draft final) (name : String) :
    runSteps name steps draft = .ok final ∧ appliedSteps steps draft = steps.map Prod.fst := by
  obtain ⟨hrun, happlied⟩ := h.run name []
  rw [List.append_nil] at hrun happlied
  exact ⟨hrun, by rw [happlied, appliedSteps, List.append_nil]⟩

/-- Steps that are not all passed decide alone about a run. -/
theorem runSteps_append_of_not_passes (h : ∀ final, ¬ Passes row draft final) :
    runSteps name (row ++ rest) draft = runSteps name row draft := by
  rcases passes_or_stops name row draft with
    ⟨final, hpasses⟩ | ⟨stopped, others, outcome, rfl, hstops⟩
  · exact absurd hpasses (h final)
  · rw [List.append_assoc, (hstops.run _).1, (hstops.run _).1]

/-- A pipeline is assembled unless its order names a step that the table does not have, of which the
first is reported; a name stands for its first entry. A run passes all steps or stops at one: then
the steps up to there are applied, and any others could follow without a change. An order in two
parts runs the second on what the first made, if the first was passed. -/
theorem run_assembled (name : String) (order : List String) (table : List (String × Step)) :
    (∀ e, assemble name order table = .error e ↔
      ∃ before step after, order = before ++ step :: after ∧
        (∀ known ∈ before, known ∈ table.map Prod.fst) ∧ step ∉ table.map Prod.fst ∧
        e = .unknownStep name step) ∧
    (∀ p, assemble name order table = .ok p ↔
      p.name = name ∧ p.stepNames = order ∧ ∀ entry ∈ p.steps, FirstEntry table entry) ∧
    ∀ p, assemble name order table = .ok p → ∀ content,
      ((∃ final, Passes p.steps (.text content) final) ∨
        ∃ row rest outcome, p.steps = row ++ rest ∧ Stops name row (.text content) outcome) ∧
      (∀ final, Passes p.steps (.text content) final →
        p.run content = .ok final ∧ p.applied content = order) ∧
      (∀ row rest outcome, p.steps = row ++ rest → Stops name row (.text content) outcome →
        p.run content = outcome ∧ p.applied content = row.map Prod.fst ∧
        ∀ others, (Pipeline.mk name (row ++ others)).run content = outcome ∧
          (Pipeline.mk name (row ++ others)).applied content = row.map Prod.fst) ∧
      ∀ first second, order = first ++ second → ∃ a b,
        assemble name first table = .ok a ∧ assemble name second table = .ok b ∧
        (∀ final, Passes a.steps (.text content) final →
          a.run content = .ok final ∧ p.run content = runSteps name b.steps final) ∧
        ((∀ final, ¬ Passes a.steps (.text content) final) → p.run content = a.run content) := by
  refine ⟨fun e => assemble_eq_error_iff, fun p => assemble_eq_ok_iff, ?_⟩
  intro p hp content
  obtain ⟨rfl, horder, hfirst⟩ := assemble_eq_ok_iff.1 hp
  refine ⟨passes_or_stops p.name p.steps _, ?_, ?_, ?_⟩
  · intro final hpasses
    obtain ⟨hrun, happlied⟩ := hpasses.run_eq p.name
    exact ⟨hrun, happlied.trans horder⟩
  · intro row rest outcome hsteps hstops
    refine ⟨?_, ?_, fun others => hstops.run others⟩
    · rw [run, hsteps, (hstops.run rest).1]
    · rw [applied, hsteps, (hstops.run rest).2]
  · intro first second hparts
    obtain ⟨row, rest, hsteps, hrow, hrest⟩ := List.map_eq_append_iff.1 (horder.trans hparts)
    rw [hsteps, List.forall_mem_append] at hfirst
    refine ⟨⟨p.name, row⟩, ⟨p.name, rest⟩, assemble_eq_ok_iff.2 ⟨rfl, hrow, hfirst.1⟩,
      assemble_eq_ok_iff.2 ⟨rfl, hrest, hfirst.2⟩, ?_, ?_⟩
    · intro final hpasses
      refine ⟨(hpasses.run_eq p.name).1, ?_⟩
      rw [run, hsteps, (hpasses.run p.name rest).1]
    · intro hnot
      rw [run, run, hsteps, runSteps_append_of_not_passes hnot]

/-- Trimming, and a step that always fails. -/
def trimmingTable : List (String × Step) :=
  [("trim", Step.onText Text.trim), ("reject", fun _ => none)]

/-- Of a blank content nothing is left to be rejected, whatever rejects. -/
theorem run_assembled_blank :
    assemble "tidy" ["trim", "reject"] trimmingTable = .ok ⟨"tidy", trimmingTable⟩ ∧
      (Pipeline.mk "tidy" trimmingTable).run "  " = .ok (.text "") ∧
      (Pipeline.mk "tidy" trimmingTable).applied "  " = ["trim"] := by
  have hassembled : assemble "tidy" ["trim", "reject"] trimmingTable =
    .ok ⟨"tidy", trimmingTable⟩ := rfl
  have hstops : Stops "tidy" [("trim", Step.onText Text.trim)] (.text "  ") (.ok (.text "")) :=
    .first_emptied "tidy" (by decide) (by decide)
  obtain ⟨-, -, hruns⟩ := run_assembled "tidy" ["trim", "reject"] trimmingTable
  obtain ⟨-, -, hearly, -⟩ := hruns _ hassembled "  "
  obtain ⟨hrun, happlied, -⟩ := hearly _ _ _ rfl hstops
  exact ⟨hassembled, hrun, happlied⟩

end ApiCatalog.Pipeline
