import ApiCatalog.Catalog.Basic

/-!
# Sections in order of their names

Putting an entry into its section keeps the sections in strict order (`Ascending.insertEntry`),
loses no entry (`perm_insertEntry`) and touches no other section: sections that are kept by a
property of their names can be chosen before or after (`filter_insertEntry`).
-/

namespace ApiCatalog

/-- The sections come in strict order of their names. -/
def Ascending (sections : List Section) : Prop := sections.Pairwise fun s t => s.name < t.name

/-- All entries, section by section. -/
def entriesOf (sections : List Section) : List Entry := sections.flatMap Section.entries

variable {entry : Entry} {sections : List Section}

theorem lt_of_not_lt {a b : String} (hlt : ¬ a < b) (hne : a ≠ b) : b < a :=
  String.not_le.1 fun hle => hne (String.le_antisymm hle (String.not_lt.1 hlt))

/-- An entry opens its section, goes to the end of it, or passes over one that comes before. -/
theorem insertEntry_cons (entry : Entry) (s : Section) (rest : List Section) :
    (entry.sectionName < s.name ∧
      insertEntry entry (s :: rest) = ⟨entry.sectionName, [entry]⟩ :: s :: rest) ∨
    (entry.sectionName = s.name ∧
      insertEntry entry (s :: rest) = ⟨s.name, s.entries ++ [entry]⟩ :: rest) ∨
    (s.name < entry.sectionName ∧
      insertEntry entry (s :: rest) = s :: insertEntry entry rest) := by
  rw [insertEntry]
  split
  · rename_i hlt
    exact .inl ⟨hlt, rfl⟩
  · rename_i hlt
    split
    · rename_i hname
      exact .inr (.inl ⟨hname, rfl⟩)
    · rename_i hname
      exact .inr (.inr ⟨lt_of_not_lt hlt hname, rfl⟩)

/-- An entry whose section is missing before all others opens it. -/
theorem insertEntry_of_lt (h : ∀ s ∈ sections, entry.sectionName < s.name) :
    insertEntry entry sections = ⟨entry.sectionName, [entry]⟩ :: sections := by
  cases sections with
  | nil => rfl
  | cons s rest => exact if_pos (h s (by simp))

/-- Each section is an old one or that of the entry. -/
theorem name_of_mem_insertEntry {t : Section} (h : t ∈ insertEntry entry sections) :
    t.name = entry.sectionName ∨ t ∈ sections := by
  induction sections with
  | nil =>
    obtain rfl := List.mem_singleton.1 h
    exact .inl rfl
  | cons s rest ih =>
    rcases insertEntry_cons entry s rest with ⟨-, heq⟩ | ⟨hname, heq⟩ | ⟨-, heq⟩
    · rw [heq] at h
      rcases List.mem_cons.1 h with rfl | h
      · exact .inl rfl
      · exact .inr h
    · rw [heq] at h
      rcases List.mem_cons.1 h with rfl | h
      · exact .inl hname.symm
      · exact .inr (List.mem_cons_of_mem s h)
    · rw [heq] at h
      rcases List.mem_cons.1 h with rfl | h
      · exact .inr List.mem_cons_self
      · exact (ih h).imp id (List.mem_cons_of_mem s)

theorem Ascending.insertEntry (h : Ascending sections) (entry : Entry) :
    Ascending (insertEntry entry sections) := by
  induction sections with
  | nil => exact List.pairwise_singleton _ _
  | cons s rest ih =>
    obtain ⟨hs, hrest⟩ := List.pairwise_cons.1 h
    rcases insertEntry_cons entry s rest with ⟨hlt, heq⟩ | ⟨-, heq⟩ | ⟨hlt, heq⟩
    · rw [heq]
      refine List.pairwise_cons.2 ⟨?_, h⟩
      intro t ht
      rcases List.mem_cons.1 ht with rfl | ht
      · exact hlt
      · exact String.lt_trans hlt (hs t ht)
    · rw [heq]
      exact List.pairwise_cons.2 ⟨hs, hrest⟩
    · rw [heq]
      refine List.pairwise_cons.2 ⟨?_, ih hrest⟩
      intro t ht
      rcases name_of_mem_insertEntry ht with hname | ht
      · exact hname ▸ hlt
      · exact hs t ht

/-- The entry is added, and no entry is lost. -/
theorem perm_insertEntry (entry : Entry) (sections : List Section) :
    (entriesOf (insertEntry entry sections)).Perm (entry :: entriesOf sections) := by
  induction sections with
  | nil => exact .refl _
  | cons s rest ih =>
    rcases insertEntry_cons entry s rest with ⟨-, heq⟩ | ⟨-, heq⟩ | ⟨-, heq⟩
    · rw [heq]
      exact .refl _
    · rw [heq]
      simp only [entriesOf, List.flatMap_cons, List.append_assoc, List.singleton_append]
      exact List.perm_middle
    · rw [heq]
      exact (ih.append_left s.entries).trans List.perm_middle

/-- Sections of some names are chosen before an entry is put in, or after. -/
theorem filter_insertEntry (keep : String → Bool) (h : Ascending sections) (entry : Entry) :
    (insertEntry entry sections).filter (keep ·.name) =
      if keep entry.sectionName then insertEntry entry (sections.filter (keep ·.name))
      else sections.filter (keep ·.name) := by
  induction sections with
  | nil => cases hk : keep entry.sectionName <;> simp [insertEntry, hk]
  | cons s rest ih =>
    obtain ⟨hs, hrest⟩ := List.pairwise_cons.1 h
    rcases insertEntry_cons entry s rest with ⟨hlt, -⟩ | ⟨hname, heq⟩ | ⟨hlt, heq⟩
    · -- all sections come after that of the entry, and so do those that are chosen
      have hall : ∀ t ∈ s :: rest, entry.sectionName < t.name := by
        intro t ht
        rcases List.mem_cons.1 ht with rfl | ht
        · exact hlt
        · exact String.lt_trans hlt (hs t ht)
      rw [insertEntry_of_lt hall,
        insertEntry_of_lt fun t ht => hall t (List.mem_filter.1 ht).1, List.filter_cons]
    · rw [heq]
      cases hk : keep s.name <;> simp [insertEntry, hname, hk]
    · have hnext : insertEntry entry (s :: rest.filter (keep ·.name)) =
          s :: insertEntry entry (rest.filter (keep ·.name)) := by
        rw [insertEntry, if_neg (String.lt_asymm hlt), if_neg (String.ne_of_lt hlt).symm]
      rw [heq, List.filter_cons, List.filter_cons, ih hrest]
      cases hk : keep s.name <;> cases hentry : keep entry.sectionName <;> simp [hnext]

/-! ## All entries -/

theorem perm_foldl_insertEntry (entries : List Entry) (sections : List Section) :
    (entriesOf (entries.foldl (fun sections entry => insertEntry entry sections) sections)).Perm
      (entries ++ entriesOf sections) := by
  induction entries generalizing sections with
  | nil => exact .refl _
  | cons entry entries ih =>
    exact (ih _).trans (((perm_insertEntry entry sections).append_left entries).trans
      List.perm_middle)

/-- The sections hold each entry once. -/
theorem perm_sectionsOf (entries : List Entry) :
    (entriesOf (sectionsOf entries)).Perm entries := by
  have h := perm_foldl_insertEntry entries []
  have hnone : entries ++ entriesOf [] = entries := List.append_nil entries
  rwa [hnone] at h

theorem Ascending.foldl_insertEntry (h : Ascending sections) (entries : List Entry) :
    Ascending (entries.foldl (fun sections entry => ApiCatalog.insertEntry entry sections)
      sections) := by
  induction entries generalizing sections with
  | nil => exact h
  | cons entry entries ih => exact ih (h.insertEntry entry)

theorem ascending_sectionsOf (entries : List Entry) : Ascending (sectionsOf entries) :=
  Ascending.foldl_insertEntry .nil entries

theorem filter_foldl_insertEntry (keep : String → Bool) (h : Ascending sections)
    (entries : List Entry) :
    (entries.foldl (fun sections entry => insertEntry entry sections) sections).filter
        (keep ·.name) =
      (entries.filter (keep ·.sectionName)).foldl
        (fun sections entry => insertEntry entry sections) (sections.filter (keep ·.name)) := by
  induction entries generalizing sections with
  | nil => rfl
  | cons entry entries ih =>
    rw [List.foldl_cons, ih (h.insertEntry entry), filter_insertEntry keep h, List.filter_cons]
    split <;> rfl

/-- The sections of some names hold the entries of these names, and are as without the others. -/
theorem filter_sectionsOf (keep : String → Bool) (entries : List Entry) :
    (sectionsOf entries).filter (keep ·.name) =
      sectionsOf (entries.filter (keep ·.sectionName)) :=
  filter_foldl_insertEntry keep .nil entries

theorem foldl_insertEntry_same {name : String} {entries : List Entry}
    (h : ∀ entry ∈ entries, entry.sectionName = name) (before : List Entry) :
    entries.foldl (fun sections entry => insertEntry entry sections) [⟨name, before⟩] =
      [⟨name, before ++ entries⟩] := by
  induction entries generalizing before with
  | nil => simp
  | cons entry entries ih =>
    have hname : entry.sectionName = name := h entry (by simp)
    have hput : insertEntry entry [⟨name, before⟩] = [⟨name, before ++ [entry]⟩] := by
      simp [insertEntry, hname]
    rw [List.foldl_cons, hput, ih fun e he => h e (by simp [he]), List.append_assoc]
    rfl

/-- Entries of one name make up one section, in their order. -/
theorem sectionsOf_same {name : String} {entries : List Entry} (hne : entries ≠ [])
    (h : ∀ entry ∈ entries, entry.sectionName = name) : sectionsOf entries = [⟨name, entries⟩] := by
  obtain ⟨entry, entries, rfl⟩ := List.exists_cons_of_ne_nil hne
  have hname : entry.sectionName = name := h entry (by simp)
  subst hname
  exact foldl_insertEntry_same (fun e he => h e (by simp [he])) [entry]

/-- The sections of a name: one with all entries of that name in their order, if there are any. -/
theorem filter_sectionsOf_name (name : String) (entries : List Entry) :
    (sectionsOf entries).filter (·.name == name) =
      match entries.filter (·.sectionName == name) with
      | [] => []
      | own => [⟨name, own⟩] := by
  rw [filter_sectionsOf (· == name)]
  cases hown : entries.filter (·.sectionName == name) with
  | nil => rfl
  | cons entry own =>
    refine sectionsOf_same (by simp) fun e he => ?_
    rw [← hown] at he
    simpa using (List.mem_filter.1 he).2

/-- The entries in the sections of a name are those of that name, in their order. -/
theorem entriesOf_filter_sectionsOf (name : String) (entries : List Entry) :
    entriesOf ((sectionsOf entries).filter (·.name == name)) =
      entries.filter (·.sectionName == name) := by
  rw [filter_sectionsOf_name]
  split
  · rename_i hnone
    rw [hnone]
    rfl
  · simp [entriesOf]

end ApiCatalog
