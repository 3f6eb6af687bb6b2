import ApiCatalog.Proofs.Catalog.Sections
import ApiCatalog.Proofs.Text.Order
import Mathlib.Data.List.Forall2

/-!
# Sections as a stable sort

The sections of entries, one after the other, are the entries sorted by the names of their sections,
where entries of one name keep their order (`sectionsOf_stable`). Both lists are sorted, and each
holds the entries of a name as they come: so they are equal. The names are those of the entries, in
strict order, whatever the order of the entries.
-/

namespace ApiCatalog

variable {entries other : List Entry} {s : Section}

/-! ## One section -/

/-- A section holds the entries of its name in their order, and there are some. -/
theorem entries_of_mem_sectionsOf (h : s ∈ sectionsOf entries) :
    s.entries = entries.filter (·.sectionName == s.name) ∧ s.entries ≠ [] := by
  have hmem : s ∈ (sectionsOf entries).filter (·.name == s.name) :=
    List.mem_filter.2 ⟨h, by simp⟩
  rw [filter_sectionsOf_name] at hmem
  split at hmem
  · simp at hmem
  · rename_i hne
    rw [List.mem_singleton.1 hmem]
    exact ⟨rfl, hne⟩

theorem sectionName_of_mem (h : s ∈ sectionsOf entries) {entry : Entry} (hentry : entry ∈ s.entries) :
    entry.sectionName = s.name := by
  rw [(entries_of_mem_sectionsOf h).1] at hentry
  simpa using (List.mem_filter.1 hentry).2

/-! ## All sections -/

/-- The entries of a name are in the sections of that name. -/
theorem filter_entriesOf {sections : List Section}
    (h : ∀ s ∈ sections, ∀ entry ∈ s.entries, entry.sectionName = s.name) (name : String) :
    (entriesOf sections).filter (·.sectionName == name) =
      entriesOf (sections.filter (·.name == name)) := by
  induction sections with
  | nil => rfl
  | cons s rest ih =>
    obtain ⟨hs, hrest⟩ := List.forall_mem_cons.1 h
    have hown : s.entries.filter (·.sectionName == name) =
        s.entries.filter fun _ => s.name == name :=
      List.filter_congr fun entry hentry => by rw [hs entry hentry]
    have hsplit : entriesOf (s :: rest) = s.entries ++ entriesOf rest := List.flatMap_cons
    rw [hsplit, List.filter_append, ih hrest, hown, List.filter_cons]
    cases s.name == name <;> simp [entriesOf]

theorem pairwise_entriesOf_sectionsOf (entries : List Entry) :
    (entriesOf (sectionsOf entries)).Pairwise fun e e' => e.sectionName ≤ e'.sectionName := by
  rw [entriesOf, List.pairwise_flatMap]
  constructor
  · intro s hs
    refine List.pairwise_of_forall_mem_list fun e he e' he' => ?_
    have hsame : e.sectionName = e'.sectionName :=
      (sectionName_of_mem hs he).trans (sectionName_of_mem hs he').symm
    exact hsame ▸ String.le_refl _
  · refine (ascending_sectionsOf entries).imp_of_mem fun hs ht hlt e he e' he' => ?_
    rw [sectionName_of_mem hs he, sectionName_of_mem ht he']
    exact String.not_lt.1 (String.lt_asymm hlt)

theorem entriesOf_sectionsOf (entries : List Entry) :
    entriesOf (sectionsOf entries) = entries.mergeSort (Text.keyLE Entry.sectionName) := by
  refine Text.eq_of_filter_eq (pairwise_entriesOf_sectionsOf entries)
    (Text.pairwise_mergeSort_keyLE _ entries) fun name => ?_
  rw [filter_entriesOf fun s hs entry => sectionName_of_mem hs, entriesOf_filter_sectionsOf,
    Text.filter_mergeSort_keyLE]

/-! ## Entries in another order -/

/-- The names of sections are those of the entries. -/
theorem mem_map_name_sectionsOf {name : String} :
    name ∈ (sectionsOf entries).map Section.name ↔ name ∈ entries.map Entry.sectionName := by
  rw [← ((perm_sectionsOf entries).map Entry.sectionName).mem_iff, List.mem_map, List.mem_map]
  constructor
  · rintro ⟨s, hs, rfl⟩
    obtain ⟨entry, hentry⟩ := List.exists_mem_of_ne_nil _ (entries_of_mem_sectionsOf hs).2
    exact ⟨entry, List.mem_flatMap.2 ⟨s, hs, hentry⟩, sectionName_of_mem hs hentry⟩
  · rintro ⟨entry, hentry, rfl⟩
    obtain ⟨s, hs, hentry⟩ := List.mem_flatMap.1 hentry
    exact ⟨s, hs, (sectionName_of_mem hs hentry).symm⟩

theorem map_name_sectionsOf_of_perm (h : entries.Perm other) :
    (sectionsOf entries).map Section.name = (sectionsOf other).map Section.name := by
  have hlt : ∀ entries, ((sectionsOf entries).map Section.name).Pairwise (· < ·) := fun entries =>
    List.pairwise_map.2 (ascending_sectionsOf entries)
  have hnodup : ∀ entries, ((sectionsOf entries).map Section.name).Nodup := fun entries =>
    (hlt entries).imp fun {a b} (hab : a < b) (heq : a = b) => String.lt_irrefl b (heq ▸ hab)
  have hperm : ((sectionsOf entries).map Section.name).Perm
      ((sectionsOf other).map Section.name) := by
    refine (List.perm_ext_iff_of_nodup (hnodup entries) (hnodup other)).2 fun name => ?_
    rw [mem_map_name_sectionsOf, mem_map_name_sectionsOf, (h.map _).mem_iff]
  -- there is one strict order of the same names
  refine hperm.eq_of_pairwise (fun a b _ _ hab hba => ?_) (hlt entries) (hlt other)
  exact absurd hba (String.lt_asymm hab)

/-- The same entries in another order make up the same sections, but for the order in each. -/
theorem forall₂_sectionsOf_of_perm (h : entries.Perm other) :
    List.Forall₂ (fun s t => s.name = t.name ∧ s.entries.Perm t.entries) (sectionsOf entries)
      (sectionsOf other) := by
  have hnames : List.Forall₂ (fun s t : Section => s.name = t.name) (sectionsOf entries)
      (sectionsOf other) :=
    List.forall₂_map_left_iff.1 (List.forall₂_map_right_iff.1
      (List.forall₂_eq_eq_eq ▸ map_name_sectionsOf_of_perm h))
  refine List.forall₂_iff_zip.2 ⟨hnames.length_eq, fun {s t} hpair => ?_⟩
  have hname := List.forall₂_zip hnames hpair
  refine ⟨hname, ?_⟩
  rw [(entries_of_mem_sectionsOf (List.of_mem_zip hpair).1).1,
    (entries_of_mem_sectionsOf (List.of_mem_zip hpair).2).1, hname]
  exact h.filter _

/-! ## The grouping -/

/-- The sections come in strict order of the bytes of their names. Each holds entries, all that are
named like it and in their order; the name is that of their resource. All sections one after the
other are the entries in a stable sort by these names. The order of the entries has no influence on
the names, and in a section only on the order of its entries. -/
theorem sectionsOf_stable (entries : List Entry) :
    (sectionsOf entries).Pairwise (fun s t => Text.bytes s.name < Text.bytes t.name) ∧
    (∀ s ∈ sectionsOf entries, s.entries ≠ [] ∧
      (∀ entry ∈ s.entries, s.name = " / ".intercalate entry.resource) ∧
      s.entries = entries.filter (·.sectionName == s.name)) ∧
    entriesOf (sectionsOf entries) = entries.mergeSort (fun entry entry' =>
      decide (Text.bytes entry.sectionName ≤ Text.bytes entry'.sectionName)) ∧
    (entriesOf (sectionsOf entries)).Perm entries ∧
    ∀ other, entries.Perm other →
      List.Forall₂ (fun s t => s.name = t.name ∧ s.entries.Perm t.entries) (sectionsOf entries)
        (sectionsOf other) := by
  refine ⟨(ascending_sectionsOf entries).imp Text.bytes_lt_iff.2, fun s hs => ?_, ?_,
    perm_sectionsOf entries, fun other => forall₂_sectionsOf_of_perm⟩
  · obtain ⟨hentries, hne⟩ := entries_of_mem_sectionsOf hs
    exact ⟨hne, fun entry hentry => (sectionName_of_mem hs hentry).symm, hentries⟩
  · have horder : (fun entry entry' : Entry =>
        decide (Text.bytes entry.sectionName ≤ Text.bytes entry'.sectionName)) =
          Text.keyLE Entry.sectionName := by
      funext entry entry'
      exact decide_eq_decide.2 Text.bytes_le_iff
    rw [horder, entriesOf_sectionsOf]

/-- An entry of which only the resource and the address are given. -/
def bareEntry (resource : List String) (uri : String) : Entry where
  id := ""
  resource
  uri
  methods := []
  title := ""
  description := ""
  pathParameters := []
  queryParameters := []
  responses := []

/-- Three entries of two resources, and the same entries in another order. -/
theorem sectionsOf_stable_bareEntries :
    let orders := bareEntry ["Shop", "Orders"] "/orders"
    let order := bareEntry ["Shop", "Orders"] "/orders/{id}"
    let shop := bareEntry ["Shop"] "/"
    [orders, shop, order].Perm [order, orders, shop] ∧
      List.Forall₂ (fun s t => s.name = t.name ∧ s.entries.Perm t.entries)
        (sectionsOf [orders, shop, order]) (sectionsOf [order, orders, shop]) ∧
      sectionsOf [orders, shop, order] = [⟨"Shop", [shop]⟩, ⟨"Shop / Orders", [orders, order]⟩] ∧
      sectionsOf [order, orders, shop] =
        [⟨"Shop", [shop]⟩, ⟨"Shop / Orders", [order, orders]⟩] := by
  intro orders order shop
  have hperm : ([orders, shop] ++ [order]).Perm ([order] ++ [orders, shop]) :=
    List.perm_append_comm
  obtain ⟨-, -, -, -, hsame⟩ := sectionsOf_stable [orders, shop, order]
  exact ⟨hperm, hsame _ hperm, by decide, by decide⟩

end ApiCatalog
