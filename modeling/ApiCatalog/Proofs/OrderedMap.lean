import ApiCatalog.OrderedMap
import Mathlib.Data.List.Induction

/-!
# Maps made from lists of pairs

A map that is made from a list of pairs lists each name at the place of the first pair with that
name (`names_ofList`) and gives it the value of the last one (`get?_ofList_eq_some_iff`). Its own
entries make it again (`ofList_entries`). All this rests on what one more pair at the end of the
list changes (`ofList_append`).
-/

namespace ApiCatalog

variable {β : Type} {name : String} {value : β} {pairs : List (String × β)}

/-- The last pair with a name in a list has the given value. -/
def LastPair (name : String) (pairs : List (String × β)) (value : β) : Prop :=
  ∃ before after, pairs = before ++ (name, value) :: after ∧ name ∉ after.map Prod.fst

/-- A name that differs from every key is none of the keys. -/
theorem forall_bne_iff_notMem :
    (∀ pair ∈ pairs, (name != pair.1) = true) ↔ name ∉ pairs.map Prod.fst := by
  simp only [List.mem_map, not_exists, not_and, bne_iff_ne]
  exact ⟨fun h pair hpair => Ne.symm (h pair hpair), fun h pair hpair => Ne.symm (h pair hpair)⟩

namespace OrderedMap

/-- An entry is found under its name, as no other entry has that name. -/
theorem get?_of_mem {m : OrderedMap β} (h : (name, value) ∈ m.entries) :
    m.get? name = some value := by
  obtain ⟨before, after, hentries⟩ := List.append_of_mem h
  have hnodup := m.nodup
  rw [hentries, List.map_append, List.map_cons, List.nodup_append] at hnodup
  obtain ⟨-, -, hapart⟩ := hnodup
  refine List.lookup_eq_some_iff.2 ⟨before, after, hentries, fun entry hentry => ?_⟩
  have hne : entry.1 ≠ name := hapart _ (List.mem_map_of_mem hentry) _ (by simp)
  simpa using Ne.symm hne

theorem ofList_append (pairs : List (String × β)) (pair : String × β) :
    ofList (pairs ++ [pair]) = (ofList pairs).insert pair.1 pair.2 := by
  simp [ofList]

/-- The names of a map that is made from a list, in the order of their first pairs. -/
theorem names_ofList (pairs : List (String × β)) :
    (ofList pairs).names = (pairs.map Prod.fst).eraseDups := by
  induction pairs using List.reverseRecOn with
  | nil => rfl
  | append_singleton pairs pair ih =>
    rw [ofList_append, names_insert, ih, List.map_append, List.map_singleton,
      List.eraseDups_append]
    by_cases hpair : pair.1 ∈ pairs.map Prod.fst <;>
      simp [List.mem_eraseDups, List.removeAll, List.eraseDups_cons, hpair]

theorem get?_ofList (name : String) (pairs : List (String × β)) :
    (ofList pairs).get? name = pairs.reverse.lookup name := by
  induction pairs using List.reverseRecOn with
  | nil => rfl
  | append_singleton pairs pair ih =>
    rw [ofList_append, get?_insert, ih, List.reverse_concat, List.lookup_cons]
    by_cases hname : name = pair.1
    · simp [hname]
    · have hother : (name == pair.1) = false := by simpa using hname
      simp [hname, hother]

/-- The value of a name in a map that is made from a list is that of the last pair. -/
theorem get?_ofList_eq_some_iff :
    (ofList pairs).get? name = some value ↔ LastPair name pairs value := by
  rw [get?_ofList, List.lookup_eq_some_iff]
  constructor
  · rintro ⟨after, before, hpairs, hafter⟩
    refine ⟨before.reverse, after.reverse, ?_, ?_⟩
    · rw [← List.reverse_inj, hpairs]
      simp
    · simpa using forall_bne_iff_notMem.1 hafter
  · rintro ⟨before, after, rfl, hafter⟩
    exact ⟨after.reverse, before.reverse, by simp, forall_bne_iff_notMem.2 (by simpa using hafter)⟩

/-- A list without repeated names is the entries of the map made from it. -/
theorem entries_ofList (h : (pairs.map Prod.fst).Nodup) : (ofList pairs).entries = pairs := by
  induction pairs using List.reverseRecOn with
  | nil => rfl
  | append_singleton pairs pair ih =>
    rw [List.map_append, List.nodup_append] at h
    obtain ⟨hpairs, -, hapart⟩ := h
    have hnew : pair.1 ∉ pairs.map Prod.fst := fun hmem => hapart _ hmem _ (by simp) rfl
    have hinsert : ((ofList pairs).insert pair.1 pair.2).entries =
        upsert pair.1 pair.2 (ofList pairs).entries := rfl
    rw [ofList_append, hinsert, ih hpairs, upsert_of_not_mem hnew]

/-- A map is made again from its entries. -/
theorem ofList_entries (m : OrderedMap β) : ofList m.entries = m := by
  obtain ⟨entries, hnodup⟩ := m
  exact (OrderedMap.mk.injEq _ _ _ _).mpr (entries_ofList hnodup)

end OrderedMap

end ApiCatalog
