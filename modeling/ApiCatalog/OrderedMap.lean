/-!
# Maps that keep the order of first insertion

A key is listed once, where it was first inserted, with the value that was inserted last. `upsert`
is the step on lists of pairs; `OrderedMap` adds that keys are distinct. What a map holds is seen
through `get?`, and `get?_insert` says what an insertion changes.
-/

namespace ApiCatalog

variable {β : Type}

/-- Gives `key` the value `value`: in place if the key is there, else at the end. -/
def upsert (key : String) (value : β) : List (String × β) → List (String × β)
  | [] => [(key, value)]
  | (k, v) :: rest => if k = key then (key, value) :: rest else (k, v) :: upsert key value rest

/-- The keys after an insertion: a new key comes last. -/
theorem keys_upsert (key : String) (value : β) (entries : List (String × β)) :
    (upsert key value entries).map Prod.fst =
      if key ∈ entries.map Prod.fst then entries.map Prod.fst
      else entries.map Prod.fst ++ [key] := by
  induction entries with
  | nil => simp [upsert]
  | cons entry rest ih =>
    obtain ⟨k, v⟩ := entry
    by_cases h : k = key
    · subst h
      simp [upsert]
    · have hk : key ≠ k := fun e => h e.symm
      simp only [upsert, h, if_false, List.map_cons, ih, List.mem_cons, hk, false_or]
      split <;> simp

theorem nodup_keys_upsert {key : String} {value : β} {entries : List (String × β)}
    (h : (entries.map Prod.fst).Nodup) : ((upsert key value entries).map Prod.fst).Nodup := by
  rw [keys_upsert]
  split
  · exact h
  · rename_i hn
    simp only [List.nodup_append, h, List.nodup_cons, List.not_mem_nil, not_false_eq_true,
      List.nodup_nil, and_self, List.mem_singleton, true_and]
    intro a ha b hb
    subst hb
    exact fun e => hn (e ▸ ha)

/-- A new key is put at the end. -/
theorem upsert_of_not_mem {key : String} {value : β} {entries : List (String × β)}
    (h : key ∉ entries.map Prod.fst) : upsert key value entries = entries ++ [(key, value)] := by
  induction entries with
  | nil => rfl
  | cons entry rest ih =>
    obtain ⟨k, v⟩ := entry
    rw [List.map_cons, List.mem_cons, not_or] at h
    have hk : ¬ k = key := fun e => h.1 e.symm
    rw [upsert, if_neg hk, ih h.2, List.cons_append]

theorem upsert_ne_nil (key : String) (value : β) (entries : List (String × β)) :
    upsert key value entries ≠ [] := by
  cases entries with
  | nil => exact List.cons_ne_nil _ _
  | cons entry rest =>
    rw [upsert]
    split <;> exact List.cons_ne_nil _ _

/-- Looking a key up after an insertion. -/
theorem lookup_upsert (key other : String) (value : β) (entries : List (String × β)) :
    (upsert key value entries).lookup other =
      if other = key then some value else entries.lookup other := by
  induction entries with
  | nil =>
    by_cases h : other = key
    · simp [upsert, h]
    · have hb : (other == key) = false := by simpa using h
      simp [upsert, List.lookup_cons, hb, h]
  | cons entry rest ih =>
    obtain ⟨k, v⟩ := entry
    by_cases hk : k = key
    · subst hk
      by_cases ho : other = k
      · simp [upsert, ho]
      · have hb : (other == k) = false := by simpa using ho
        simp [upsert, List.lookup_cons, hb, ho]
    · by_cases ho : other = key
      · subst ho
        have hb : (other == k) = false := by simpa using fun e : other = k => hk e.symm
        simp [upsert, hk, List.lookup_cons, hb, ih]
      · cases hb : other == k <;> simp [upsert, hk, List.lookup_cons, hb, ih, ho]

/-- A map from names that keeps the order of first insertion. -/
structure OrderedMap (β : Type) where
  /-- Names and values, in order of first insertion. -/
  entries : List (String × β)
  /-- No name is listed twice. -/
  nodup : (entries.map Prod.fst).Nodup
deriving DecidableEq

namespace OrderedMap

/-- The map without entries. -/
def empty : OrderedMap β := ⟨[], by simp⟩

instance : Inhabited (OrderedMap β) := ⟨empty⟩

/-- The names in order of first insertion. -/
def names (m : OrderedMap β) : List String := m.entries.map Prod.fst

/-- The number of entries. -/
def size (m : OrderedMap β) : Nat := m.entries.length

/-- Whether there are no entries. -/
def isEmpty (m : OrderedMap β) : Bool := m.entries.isEmpty

/-- The value of a name. -/
def get? (m : OrderedMap β) (name : String) : Option β := m.entries.lookup name

/-- Gives a name a value; a name that is there already keeps its place. -/
def insert (m : OrderedMap β) (name : String) (value : β) : OrderedMap β :=
  ⟨upsert name value m.entries, nodup_keys_upsert m.nodup⟩

/-- Inserts the pairs one after the other, so the last value of a name stays. -/
def ofList (pairs : List (String × β)) : OrderedMap β :=
  pairs.foldl (fun m p => m.insert p.1 p.2) empty

@[simp] theorem get?_empty (name : String) : (empty : OrderedMap β).get? name = none := rfl

theorem get?_insert (m : OrderedMap β) (key other : String) (value : β) :
    (m.insert key value).get? other = if other = key then some value else m.get? other :=
  lookup_upsert key other value m.entries

theorem names_insert (m : OrderedMap β) (key : String) (value : β) :
    (m.insert key value).names = if key ∈ m.names then m.names else m.names ++ [key] :=
  keys_upsert key value m.entries

end OrderedMap

end ApiCatalog
