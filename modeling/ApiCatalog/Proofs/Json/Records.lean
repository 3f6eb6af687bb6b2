import ApiCatalog.Json.Record
import ApiCatalog.Proofs.Json.Written
import ApiCatalog.Proofs.OrderedMap
import Mathlib.Data.List.Forall2

/-!
# Records as they are written

A record is written as an object with its fields in order, where some may be left out (`MembersOf`).
Whichever are, the reader of records finds the others (`MembersOf.exists_record`), and a field that
is left out is read as its default (`HoldsField.optional`).
-/

namespace ApiCatalog.Json

open Value (asWritten membersAsWritten)

variable {α β : Type}

/-! ## Readers -/

namespace Reader

theorem string_asWritten (s : String) : Reader.string (asWritten (.string s)) = some s :=
  text?_writtenPieces s

theorem bool_asWritten (b : Bool) : Reader.bool (asWritten (.bool b)) = some b := rfl

theorem nullable_asWritten (s : Option String) :
    Reader.nullable Reader.string (Value.nullable s).asWritten = some s := by
  cases s with
  | none => rfl
  | some s => exact congrArg (Option.map some) (string_asWritten s)

/-- A list is read if its items are. -/
theorem list_asWritten {item : Reader α} {xs : List α} {vs : List Value}
    (h : List.Forall₂ (fun x v => item (asWritten v) = some x) xs vs) :
    Reader.list item (asWritten (.array vs)) = some xs := by
  rw [asWritten, Value.itemsAsWritten_eq]
  show (vs.map asWritten).mapM item = some xs
  induction h with
  | nil => rfl
  | cons hx _ ih => simp [hx, ih]

/-- A map is read if its values are. -/
theorem map_asWritten {value : Reader β} (write : β → Value)
    (h : ∀ b, value (write b).asWritten = some b) (m : OrderedMap β) :
    Reader.map value (asWritten (.object (m.entries.map fun entry => (entry.1, write entry.2)))) =
      some m := by
  have hentries : ∀ entries : List (String × β),
      (membersAsWritten (entries.map fun entry => (entry.1, write entry.2))).mapM (fun member => do
        let key ← Document.text? member.1
        let value ← value member.2
        pure (key, value)) = some entries := by
    intro entries
    induction entries with
    | nil => rfl
    | cons entry entries ih =>
      rw [List.map_cons, membersAsWritten, List.mapM_cons, ih]
      simp [text?_writtenPieces, h]
  rw [asWritten, Reader.map, hentries, Option.bind_eq_bind, Option.bind_some,
    OrderedMap.ofList_entries]
  rfl

end Reader

/-! ## Fields -/

/-- A field of a record that is written. -/
structure RecordField where
  name : String
  /-- Which values write the field. -/
  WrittenAs : Value → Prop
  /-- Whether the field can be left out. -/
  Omittable : Prop

/-- The members of an object that has the fields in order, except some that can be left out. -/
inductive MembersOf : List RecordField → List (String × Value) → Prop where
  | nil : MembersOf [] []
  | written {field : RecordField} {v : Value} {fields : List RecordField}
      {ms : List (String × Value)} (hv : field.WrittenAs v) (rest : MembersOf fields ms) :
      MembersOf (field :: fields) ((field.name, v) :: ms)
  | leftOut {field : RecordField} {fields : List RecordField} {ms : List (String × Value)}
      (h : field.Omittable) (rest : MembersOf fields ms) : MembersOf (field :: fields) ms

/-- A value is an object of the fields. -/
def ObjectOf (fields : List RecordField) (v : Value) : Prop :=
  ∃ ms, v = .object ms ∧ MembersOf fields ms

/-- A value is an array of what is written of some items. -/
def ArrayOf (WrittenAs : α → Value → Prop) (xs : List α) (v : Value) : Prop :=
  ∃ vs, v = .array vs ∧ List.Forall₂ WrittenAs xs vs

variable {field : RecordField} {fields known : List RecordField} {ms : List (String × Value)}
variable {names : List String} {record : Record} {reader : Reader α} {x default : α}
variable {WrittenAs : α → Value → Prop} {xs : List α}

theorem MembersOf.names_sublist (h : MembersOf fields ms) :
    (ms.map Prod.fst).Sublist (fields.map RecordField.name) := by
  induction h with
  | nil => exact .slnil
  | written _ _ ih => exact ih.cons_cons _
  | leftOut _ _ ih => exact ih.cons _

/-- A field is found among the members, unless it was left out. -/
theorem MembersOf.lookup (h : MembersOf fields ms) (hnodup : (fields.map RecordField.name).Nodup)
    (hfield : field ∈ fields) :
    (∃ v, ms.lookup field.name = some v ∧ field.WrittenAs v) ∨
      ms.lookup field.name = none ∧ field.Omittable := by
  induction h with
  | nil => exact absurd hfield List.not_mem_nil
  | @written other v fields ms hv rest ih =>
    rw [List.map_cons, List.nodup_cons] at hnodup
    rcases List.mem_cons.1 hfield with rfl | hmem
    · exact .inl ⟨v, List.lookup_cons_self, hv⟩
    · have hne : (field.name == other.name) = false := by
        rw [beq_eq_false_iff_ne]
        intro heq
        exact hnodup.1 (heq ▸ List.mem_map_of_mem hmem)
      rw [List.lookup_cons, hne]
      exact ih hnodup.2 hmem
  | @leftOut other fields ms homit rest ih =>
    rw [List.map_cons, List.nodup_cons] at hnodup
    rcases List.mem_cons.1 hfield with rfl | hmem
    · refine .inr ⟨?_, homit⟩
      rw [List.lookup_eq_none_iff, forall_bne_iff_notMem]
      exact fun hname => hnodup.1 (rest.names_sublist.subset hname)
    · exact ih hnodup.2 hmem

/-! ## Reading -/

namespace Record

/-- Of members with different names the known ones are read. -/
theorem ofMembers?_asWritten (h : (ms.map Prod.fst).Nodup) :
    ofMembers? names (membersAsWritten ms) =
      some ((ms.filter fun m => m.1 ∈ names).map fun m => (m.1, asWritten m.2)) := by
  induction ms with
  | nil => rfl
  | cons m ms ih =>
    obtain ⟨key, v⟩ := m
    rw [List.map_cons, List.nodup_cons] at h
    have hother : (((ms.filter fun m => m.1 ∈ names).map fun m =>
        (m.1, asWritten m.2)).lookup key) = none := by
      rw [List.lookup_eq_none_iff, forall_bne_iff_notMem, List.map_map]
      exact fun hkey => h.1 ((List.filter_sublist.map Prod.fst).subset hkey)
    rw [membersAsWritten, ofMembers?, text?_writtenPieces, ih h.2]
    by_cases hname : key ∈ names <;> simp [hname, hother]

theorem lookup_known {name : String} (hname : name ∈ names) :
    ((ms.filter fun m => m.1 ∈ names).map fun m => (m.1, asWritten m.2)).lookup name =
      (ms.lookup name).map asWritten := by
  induction ms with
  | nil => rfl
  | cons m ms ih =>
    obtain ⟨key, v⟩ := m
    by_cases hkey : name = key
    · subst hkey
      simp [hname]
    · have hne : (name == key) = false := by simpa using hkey
      by_cases hknown : key ∈ names <;> simp [hknown, List.lookup_cons, hne, ih]

/-- The record has the field as it was written, or not at all if it was left out. -/
def HoldsField (record : Record) (field : RecordField) : Prop :=
  (∃ v, record.fields.lookup field.name = some (asWritten v) ∧ field.WrittenAs v) ∨
    record.fields.lookup field.name = none ∧ field.Omittable

/-- The record has all the fields. -/
def Holds (record : Record) : List RecordField → Prop
  | [] => True
  | field :: fields => record.HoldsField field ∧ record.Holds fields

theorem holds_iff : record.Holds fields ↔ ∀ field ∈ fields, record.HoldsField field := by
  induction fields with
  | nil => simp [Holds]
  | cons field fields ih => rw [Holds, ih, List.forall_mem_cons]

/-- A field that cannot be left out is read. -/
theorem HoldsField.required (h : record.HoldsField field) (hmust : ¬ field.Omittable)
    (hread : ∀ v, field.WrittenAs v → reader (asWritten v) = some x) :
    record.required field.name reader = some x := by
  rcases h with ⟨v, hlookup, hv⟩ | ⟨-, homit⟩
  · rw [Record.required, hlookup, Option.bind_some, hread v hv]
  · exact absurd homit hmust

/-- A field that can be left out is read, or is its default. -/
theorem HoldsField.optional (h : record.HoldsField field) (hdefault : field.Omittable → x = default)
    (hread : ∀ v, field.WrittenAs v → reader (asWritten v) = some x) :
    record.optional field.name default reader = some x := by
  rcases h with ⟨v, hlookup, hv⟩ | ⟨hlookup, homit⟩
  · rw [Record.optional, hlookup]
    exact hread v hv
  · rw [Record.optional, hlookup, hdefault homit]

end Record

/-- The reader of records finds those fields of an object that it knows. -/
theorem MembersOf.exists_record (names : List String) (h : MembersOf fields ms)
    (hnodup : (fields.map RecordField.name).Nodup) (hknown : known ⊆ fields)
    (hnames : known.map RecordField.name = names) :
    ∃ record, Record.read? names (asWritten (.object ms)) = some record ∧ record.Holds known := by
  refine ⟨⟨(ms.filter fun m => m.1 ∈ names).map fun m => (m.1, asWritten m.2)⟩, ?_, ?_⟩
  · rw [asWritten, Record.read?, Record.ofMembers?_asWritten (hnodup.sublist h.names_sublist)]
    rfl
  rw [Record.holds_iff]
  intro field hfield
  have hname : field.name ∈ names := hnames ▸ List.mem_map_of_mem hfield
  rw [Record.HoldsField, Record.lookup_known hname]
  rcases h.lookup hnodup (hknown hfield) with ⟨v, hlookup, hv⟩ | ⟨hlookup, homit⟩
  · exact .inl ⟨v, by rw [hlookup]; rfl, hv⟩
  · exact .inr ⟨by rw [hlookup]; rfl, homit⟩

/-! ## Values of limited depth -/

/-- A value without numbers, in which at most `n` arrays and objects stand inside one another. -/
structure Shallow (n : Nat) (v : Value) : Prop where
  numberFree : v.NumberFree
  depth_le : v.asWritten.depth ≤ n

namespace Shallow

variable {m n : Nat} {v : Value}

theorem mono (h : Shallow m v) (hle : m ≤ n) : Shallow n v :=
  ⟨h.numberFree, Nat.le_trans h.depth_le hle⟩

theorem string (s : String) : Shallow n (.string s) := ⟨trivial, Nat.zero_le n⟩

theorem bool (b : Bool) : Shallow n (.bool b) := ⟨trivial, Nat.zero_le n⟩

theorem nullable (s : Option String) : Shallow n (Value.nullable s) := by
  cases s with
  | none => exact ⟨trivial, Nat.zero_le n⟩
  | some s => exact string s

theorem array {vs : List Value} (h : ∀ v ∈ vs, Shallow n v) : Shallow (n + 1) (.array vs) := by
  refine ⟨Value.numberFreeItems_iff.2 fun v hv => (h v hv).numberFree, ?_⟩
  have hdepth : Document.depthOfItems (Value.itemsAsWritten vs) ≤ n := by
    induction vs with
    | nil => exact Nat.zero_le n
    | cons v vs ih =>
      obtain ⟨hv, hvs⟩ := List.forall_mem_cons.1 h
      exact Nat.max_le.2 ⟨hv.depth_le, ih hvs⟩
  exact Nat.add_le_add_right hdepth 1

theorem object (h : ∀ m ∈ ms, Shallow n m.2) : Shallow (n + 1) (.object ms) := by
  refine ⟨Value.numberFreeMembers_iff.2 fun m hm => (h m hm).numberFree, ?_⟩
  have hdepth : Document.depthOfMembers (membersAsWritten ms) ≤ n := by
    induction ms with
    | nil => exact Nat.zero_le n
    | cons m ms ih =>
      obtain ⟨hm, hms⟩ := List.forall_mem_cons.1 h
      exact Nat.max_le.2 ⟨hm.depth_le, ih hms⟩
  exact Nat.add_le_add_right hdepth 1

end Shallow

/-- All that the fields are written as is shallow. -/
def ShallowFields (n : Nat) : List RecordField → Prop
  | [] => True
  | field :: fields => (∀ v, field.WrittenAs v → Shallow n v) ∧ ShallowFields n fields

variable {n : Nat} {v : Value}

theorem ObjectOf.shallow (hfields : ShallowFields n fields) (h : ObjectOf fields v) :
    Shallow (n + 1) v := by
  obtain ⟨ms, rfl, hms⟩ := h
  apply Shallow.object
  induction hms with
  | nil => simp
  | written hv _ ih => exact List.forall_mem_cons.2 ⟨hfields.1 _ hv, ih hfields.2⟩
  | leftOut _ _ ih => exact ih hfields.2

theorem ArrayOf.shallow
    (hitems : ∀ x v, WrittenAs x v → Shallow n v) (h : ArrayOf WrittenAs xs v) :
    Shallow (n + 1) v := by
  obtain ⟨vs, rfl, hvs⟩ := h
  apply Shallow.array
  induction hvs with
  | nil => simp
  | cons hx _ ih => exact List.forall_mem_cons.2 ⟨hitems _ _ hx, ih⟩

/-- What is written of each item is an array of the items. -/
theorem arrayOf_map {write : α → Value} (h : ∀ x, WrittenAs x (write x)) (xs : List α) :
    ArrayOf WrittenAs xs (.array (xs.map write)) :=
  ⟨_, rfl, List.forall₂_map_right_iff.2 (List.forall₂_same.2 fun x _ => h x)⟩

/-- An array is read if each item is read as it was written. -/
theorem ArrayOf.read
    (hitems : ∀ x v, WrittenAs x v → reader (asWritten v) = some x) (h : ArrayOf WrittenAs xs v) :
    Reader.list reader (asWritten v) = some xs := by
  obtain ⟨vs, rfl, hvs⟩ := h
  exact Reader.list_asWritten (hvs.imp fun x v hx => hitems x v hx)

end ApiCatalog.Json
