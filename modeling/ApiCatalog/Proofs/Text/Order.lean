import Mathlib.Tactic.SplitIfs

/-!
# Texts in order

Texts are compared character by character. That is the order of their bytes in UTF-8
(`bytes_lt_iff`): of two different characters, the lesser has the lesser bytes, whatever comes after
them (`utf8EncodeChar_append_lt`).

Lists that are sorted by a text are equal if they hold the same items under each text, in the same
order (`eq_of_filter_eq`). Sorting keeps the order of these items (`filter_mergeSort_keyLE`).
-/

namespace ApiCatalog.Text

open String (utf8EncodeChar)

/-- The bytes of a text in UTF-8. -/
def bytes (s : String) : List UInt8 := s.toUTF8.data.toList

theorem bytes_eq_flatMap (s : String) : bytes s = s.toList.flatMap utf8EncodeChar := by
  have hencode : s.toUTF8 = s.toList.utf8Encode := by
    rw [String.toUTF8_eq_toByteArray, ← String.toByteArray_ofList, String.ofList_toList]
  rw [bytes, hencode, List.utf8Encode, List.data_toByteArray]

/-! ## Characters -/

theorem ofNat_lt_ofNat_iff {m n : Nat} (hm : m < 256) (hn : n < 256) :
    UInt8.ofNat m < UInt8.ofNat n ↔ m < n := by
  simp [UInt8.lt_iff_toNat_lt, Nat.mod_eq_of_lt hm, Nat.mod_eq_of_lt hn]

theorem ofNat_eq_ofNat_iff {m n : Nat} (hm : m < 256) (hn : n < 256) :
    UInt8.ofNat m = UInt8.ofNat n ↔ m = n := by
  simp [← UInt8.toNat_inj, Nat.mod_eq_of_lt hm, Nat.mod_eq_of_lt hn]

theorem val_lt (c : Char) : c.val.toNat < 0x110000 := by
  rcases c.valid with h | h <;> omega

/-- The lesser character has the lesser bytes. -/
theorem utf8EncodeChar_append_lt {c d : Char} (h : c < d) (u v : List UInt8) :
    utf8EncodeChar c ++ u < utf8EncodeChar d ++ v := by
  have hlt : c.val.toNat < d.val.toNat := h
  have hbound : d.val.toNat < 0x110000 := val_lt d
  have hdigit : ∀ v : Nat, v / 4096 = v / 64 / 64 := fun v => by rw [Nat.div_div_eq_div_mul]
  have hlead : ∀ v : Nat, v / 262144 = v / 64 / 64 / 64 := fun v => by
    rw [Nat.div_div_eq_div_mul, Nat.div_div_eq_div_mul]
  simp only [utf8EncodeChar, hdigit, hlead]
  -- more bytes start with a greater one; as many bytes are as many digits to the base 64
  split_ifs <;>
    simp (disch := omega) only [List.cons_append, List.nil_append, List.cons_lt_cons_iff,
      ofNat_lt_ofNat_iff, ofNat_eq_ofNat_iff] <;> omega

/-! ## Texts -/

theorem flatMap_utf8EncodeChar_lt {cs ds : List Char} (h : cs < ds) :
    cs.flatMap utf8EncodeChar < ds.flatMap utf8EncodeChar := by
  induction cs generalizing ds with
  | nil =>
    cases ds with
    | nil => exact absurd h (List.lt_irrefl [])
    | cons d ds =>
      obtain ⟨byte, bytes, hbytes⟩ := List.exists_cons_of_ne_nil (@String.utf8EncodeChar_ne_nil d)
      rw [List.flatMap_cons, hbytes]
      exact List.nil_lt_cons _ _
  | cons c cs ih =>
    cases ds with
    | nil => exact absurd h (List.not_lt_nil _)
    | cons d ds =>
      rw [List.flatMap_cons, List.flatMap_cons]
      rcases List.cons_lt_cons_iff.1 h with hlt | ⟨rfl, hlt⟩
      · exact utf8EncodeChar_append_lt hlt _ _
      · exact List.append_left_lt (ih hlt)

theorem bytes_lt_of_lt {s t : String} (h : s < t) : bytes s < bytes t := by
  rw [bytes_eq_flatMap, bytes_eq_flatMap]
  exact flatMap_utf8EncodeChar_lt h

/-- The order of texts is that of their bytes. -/
theorem bytes_lt_iff {s t : String} : bytes s < bytes t ↔ s < t := by
  refine ⟨fun h => ?_, bytes_lt_of_lt⟩
  rcases Decidable.em (s < t) with hlt | hnot
  · exact hlt
  · have hle : t ≤ s := String.not_lt.1 hnot
    rcases Decidable.em (t = s) with rfl | hne
    · exact absurd h (List.lt_irrefl _)
    · have hlt : t < s := String.not_le.1 fun hst => hne (String.le_antisymm hle hst)
      exact absurd h (List.lt_asymm (bytes_lt_of_lt hlt))

theorem bytes_le_iff {s t : String} : bytes s ≤ bytes t ↔ s ≤ t := by
  rw [← String.not_lt, ← bytes_lt_iff, List.not_lt]

/-! ## Lists sorted by a text -/

section Keys

variable {α : Type} {key : α → String}

/-- Whether the key of the first item is not greater than that of the second. -/
def keyLE (key : α → String) (x y : α) : Bool := decide (key x ≤ key y)

theorem keyLE_trans (key : α → String) (x y z : α) (hxy : keyLE key x y = true)
    (hyz : keyLE key y z = true) : keyLE key x z = true :=
  decide_eq_true (String.le_trans (of_decide_eq_true hxy) (of_decide_eq_true hyz))

theorem keyLE_total (key : α → String) (x y : α) : (keyLE key x y || keyLE key y x) = true := by
  simpa [keyLE] using String.le_total (key x) (key y)

theorem pairwise_mergeSort_keyLE (key : α → String) (xs : List α) :
    (xs.mergeSort (keyLE key)).Pairwise fun x y => key x ≤ key y :=
  (List.pairwise_mergeSort (keyLE_trans key) (keyLE_total key) xs).imp of_decide_eq_true

/-- Items with one key keep their order. -/
theorem filter_mergeSort_keyLE (key : α → String) (xs : List α) (name : String) :
    (xs.mergeSort (keyLE key)).filter (key · == name) = xs.filter (key · == name) := by
  have hsame : (xs.filter (key · == name)).Pairwise fun x y => keyLE key x y = true := by
    refine List.pairwise_of_forall_mem_list fun x hx y hy => ?_
    have hx : key x = name := by simpa using (List.mem_filter.1 hx).2
    have hy : key y = name := by simpa using (List.mem_filter.1 hy).2
    exact decide_eq_true (hx.trans hy.symm ▸ String.le_refl _)
  -- they are sorted already, so they stay a sublist; nothing is added to it
  have hsub : (xs.filter (key · == name)).Sublist (xs.mergeSort (keyLE key)) :=
    List.sublist_mergeSort (keyLE_trans key) (keyLE_total key) hsame List.filter_sublist
  have hfilter := hsub.filter (key · == name)
  simp only [List.filter_filter, Bool.and_self] at hfilter
  have hlength := ((List.mergeSort_perm xs (keyLE key)).filter (key · == name)).length_eq
  exact (hfilter.eq_of_length hlength.symm).symm

/-- Sorted lists with the same items under each key are equal. -/
theorem eq_of_filter_eq {xs ys : List α} (hxs : xs.Pairwise fun x y => key x ≤ key y)
    (hys : ys.Pairwise fun x y => key x ≤ key y)
    (h : ∀ name, xs.filter (key · == name) = ys.filter (key · == name)) : xs = ys := by
  induction xs generalizing ys with
  | nil =>
    cases ys with
    | nil => rfl
    | cons y ys => simpa using h (key y)
  | cons x xs ih =>
    cases ys with
    | nil => simpa using h (key x)
    | cons y ys =>
      obtain ⟨hx, hxs⟩ := List.pairwise_cons.1 hxs
      obtain ⟨hy, hys⟩ := List.pairwise_cons.1 hys
      have hmem : ∀ z, z ∈ x :: xs ↔ z ∈ y :: ys := fun z => by
        have hfilter := congrArg (z ∈ ·) (h (key z))
        simpa using hfilter
      -- both first keys are the least one
      have hkey : key x = key y := by
        refine String.le_antisymm ?_ ?_
        · rcases List.mem_cons.1 ((hmem y).2 (by simp)) with rfl | hmem
          · exact String.le_refl _
          · exact hx y hmem
        · rcases List.mem_cons.1 ((hmem x).1 (by simp)) with rfl | hmem
          · exact String.le_refl _
          · exact hy x hmem
      have hhead : x = y := by
        have hfirst := h (key x)
        simp only [List.filter_cons, hkey, beq_self_eq_true, if_true, List.cons.injEq] at hfirst
        exact hfirst.1
      have htail : ∀ name, xs.filter (key · == name) = ys.filter (key · == name) := by
        intro name
        have hname := h name
        simp only [List.filter_cons, hhead] at hname
        split at hname
        · exact (List.cons.inj hname).2
        · exact hname
      rw [hhead, ih hxs hys htail]

end Keys

end ApiCatalog.Text
