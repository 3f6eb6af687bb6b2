import Mathlib.Order.Monotone.Basic

/-!
# Places counted in bytes

A place in a text may be counted in characters or, as an offset, in the bytes of UTF-8. Only the
offsets at boundaries, which lie between two characters or at either end, are places. A text can be
cut at these and at no others (`cutAt?_eq_some_iff`).

Beyond the end of a text each place counts one byte. So every place has an offset, offsets come in
the order of their places (`offsetOf_strictMono`), and the place is found again from the offset
(`placeOf_offsetOf`).
-/

namespace ApiCatalog.Text

open String (utf8EncodeChar)

/-- How many bytes a text takes in UTF-8. -/
def byteLength (cs : List Char) : Nat := (cs.flatMap utf8EncodeChar).length

/-- An offset between two characters of a text, or at either end. -/
def IsBoundary (cs : List Char) (offset : Nat) : Prop :=
  ∃ before after, cs = before ++ after ∧ offset = byteLength before

/-- The text before an offset and the text from there on. A text cannot be cut within a character or
beyond its end. -/
def cutAt? : List Char → Nat → Option (List Char × List Char)
  | cs, 0 => some ([], cs)
  | [], _ + 1 => none
  | c :: cs, offset + 1 =>
    if c.utf8Size ≤ offset + 1 then
      (cutAt? cs (offset + 1 - c.utf8Size)).map fun (before, after) => (c :: before, after)
    else none

/-- The offset of a place. -/
def offsetOf : List Char → Nat → Nat
  | _, 0 => 0
  | [], place + 1 => place + 1
  | c :: cs, place + 1 => c.utf8Size + offsetOf cs place

/-- The place of an offset; within a character it is the place before the character. -/
def placeOf : List Char → Nat → Nat
  | [], offset => offset
  | c :: cs, offset => if offset < c.utf8Size then 0 else placeOf cs (offset - c.utf8Size) + 1

/-- How many bytes the first character of a text takes, and one if there is no character. -/
def firstSize : List Char → Nat
  | [] => 1
  | c :: _ => c.utf8Size

variable {cs before after : List Char} {offset place count : Nat}

@[simp] theorem byteLength_nil : byteLength [] = 0 := rfl

@[simp] theorem byteLength_cons (c : Char) (cs : List Char) :
    byteLength (c :: cs) = c.utf8Size + byteLength cs := by
  simp [byteLength]

@[simp] theorem byteLength_append (cs ds : List Char) :
    byteLength (cs ++ ds) = byteLength cs + byteLength ds := by
  simp [byteLength]

/-! ## Cuts -/

theorem cutAt?_append (before after : List Char) :
    cutAt? (before ++ after) (byteLength before) = some (before, after) := by
  induction before with
  | nil => cases after <;> rfl
  | cons c before ih =>
    obtain ⟨size, hsize⟩ := Nat.exists_eq_add_of_lt c.utf8Size_pos
    have hlength : byteLength (c :: before) = size + byteLength before + 1 := by
      rw [byteLength_cons]
      omega
    rw [hlength, List.cons_append, cutAt?, if_pos (by omega)]
    have hrest : size + byteLength before + 1 - c.utf8Size = byteLength before := by omega
    rw [hrest, ih]
    rfl

theorem eq_append_of_cutAt? (h : cutAt? cs offset = some (before, after)) :
    cs = before ++ after ∧ offset = byteLength before := by
  induction cs generalizing offset before with
  | nil =>
    cases offset with
    | zero =>
      cases h
      exact ⟨rfl, rfl⟩
    | succ offset => cases h
  | cons c cs ih =>
    cases offset with
    | zero =>
      cases h
      exact ⟨rfl, rfl⟩
    | succ offset =>
      rw [cutAt?] at h
      split at h
      · obtain ⟨⟨head, tail⟩, hcut, hparts⟩ := Option.map_eq_some_iff.1 h
        cases hparts
        obtain ⟨rfl, hoffset⟩ := ih hcut
        refine ⟨rfl, ?_⟩
        rw [byteLength_cons]
        omega
      · cases h

/-- A text is cut where the bytes of one part end. -/
theorem cutAt?_eq_some_iff :
    cutAt? cs offset = some (before, after) ↔
      cs = before ++ after ∧ offset = byteLength before := by
  refine ⟨eq_append_of_cutAt?, ?_⟩
  rintro ⟨rfl, rfl⟩
  exact cutAt?_append before after

/-! ## Offsets of places -/

@[simp] theorem offsetOf_zero (cs : List Char) : offsetOf cs 0 = 0 := by
  cases cs <;> rfl

theorem offsetOf_cons_succ (c : Char) (cs : List Char) (place : Nat) :
    offsetOf (c :: cs) (place + 1) = c.utf8Size + offsetOf cs place := rfl

theorem offsetOf_append (before after : List Char) (count : Nat) :
    offsetOf (before ++ after) (before.length + count) =
      byteLength before + offsetOf after count := by
  induction before with
  | nil => simp
  | cons c before ih =>
    rw [List.length_cons, Nat.add_right_comm, List.cons_append, offsetOf_cons_succ, ih,
      byteLength_cons, Nat.add_assoc]

theorem offsetOf_append_length (before after : List Char) :
    offsetOf (before ++ after) before.length = byteLength before := by
  have h := offsetOf_append before after 0
  rwa [Nat.add_zero, offsetOf_zero, Nat.add_zero] at h

theorem offsetOf_length (cs : List Char) : offsetOf cs cs.length = byteLength cs := by
  have h := offsetOf_append_length cs []
  rwa [List.append_nil] at h

theorem offsetOf_length_succ (cs : List Char) :
    offsetOf cs (cs.length + 1) = byteLength cs + 1 := by
  have h := offsetOf_append cs [] 1
  rwa [List.append_nil] at h

theorem byteLength_take (h : place ≤ cs.length) :
    byteLength (cs.take place) = offsetOf cs place := by
  have hoffset := offsetOf_append_length (cs.take place) (cs.drop place)
  rw [List.take_append_drop, List.length_take_of_le h] at hoffset
  exact hoffset.symm

/-- From a place to the next one. -/
theorem offsetOf_succ (cs : List Char) (place : Nat) :
    offsetOf cs (place + 1) = offsetOf cs place + firstSize (cs.drop place) := by
  induction cs generalizing place with
  | nil => cases place <;> simp [offsetOf, firstSize]
  | cons c cs ih =>
    cases place with
    | zero => simp [offsetOf_cons_succ, firstSize]
    | succ place =>
      rw [offsetOf_cons_succ, ih, offsetOf_cons_succ, List.drop_succ_cons, Nat.add_assoc]

/-- The offset of a place is counted by the text before it. -/
theorem offsetOf_take (h : place ≤ count) : offsetOf (cs.take count) place = offsetOf cs place := by
  induction cs generalizing place count with
  | nil => rw [List.take_nil]
  | cons c cs ih =>
    cases place with
    | zero => simp
    | succ place =>
      cases count with
      | zero => omega
      | succ count =>
        rw [List.take_succ_cons, offsetOf_cons_succ, offsetOf_cons_succ, ih (by omega)]

theorem offsetOf_strictMono (cs : List Char) : StrictMono (offsetOf cs) := by
  refine strictMono_nat_of_lt_succ fun place => ?_
  induction cs generalizing place with
  | nil => cases place <;> simp [offsetOf]
  | cons c cs ih =>
    have hsize := c.utf8Size_pos
    cases place with
    | zero =>
      rw [offsetOf_zero, offsetOf_cons_succ]
      omega
    | succ place =>
      have := ih place
      rw [offsetOf_cons_succ, offsetOf_cons_succ]
      omega

/-- The place is found again from its offset. -/
@[simp] theorem placeOf_offsetOf (cs : List Char) (place : Nat) :
    placeOf cs (offsetOf cs place) = place := by
  induction cs generalizing place with
  | nil => cases place <;> rfl
  | cons c cs ih =>
    cases place with
    | zero => rw [offsetOf_zero, placeOf, if_pos c.utf8Size_pos]
    | succ place =>
      rw [offsetOf_cons_succ, placeOf, if_neg (by omega), Nat.add_sub_cancel_left, ih]

/-! ## Boundaries -/

theorem cutAt?_offsetOf (h : place ≤ cs.length) :
    cutAt? cs (offsetOf cs place) = some (cs.take place, cs.drop place) :=
  cutAt?_eq_some_iff.2 ⟨(List.take_append_drop _ _).symm, (byteLength_take h).symm⟩

theorem isBoundary_iff :
    IsBoundary cs offset ↔ ∃ place ≤ cs.length, offset = offsetOf cs place := by
  constructor
  · rintro ⟨before, after, rfl, rfl⟩
    exact ⟨before.length, by simp, (offsetOf_append_length before after).symm⟩
  · rintro ⟨place, hplace, rfl⟩
    exact ⟨_, _, cutAt?_eq_some_iff.1 (cutAt?_offsetOf hplace)⟩

theorem IsBoundary.le (h : IsBoundary cs offset) : offset ≤ byteLength cs := by
  obtain ⟨before, after, rfl, rfl⟩ := h
  rw [byteLength_append]
  exact Nat.le_add_right _ _

theorem isBoundary_offsetOf (h : place ≤ cs.length) : IsBoundary cs (offsetOf cs place) :=
  isBoundary_iff.2 ⟨place, h, rfl⟩

theorem offsetOf_le_byteLength_iff : offsetOf cs place ≤ byteLength cs ↔ place ≤ cs.length := by
  rw [← offsetOf_length, (offsetOf_strictMono cs).le_iff_le]

end ApiCatalog.Text
