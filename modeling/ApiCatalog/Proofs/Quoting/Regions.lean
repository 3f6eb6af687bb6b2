import ApiCatalog.Proofs.Quoting.Literals
import ApiCatalog.Proofs.Text.Order

/-!
# Reading string literals from left to right

Which places are outside quotes is told from the real quotes that follow. A reader of string
literals goes the other way, byte by byte, and remembers whether it is in a literal and whether a
backslash was just read (`Region`). The two agree on every text in which no backslash stands outside
literals: a place is outside quotes if the reader is outside a literal there, or, in a text that
ends within a literal, if it is in one (`isUnquotedByte_iff_regionAfter`).

The bytes of a character other than an ASCII one are no quotes and no backslashes, so the reader may
as well go by characters (`read_utf8EncodeChar`).
-/

namespace ApiCatalog.Quoting

open String (utf8EncodeChar)

/-! ## The reader -/

/-- Where a reader of string literals is. -/
inductive Region where
  | outside
  | inside
  /-- Inside a literal, right after a backslash that escapes what follows. -/
  | escaped
deriving Repr, DecidableEq

namespace Region

/-- Reads one byte; 34 is a quote and 92 a backslash. -/
def next : Region → UInt8 → Region
  | outside, b => if b = 34 then inside else outside
  | inside, b => if b = 34 then outside else if b = 92 then escaped else inside
  | escaped, _ => inside

/-- Reads a row of bytes. -/
def read (r : Region) (bs : List UInt8) : Region := bs.foldl next r

/-- Reads one character. -/
def nextChar : Region → Char → Region
  | outside, c => if c = '"' then inside else outside
  | inside, c => if c = '"' then outside else if c = '\\' then escaped else inside
  | escaped, _ => inside

/-- Reads a row of characters. -/
def readChars (r : Region) (cs : List Char) : Region := cs.foldl nextChar r

end Region

/-- Where the reader is after some bytes from the start of a text. -/
def regionAfter (bs : List UInt8) : Region := Region.outside.read bs

/-- The reader meets no backslash outside literals. -/
def NoStrayBackslash (bs : List UInt8) : Prop :=
  ∀ i < bs.length, bs[i]? = some 92 → regionAfter (bs.take i) ≠ .outside

instance (bs : List UInt8) : Decidable (NoStrayBackslash bs) :=
  inferInstanceAs (Decidable (∀ i < bs.length, _))

variable {r : Region} {b : UInt8} {bs : List UInt8} {c : Char} {cs before rest : List Char}

namespace Region

theorem read_append (r : Region) (as bs : List UInt8) : r.read (as ++ bs) = (r.read as).read bs :=
  List.foldl_append

theorem readChars_append (r : Region) (cs ds : List Char) :
    r.readChars (cs ++ ds) = (r.readChars cs).readChars ds :=
  List.foldl_append

/-- Only a quote leads into a literal or out of it. -/
theorem next_eq_outside_iff (h : b ≠ 34) : r.next b = outside ↔ r = outside := by
  cases r with
  | outside => simp [next, h]
  | inside => by_cases hb : b = 92 <;> simp [next, h, hb]
  | escaped => simp [next]

theorem read_eq_outside_iff (h : ∀ b ∈ bs, b ≠ 34) : r.read bs = outside ↔ r = outside := by
  induction bs generalizing r with
  | nil => rfl
  | cons b bs ih =>
    obtain ⟨hb, hbs⟩ := List.forall_mem_cons.1 h
    exact (ih hbs).trans (next_eq_outside_iff hb)

end Region

/-! ## Bytes of characters -/

theorem utf8EncodeChar_of_lt (h : c.toNat < 128) : utf8EncodeChar c = [UInt8.ofNat c.toNat] := by
  have hle : c.val.toNat ≤ 127 := Nat.le_of_lt_succ h
  exact if_pos hle

theorem le_of_mem_utf8EncodeChar (h : 128 ≤ c.toNat) : ∀ b ∈ utf8EncodeChar c, 128 ≤ b.toNat := by
  have hlarge : ¬ c.val.toNat ≤ 127 := Nat.not_le.2 h
  simp only [utf8EncodeChar, hlarge, if_false]
  split_ifs <;> simp only [List.forall_mem_cons, List.not_mem_nil, false_implies, implies_true,
    and_true, UInt8.toNat_ofNat'] <;> omega

theorem ne_of_mem_utf8EncodeChar (h : 128 ≤ c.toNat) :
    ∀ b ∈ utf8EncodeChar c, b ≠ 34 ∧ b ≠ 92 := by
  intro b hb
  have hle := le_of_mem_utf8EncodeChar h b hb
  constructor <;> rintro rfl <;> exact absurd hle (by decide)

/-- An ASCII character is told by its byte. -/
theorem ofNat_eq_iff (h : c.toNat < 128) (d : Char) (hd : d.toNat < 128) :
    UInt8.ofNat c.toNat = UInt8.ofNat d.toNat ↔ c = d := by
  rw [Text.ofNat_eq_ofNat_iff (by omega) (by omega), Char.toNat_inj]

/-- Reading the bytes of a character is reading the character. -/
theorem read_utf8EncodeChar (r : Region) (c : Char) : r.read (utf8EncodeChar c) = r.nextChar c := by
  by_cases h : c.toNat < 128
  · have hquote : UInt8.ofNat c.toNat = 34 ↔ c = '"' := ofNat_eq_iff h '"' (by decide)
    have hbackslash : UInt8.ofNat c.toNat = 92 ↔ c = '\\' := ofNat_eq_iff h '\\' (by decide)
    rw [utf8EncodeChar_of_lt h]
    show r.next (UInt8.ofNat c.toNat) = r.nextChar c
    cases r <;> simp only [Region.next, Region.nextChar, hquote, hbackslash]
  · have hbytes := ne_of_mem_utf8EncodeChar (Nat.le_of_not_lt h)
    have hq : c ≠ '"' := by rintro rfl; exact h (by decide)
    have hb : c ≠ '\\' := by rintro rfl; exact h (by decide)
    -- bytes that are no quotes and no backslashes at most use up an escape
    have hstays : ∀ bs : List UInt8, (∀ b ∈ bs, b ≠ 34 ∧ b ≠ 92) →
        Region.outside.read bs = .outside ∧ Region.inside.read bs = .inside := by
      intro bs hbs
      induction bs with
      | nil => exact ⟨rfl, rfl⟩
      | cons b bs ih =>
        obtain ⟨⟨hquote, hbackslash⟩, hbs⟩ := List.forall_mem_cons.1 hbs
        obtain ⟨hout, hin⟩ := ih hbs
        constructor
        · show (Region.outside.next b).read bs = .outside
          rw [Region.next, if_neg hquote, hout]
        · show (Region.inside.next b).read bs = .inside
          rw [Region.next, if_neg hquote, if_neg hbackslash, hin]
    obtain ⟨hout, hin⟩ := hstays _ hbytes
    cases r with
    | outside => rw [hout, Region.nextChar, if_neg hq]
    | inside => rw [hin, Region.nextChar, if_neg hq, if_neg hb]
    | escaped =>
      obtain ⟨b, bs, hcons⟩ := List.exists_cons_of_ne_nil (@String.utf8EncodeChar_ne_nil c)
      rw [hcons] at hbytes ⊢
      exact (hstays bs (List.forall_mem_cons.1 hbytes).2).2

theorem read_flatMap (r : Region) (cs : List Char) :
    r.read (cs.flatMap utf8EncodeChar) = r.readChars cs := by
  induction cs generalizing r with
  | nil => rfl
  | cons c cs ih =>
    rw [List.flatMap_cons, Region.read_append, read_utf8EncodeChar, ih]
    rfl

/-- Within the bytes of a character the reader neither enters nor leaves a literal. -/
theorem read_take_eq_outside_iff {k : Nat} (hk : k < (utf8EncodeChar c).length) :
    r.read ((utf8EncodeChar c).take k) = .outside ↔ r = .outside := by
  by_cases h : c.toNat < 128
  · rw [utf8EncodeChar_of_lt h, List.length_singleton] at hk
    obtain rfl : k = 0 := by omega
    rfl
  · refine Region.read_eq_outside_iff fun b hb => ?_
    exact (ne_of_mem_utf8EncodeChar (Nat.le_of_not_lt h) b (List.mem_of_mem_take hb)).1

/-! ## Real quotes -/

/-- A reader meets no backslash outside literals. -/
def CleanFrom (r : Region) (cs : List Char) : Prop :=
  ∀ before after, cs = before ++ '\\' :: after → r.readChars before ≠ .outside

theorem CleanFrom.head (h : CleanFrom r (c :: cs)) (hc : c = '\\') : r ≠ .outside :=
  h [] cs (by rw [hc]; rfl)

theorem CleanFrom.tail (h : CleanFrom r (c :: cs)) : CleanFrom (r.nextChar c) cs :=
  fun before after hcs => h (c :: before) after (by rw [hcs]; rfl)

theorem CleanFrom.append_left {ds : List Char} (h : CleanFrom r (cs ++ ds)) : CleanFrom r cs :=
  fun before after hcs => h before (after ++ ds) (by rw [hcs]; simp)

theorem CleanFrom.append_right {ds : List Char} (h : CleanFrom r (cs ++ ds)) :
    CleanFrom (r.readChars cs) ds := by
  intro before after hds
  rw [← Region.readChars_append]
  exact h (cs ++ before) after (by rw [hds, List.append_assoc])

/-- After a character an escape is open just if the character is a backslash that is not escaped. -/
theorem opensEscape_eq (h : c = '\\' → r ≠ .outside) :
    (c == '\\' && !decide (r = .escaped)) = decide (r.nextChar c = .escaped) := by
  cases r with
  | outside =>
    have hc : c ≠ '\\' := fun hc => h hc rfl
    by_cases hq : c = '"' <;> simp [Region.nextChar, hc, hq]
  | inside =>
    by_cases hq : c = '"'
    · simp [Region.nextChar, hq]
    · by_cases hb : c = '\\' <;> simp [Region.nextChar, hq, hb]
  | escaped => simp [Region.nextChar]

/-- A quote is real just if it leads into a literal or out of it. -/
theorem isRealQuote_eq (r : Region) (c : Char) :
    (c == '"' && !decide (r = .escaped)) =
      (decide (r = .outside) != decide (r.nextChar c = .outside)) := by
  cases r with
  | outside => by_cases hq : c = '"' <;> simp [Region.nextChar, hq]
  | inside =>
    by_cases hq : c = '"'
    · simp [Region.nextChar, hq]
    · by_cases hb : c = '\\' <;> simp [Region.nextChar, hq, hb]
  | escaped => simp [Region.nextChar]

/-- An odd run of backslashes precedes just where the reader has read an escape. -/
theorem escapedAfter_eq (h : CleanFrom r cs) :
    escapedAfter (decide (r = .escaped)) cs = decide (r.readChars cs = .escaped) := by
  induction cs generalizing r with
  | nil => rfl
  | cons c cs ih =>
    rw [escapedAfter_cons, opensEscape_eq h.head, ih h.tail]
    rfl

/-- The real quotes of a stretch pair up if the reader is on the same side of literals before and
after it. -/
theorem pairsUp_eq (h : CleanFrom r cs) :
    pairsUp (decide (r = .escaped)) cs =
      (decide (r = .outside) == decide (r.readChars cs = .outside)) := by
  induction cs generalizing r with
  | nil => exact (beq_self_eq_true (decide (r = .outside))).symm
  | cons c cs ih =>
    have hread : r.readChars (c :: cs) = (r.nextChar c).readChars cs := rfl
    rw [pairsUp_cons, opensEscape_eq h.head, ih h.tail, isRealQuote_eq, hread]
    cases decide (r = .outside) <;> cases decide (r.nextChar c = .outside) <;>
      cases decide ((r.nextChar c).readChars cs = .outside) <;> rfl

/-- A place is outside quotes if the reader is on the same side there and at the end. -/
theorem isUnquoted_iff_readChars (h : CleanFrom .outside (before ++ rest)) :
    isUnquoted (before ++ rest) before.length = true ↔
      (Region.outside.readChars before = .outside ↔
        Region.outside.readChars (before ++ rest) = .outside) := by
  have hescaped : escapedAfter false before = decide (Region.outside.readChars before = .escaped) :=
    escapedAfter_eq h.append_left
  rw [isUnquoted_append, hescaped, pairsUp_eq h.append_right, Region.readChars_append, beq_iff_eq,
    decide_eq_decide]

/-! ## Places counted in bytes -/

/-- A byte of a text belongs to one of its characters. -/
theorem exists_char_at {i : Nat} (h : i < (cs.flatMap utf8EncodeChar).length) :
    ∃ before c rest k, cs = before ++ c :: rest ∧ k < (utf8EncodeChar c).length ∧
      i = (before.flatMap utf8EncodeChar).length + k := by
  induction cs generalizing i with
  | nil => exact absurd h (Nat.not_lt_zero i)
  | cons c cs ih =>
    rw [List.flatMap_cons, List.length_append] at h
    by_cases hi : i < (utf8EncodeChar c).length
    · exact ⟨[], c, cs, i, rfl, hi, by simp⟩
    · obtain ⟨before, d, rest, k, rfl, hk, hsum⟩ :=
        @ih (i - (utf8EncodeChar c).length) (by omega)
      refine ⟨c :: before, d, rest, k, rfl, hk, ?_⟩
      rw [List.flatMap_cons, List.length_append]
      omega

theorem unquotedBytes_eq (cs : List Char) :
    unquotedBytes cs =
      cs.zipIdx.flatMap fun item => List.replicate item.1.utf8Size (isUnquoted cs item.2) := rfl

theorem length_flatMap_replicate (value : Nat → Bool) (first : Nat) (cs : List Char) :
    ((cs.zipIdx first).flatMap fun item =>
      List.replicate item.1.utf8Size (value item.2)).length =
        (cs.flatMap utf8EncodeChar).length := by
  induction cs generalizing first with
  | nil => rfl
  | cons c cs ih => simp [List.zipIdx_cons, ih]

/-- The bytes of a character are outside quotes if the character is. -/
theorem isUnquotedByte_eq {k : Nat} (hk : k < (utf8EncodeChar c).length) :
    isUnquotedByte (before ++ c :: rest) ((before.flatMap utf8EncodeChar).length + k) =
      isUnquoted (before ++ c :: rest) before.length := by
  have hsize : k < c.utf8Size := by rwa [String.length_utf8EncodeChar] at hk
  have hlength := length_flatMap_replicate (isUnquoted (before ++ c :: rest)) 0 before
  rw [isUnquotedByte, unquotedBytes_eq, List.zipIdx_append, List.flatMap_append, ← hlength,
    List.getElem?_append_right (by omega), Nat.add_sub_cancel_left, List.zipIdx_cons,
    List.flatMap_cons, List.getElem?_append_left (by simpa using hsize)]
  simp [hsize]

theorem isUnquotedByte_of_length_le {i : Nat} (h : (cs.flatMap utf8EncodeChar).length ≤ i) :
    isUnquotedByte cs i = true := by
  have hnone : (unquotedBytes cs)[i]? = none := by
    rw [List.getElem?_eq_none_iff, unquotedBytes_eq, length_flatMap_replicate]
    exact h
  rw [isUnquotedByte, hnone, Option.getD_none]

theorem cleanFrom_of_noStrayBackslash (h : NoStrayBackslash (cs.flatMap utf8EncodeChar)) :
    CleanFrom .outside cs := by
  rintro before after rfl
  have hsplit : (before ++ '\\' :: after).flatMap utf8EncodeChar =
      before.flatMap utf8EncodeChar ++ 92 :: after.flatMap utf8EncodeChar := by
    rw [List.flatMap_append]
    rfl
  have hbytes := h (before.flatMap utf8EncodeChar).length
  rw [hsplit, List.take_left, regionAfter, read_flatMap] at hbytes
  exact hbytes (by simp) (by simp)

/-- A place counted in bytes is outside quotes if the reader is on the same side there and at the
end. -/
theorem isUnquotedByte_iff (h : NoStrayBackslash (cs.flatMap utf8EncodeChar)) {i : Nat}
    (hi : i ≤ (cs.flatMap utf8EncodeChar).length) :
    isUnquotedByte cs i = true ↔
      (regionAfter ((cs.flatMap utf8EncodeChar).take i) = .outside ↔
        regionAfter (cs.flatMap utf8EncodeChar) = .outside) := by
  rcases Nat.lt_or_eq_of_le hi with hlt | rfl
  · obtain ⟨before, c, rest, k, rfl, hk, rfl⟩ := exists_char_at hlt
    have htake : ((before ++ c :: rest).flatMap utf8EncodeChar).take
        ((before.flatMap utf8EncodeChar).length + k) =
          before.flatMap utf8EncodeChar ++ (utf8EncodeChar c).take k := by
      rw [List.flatMap_append, List.take_length_add_append, List.flatMap_cons,
        List.take_append_of_le_length (Nat.le_of_lt hk)]
    have hplace : regionAfter (before.flatMap utf8EncodeChar ++ (utf8EncodeChar c).take k) =
        .outside ↔ Region.outside.readChars before = .outside := by
      rw [regionAfter, Region.read_append, read_take_eq_outside_iff hk, read_flatMap]
    rw [isUnquotedByte_eq hk, isUnquoted_iff_readChars (cleanFrom_of_noStrayBackslash h), htake,
      hplace, regionAfter, read_flatMap]
  · rw [List.take_length, isUnquotedByte_of_length_le (Nat.le_refl _)]
    exact iff_of_true rfl Iff.rfl

/-- In a text without backslashes outside literals, the places outside quotes are those where the
reader is outside literals if it ends there, as it does if the real quotes are even in number. With
an odd number the reader ends in a literal, and the places outside quotes are those where it is in
one. -/
theorem isUnquotedByte_iff_regionAfter (s : String) (h : NoStrayBackslash (Text.bytes s)) :
    (regionAfter (Text.bytes s) = .outside ↔ quotesFrom s.toList 0 % 2 = 0) ∧
      ∀ i ≤ (Text.bytes s).length,
        (regionAfter (Text.bytes s) = .outside →
          (isUnquotedByte s.toList i = true ↔
            regionAfter ((Text.bytes s).take i) = .outside)) ∧
        (regionAfter (Text.bytes s) ≠ .outside →
          (isUnquotedByte s.toList i = true ↔
            regionAfter ((Text.bytes s).take i) ≠ .outside)) := by
  rw [Text.bytes_eq_flatMap] at h ⊢
  refine ⟨?_, ?_⟩
  · have hstart := @isUnquoted_iff_readChars [] s.toList (cleanFrom_of_noStrayBackslash h)
    rw [regionAfter, read_flatMap]
    simpa [isUnquoted, Region.readChars] using hstart.symm
  · intro i hi
    have hiff := isUnquotedByte_iff h hi
    constructor
    · intro hend
      rw [hiff]
      simp only [hend, iff_true]
    · intro hend
      rw [hiff]
      simp only [hend, iff_false, ne_eq]

/-- The literal of `é"\` and a literal that is left open after a backslash. -/
def openLiteral : String := "\"é\\\"\\\\\" \"a\\"

/-- In a text that ends in a literal, the start is not outside quotes, but what follows the first
quote is. -/
theorem isUnquotedByte_iff_regionAfter_openLiteral :
    NoStrayBackslash (Text.bytes openLiteral) ∧ regionAfter (Text.bytes openLiteral) ≠ .outside ∧
      isUnquotedByte openLiteral.toList 0 = false ∧
      isUnquotedByte openLiteral.toList 1 = true := by
  have hclean : NoStrayBackslash (Text.bytes openLiteral) := by decide
  have hend : regionAfter (Text.bytes openLiteral) ≠ .outside := by decide
  obtain ⟨-, hplaces⟩ := isUnquotedByte_iff_regionAfter openLiteral hclean
  refine ⟨hclean, hend, ?_, ?_⟩
  · rw [Bool.eq_false_iff, ne_eq, (hplaces 0 (by decide)).2 hend]
    decide
  · rw [(hplaces 1 (by decide)).2 hend]
    decide

end ApiCatalog.Quoting
