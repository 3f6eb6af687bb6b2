import ApiCatalog.Json.Document
import Mathlib.Algebra.Group.Int.Defs

/-!
# Integers of JSON texts

An integer is written in decimal digits after an optional minus sign, and it is read back if it fits
in 64 bits.
-/

namespace ApiCatalog.Json

open ApiCatalog.Number (Numeral)

/-- Whether an integer fits in 64 bits, unsigned from zero on and signed below. -/
def Fits64 (n : Int) : Prop := -(2 ^ 63) ≤ n ∧ n < 2 ^ 64

instance (n : Int) : Decidable (Fits64 n) := inferInstanceAs (Decidable (_ ∧ _))

/-! ## Digits -/

/-- The value of a digit. -/
def digitValue (c : Char) : Nat := c.toNat - '0'.toNat

theorem isDigit_digitsOf {n : Nat} {c : Char} (h : c ∈ Number.digitsOf n) : c.isDigit = true :=
  Nat.isDigit_of_mem_toDigits (by decide) (by decide) h

theorem digitsOf_ne_nil (n : Nat) : Number.digitsOf n ≠ [] := Nat.toDigits_ne_nil

theorem leadingDigits_digitsOf (n : Nat) :
    Numeral.leadingDigits (Number.digitsOf n) = (Number.digitsOf n).map digitValue := by
  have hall : ∀ ds : List Char, (∀ c ∈ ds, c.isDigit = true) → ds.takeWhile Char.isDigit = ds := by
    intro ds hds
    induction ds with
    | nil => rfl
    | cons c ds ih =>
      rw [List.takeWhile_cons_of_pos (hds c (by simp)), ih fun d hd => hds d (by simp [hd])]
  rw [Numeral.leadingDigits, hall _ fun c hc => isDigit_digitsOf hc]
  rfl

theorem afterDigits_digitsOf (n : Nat) : Numeral.afterDigits (Number.digitsOf n) = [] := by
  have hall : ∀ ds : List Char, (∀ c ∈ ds, c.isDigit = true) → ds.dropWhile Char.isDigit = [] := by
    intro ds hds
    induction ds with
    | nil => rfl
    | cons c ds ih =>
      rw [List.dropWhile_cons_of_pos (hds c (by simp)), ih fun d hd => hds d (by simp [hd])]
  exact hall _ fun c hc => isDigit_digitsOf hc

theorem valueOf_digitsOf (n : Nat) : Numeral.valueOf ((Number.digitsOf n).map digitValue) = n := by
  rw [Numeral.valueOf, List.foldl_map]
  exact Nat.ofDigitChars_ten_toDigits

/-- A number other than zero is written without leading zeros. -/
theorem exists_leading_digit {n : Nat} (hn : 0 < n) :
    ∃ c cs, Number.digitsOf n = c :: cs ∧ digitValue c ≠ 0 := by
  induction n using Nat.strongRecOn with
  | ind n ih =>
    rw [Number.digitsOf, Nat.toDigits_eq_if (by decide)]
    by_cases h : n < 10
    · refine ⟨n.digitChar, [], by rw [if_pos h], ?_⟩
      have hvalue : digitValue n.digitChar = n := Nat.toNat_digitChar_sub_48_of_lt_ten h
      omega
    · obtain ⟨c, cs, hcs, hc⟩ := ih (n / 10) (by omega) (by omega)
      rw [Number.digitsOf] at hcs
      exact ⟨c, cs ++ [(n % 10).digitChar], by rw [if_neg h, hcs]; rfl, hc⟩

/-! ## Reading what was written -/

/-- Digits after a sign, or after none, are read as a numeral. -/
theorem ofChars?_digitsOf (negative : Bool) (n : Nat) :
    Numeral.ofChars? ((if negative then ['-'] else []) ++ Number.digitsOf n) =
      some ⟨negative, (Number.digitsOf n).map digitValue, none, none⟩ := by
  -- a numeral of several digits may not begin with zero
  have hlead : ((Number.digitsOf n).map digitValue).head? = some 0 →
      ((Number.digitsOf n).map digitValue).length = 1 := by
    rcases Nat.eq_zero_or_pos n with rfl | hn
    · decide
    · obtain ⟨c, cs, hcs, hc⟩ := exists_leading_digit hn
      simp [hcs, hc]
  cases negative with
  | true =>
    simp only [if_true, List.singleton_append, Numeral.ofChars?, leadingDigits_digitsOf,
      afterDigits_digitsOf, Numeral.readExponent?]
    rw [if_neg]
    · rfl
    · simpa [digitsOf_ne_nil] using hlead
  | false =>
    obtain ⟨c, cs, hcs⟩ := List.exists_cons_of_ne_nil (digitsOf_ne_nil n)
    -- without a sign the reader takes the branch that is left after the one for minus
    have hsign : c ≠ '-' := by
      intro heq
      subst heq
      have hdigit : ('-' : Char).isDigit = true := isDigit_digitsOf (n := n) (by rw [hcs]; simp)
      exact absurd hdigit (by decide)
    have hread : Numeral.ofChars? (Number.digitsOf n) =
        some ⟨false, (Number.digitsOf n).map digitValue, none, none⟩ := by
      rw [Numeral.ofChars?]
      · simp only [leadingDigits_digitsOf, afterDigits_digitsOf, Numeral.readExponent?]
        rw [if_neg]
        · rfl
        · simpa [digitsOf_ne_nil] using hlead
      · intro rest h
        rw [hcs] at h
        exact hsign (List.cons.inj h).1
    exact hread

theorem write_integer (n : Int) :
    (Number.integer n).write = (if decide (n < 0) then ['-'] else []) ++ Number.digitsOf n.natAbs := by
  simp [Number.write]

theorem ofChars?_write_integer (n : Int) :
    Numeral.ofChars? (Number.integer n).write =
      some ⟨decide (n < 0), (Number.digitsOf n.natAbs).map digitValue, none, none⟩ := by
  rw [write_integer, ofChars?_digitsOf]

/-- The numeral of an integer that fits is read as the integer. -/
theorem ofNumeral?_integer {n : Int} (h : Fits64 n) :
    Number.ofNumeral? (Value.numeralOf (.integer n)) = some (.integer n) := by
  have hinteger : Number.integer? (Value.numeralOf (.integer n)) = some n := by
    obtain ⟨hlow, hhigh⟩ := h
    rw [Value.numeralOf, ofChars?_write_integer, Option.getD_some, Number.integer?,
      if_neg (by simp)]
    simp only [valueOf_digitsOf, Number.wordBound]
    by_cases hn : n < 0
    · have hfits : 0 < n.natAbs ∧ n.natAbs ≤ Nat.pow 2 63 := by
        show 0 < n.natAbs ∧ n.natAbs ≤ 2 ^ 63
        omega
      have hvalue : -(n.natAbs : Int) = n := by omega
      rw [if_pos (decide_eq_true hn), if_pos hfits, hvalue]
    · have hfits : n.natAbs < Nat.pow 2 64 := by
        show n.natAbs < 2 ^ 64
        omega
      have hvalue : (n.natAbs : Int) = n := by omega
      rw [if_neg (by simpa using hn), if_pos hfits, hvalue]
  rw [Number.ofNumeral?, hinteger]

/-- An integer is no other bare word. -/
theorem ofBare?_integer (n : Int) :
    Document.ofBare? (Number.integer n).write =
      some (.number (Value.numeralOf (.integer n))) := by
  have hnot :
      ∀ word : List Char, Numeral.ofChars? word = none → (Number.integer n).write ≠ word := by
    rintro word hnone rfl
    rw [ofChars?_write_integer] at hnone
    exact absurd hnone (by simp)
  rw [Document.ofBare?, if_neg (hnot _ rfl), if_neg (hnot _ rfl), if_neg (hnot _ rfl),
    Value.numeralOf, ofChars?_write_integer]
  rfl

end ApiCatalog.Json
