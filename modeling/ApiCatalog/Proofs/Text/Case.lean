import ApiCatalog.Text.Case.Mapping
import ApiCatalog.Text.Case.Property

/-!
# Case of ASCII characters

Below 128 a character is in upper or lower case if it is an ASCII letter of that case, and its other
form is one character, the one that the arithmetic on ASCII letters gives.
-/

namespace ApiCatalog.Text

/-- A property of all ASCII characters, checked one by one. -/
theorem forall_ascii {p : Char → Prop} (h : ∀ n < 128, p (Char.ofNat n)) (c : Char)
    (hc : c.toNat < 128) : p c := by
  have hat := h c.toNat hc
  rwa [Char.ofNat_toNat] at hat

variable {c : Char}

set_option maxRecDepth 2000 in
/-- The tables of case agree with ASCII. -/
theorem case_of_ascii (h : c.toNat < 128) :
    isUpperCase c = c.isUpper ∧ isLowerCase c = c.isLower ∧ upperForm c = [c.toUpper] ∧
      lowerForm c = [c.toLower] :=
  forall_ascii (p := fun c => isUpperCase c = c.isUpper ∧ isLowerCase c = c.isLower ∧
      upperForm c = [c.toUpper] ∧ lowerForm c = [c.toLower])
    (by decide) c h

theorem isUpperCase_eq (h : c.toNat < 128) : isUpperCase c = c.isUpper := (case_of_ascii h).1

theorem isLowerCase_eq (h : c.toNat < 128) : isLowerCase c = c.isLower := (case_of_ascii h).2.1

theorem upperForm_eq (h : c.toNat < 128) : upperForm c = [c.toUpper] := (case_of_ascii h).2.2.1

theorem lowerForm_eq (h : c.toNat < 128) : lowerForm c = [c.toLower] := (case_of_ascii h).2.2.2

theorem toNat_toLower_lt (h : c.toNat < 128) : c.toLower.toNat < 128 :=
  forall_ascii (p := fun c => c.toLower.toNat < 128) (by decide) c h

theorem isUpper_toLower (h : c.toNat < 128) : c.toLower.isUpper = false :=
  forall_ascii (p := fun c => c.toLower.isUpper = false) (by decide) c h

theorem toUpper_toLower (h : c.toNat < 128) : c.toLower.toUpper = c.toUpper :=
  forall_ascii (p := fun c => c.toLower.toUpper = c.toUpper) (by decide) c h

/-! ## Small letters -/

theorem bounds_of_isLower (h : c.isLower = true) : 97 ≤ c.toNat ∧ c.toNat ≤ 122 := by
  obtain ⟨hfirst, hlast⟩ := Bool.and_eq_true_iff.1 h
  exact ⟨UInt32.le_iff_toNat_le.1 (of_decide_eq_true hfirst),
    UInt32.le_iff_toNat_le.1 (of_decide_eq_true hlast)⟩

theorem toNat_lt_of_isLower (h : c.isLower = true) : c.toNat < 128 := by
  have hbounds := bounds_of_isLower h
  omega

/-- A property of all small letters, checked one by one. -/
theorem forall_small {p : Char → Prop}
    (h : ∀ n < 128, (Char.ofNat n).isLower = true → p (Char.ofNat n)) (c : Char)
    (hc : c.isLower = true) : p c :=
  forall_ascii (p := fun c => c.isLower = true → p c) h c (toNat_lt_of_isLower hc) hc

theorem isUpper_of_isLower (h : c.isLower = true) : c.isUpper = false :=
  forall_small (p := fun c => c.isUpper = false) (by decide) c h

theorem isDigit_of_isLower (h : c.isLower = true) : c.isDigit = false :=
  forall_small (p := fun c => c.isDigit = false) (by decide) c h

theorem isLowerCase_of_isLower (h : c.isLower = true) : isLowerCase c = true := by
  rw [isLowerCase_eq (toNat_lt_of_isLower h), h]

theorem isUpperCase_of_isLower (h : c.isLower = true) : isUpperCase c = false := by
  rw [isUpperCase_eq (toNat_lt_of_isLower h), isUpper_of_isLower h]

theorem toLower_of_isLower (h : c.isLower = true) : c.toLower = c :=
  forall_small (p := fun c => c.toLower = c) (by decide) c h

theorem isUpper_toUpper (h : c.isLower = true) : c.toUpper.isUpper = true :=
  forall_small (p := fun c => c.toUpper.isUpper = true) (by decide) c h

theorem toLower_toUpper (h : c.isLower = true) : c.toUpper.toLower = c :=
  forall_small (p := fun c => c.toUpper.toLower = c) (by decide) c h

theorem toUpper_ne (h : c.isLower = true) : c.toUpper ≠ c :=
  forall_small (p := fun c => c.toUpper ≠ c) (by decide) c h

/-! ## Capitals -/

theorem bounds_of_isUpper (h : c.isUpper = true) : 65 ≤ c.toNat ∧ c.toNat ≤ 90 := by
  obtain ⟨hfirst, hlast⟩ : 65 ≤ c.val ∧ c.val ≤ 90 := of_decide_eq_true h
  exact ⟨UInt32.le_iff_toNat_le.1 hfirst, UInt32.le_iff_toNat_le.1 hlast⟩

theorem toNat_lt_of_isUpper (h : c.isUpper = true) : c.toNat < 128 := by
  have hbounds := bounds_of_isUpper h
  omega

theorem isLower_of_isUpper (h : c.isUpper = true) : c.isLower = false := by
  rw [Bool.eq_false_iff]
  intro hlower
  rw [isUpper_of_isLower hlower] at h
  contradiction

theorem isUpperCase_of_isUpper (h : c.isUpper = true) : isUpperCase c = true := by
  rw [isUpperCase_eq (toNat_lt_of_isUpper h), h]

theorem isLowerCase_of_isUpper (h : c.isUpper = true) : isLowerCase c = false := by
  rw [isLowerCase_eq (toNat_lt_of_isUpper h), isLower_of_isUpper h]

theorem isLower_toLower (h : c.isUpper = true) : c.toLower.isLower = true :=
  forall_ascii (p := fun c => c.isUpper = true → c.toLower.isLower = true) (by decide) c
    (toNat_lt_of_isUpper h) h

theorem lowerForm_of_isUpper (h : c.isUpper = true) : lowerForm c = [c.toLower] :=
  lowerForm_eq (toNat_lt_of_isUpper h)

/-! ## Digits -/

theorem bounds_of_isDigit (h : c.isDigit = true) : 48 ≤ c.toNat ∧ c.toNat ≤ 57 :=
  Char.isDigit_iff_toNat.1 h

theorem toNat_lt_of_isDigit (h : c.isDigit = true) : c.toNat < 128 := by
  have hbounds := bounds_of_isDigit h
  omega

theorem isLower_of_isDigit (h : c.isDigit = true) : c.isLower = false := by
  rw [Bool.eq_false_iff]
  intro hlower
  rw [isDigit_of_isLower hlower] at h
  contradiction

theorem isLowerCase_of_isDigit (h : c.isDigit = true) : isLowerCase c = false := by
  rw [isLowerCase_eq (toNat_lt_of_isDigit h), isLower_of_isDigit h]

theorem isUpperCase_of_isDigit (h : c.isDigit = true) : isUpperCase c = false := by
  rw [isUpperCase_eq (toNat_lt_of_isDigit h)]
  exact forall_ascii (p := fun c => c.isDigit = true → c.isUpper = false) (by decide) c
    (toNat_lt_of_isDigit h) h

end ApiCatalog.Text
