/-!
# Names compared without regard to case

Tag names, parameter names and request methods are compared and raised over the twenty-six basic
letters only; letters of other scripts stand for themselves.
-/

namespace ApiCatalog.Text

/-- A name with its basic letters in lower case. -/
def foldCase (name : String) : List Char := name.toList.map Char.toLower

/-- Whether two names differ at most in the case of basic letters. -/
def sameName (a b : String) : Bool := foldCase a == foldCase b

/-- A name with its basic letters in upper case. -/
def capitals (name : String) : String := String.ofList (name.toList.map Char.toUpper)

theorem sameName_iff {a b : String} : sameName a b = true ↔ foldCase a = foldCase b := by
  simp [sameName]

@[simp] theorem sameName_refl (a : String) : sameName a a = true := by
  simp [sameName]

theorem sameName_comm (a b : String) : sameName a b = sameName b a := by
  simp [sameName, Bool.beq_comm]

theorem sameName_trans {a b c : String} (hab : sameName a b = true) (hbc : sameName b c = true) :
    sameName a c = true := by
  rw [sameName_iff] at *
  exact hab.trans hbc

end ApiCatalog.Text
