import ApiCatalog.Proofs.Text.Case
import ApiCatalog.Proofs.Text.Classes
import ApiCatalog.Text.Title

/-!
# Titles in one pass

A title is made by cutting a name into words and joining them again. Read from left to right, each
character but the first is either copied or, if it starts a word, written after a space and perhaps
in lower case (`spell`). What is written of a character depends on the one before it and on the two
after it.
-/

namespace ApiCatalog.Title

open ApiCatalog.Text

/-- Whether a word that starts at `c` before `rest` loses its capital: it is a capitalised word, or
`c` alone. -/
def losesCapital (c : Char) : List Char → Bool
  | [] => isUpperCase c
  | d :: rest => isUpperCase c && (isLowerCase d || startsWord c d rest)

/-- The first character of a word, as it stands in a title. -/
def initial (c : Char) (rest : List Char) : List Char :=
  if losesCapital c rest then lowerForm c else [c]

/-- What a title holds after the character `previous` of the name without joints. -/
def spell (previous : Char) : List Char → List Char
  | [] => []
  | c :: rest =>
    if startsWord previous c rest then ' ' :: (initial c rest ++ spell c rest)
    else c :: spell c rest

variable {c previous : Char} {cs rest : List Char}

/-! ## Cutting and joining -/

/-- The open word `c :: word` as it stands in a title: its case is settled by its second character,
so by what comes after it if there is none. -/
def opened (c : Char) (word rest : List Char) : List Char :=
  match word with
  | [] => initial c rest
  | d :: word => settleCase (c :: d :: word)

theorem opened_nil (c : Char) (word : List Char) : opened c word [] = settleCase (c :: word) := by
  cases word with
  | nil => cases hc : isUpperCase c <;> simp [opened, initial, losesCapital, settleCase, hc]
  | cons d word => rfl

/-- Where the next word starts, the open word is a word of its own. -/
theorem opened_of_startsWord {word : List Char} (hlast : word = [] → previous = c) {e : Char}
    (h : startsWord previous e rest = true) :
    opened c word (e :: rest) = settleCase (c :: word) := by
  cases word with
  | nil =>
    rw [hlast rfl] at h
    cases hc : isUpperCase c <;> simp [opened, initial, losesCapital, settleCase, h, hc]
  | cons d word => rfl

/-- A character that starts no word goes on with the open one. -/
theorem opened_append {word : List Char} (hlast : word = [] → previous = c) {e : Char}
    (h : startsWord previous e rest = false) :
    opened c (word ++ [e]) rest = opened c word (e :: rest) ++ [e] := by
  cases word with
  | nil =>
    rw [hlast rfl] at h
    cases hc : isUpperCase c && isLowerCase e <;>
      simp [opened, initial, losesCapital, settleCase, h, hc]
  | cons d word =>
    cases hc : isUpperCase c && isLowerCase d <;> simp [opened, settleCase, hc]

theorem cutFrom_ne_nil (openWord : List Char) (previous : Char) (cs : List Char) :
    cutFrom openWord previous cs ≠ [] := by
  induction cs generalizing openWord previous with
  | nil => exact List.cons_ne_nil _ _
  | cons c cs ih =>
    unfold cutFrom
    split
    · exact List.cons_ne_nil _ _
    · exact ih _ _

/-- The words of a text are joined as they are read, whatever the open word. -/
theorem intercalate_cutFrom {word : List Char} (hlast : word = [] → previous = c)
    (rest : List Char) :
    [' '].intercalate ((cutFrom (c :: word).reverse previous rest).map settleCase) =
      opened c word rest ++ spell previous rest := by
  induction rest generalizing c word previous with
  | nil => simp [cutFrom, spell, opened_nil]
  | cons e rest ih =>
    unfold cutFrom spell
    cases hstart : startsWord previous e rest with
    | true =>
      have hnext : [' '].intercalate ((cutFrom [e] e rest).map settleCase) =
          initial e rest ++ spell e rest := @ih e e [] fun _ => rfl
      have hne : (cutFrom [e] e rest).map settleCase ≠ [] := by simp [cutFrom_ne_nil]
      rw [if_pos rfl, if_pos rfl, List.map_cons, List.intercalate_cons_of_ne_nil hne, hnext,
        List.reverse_reverse, opened_of_startsWord hlast hstart, List.append_assoc]
      rfl
    | false =>
      -- the character goes on with the open word
      have hnext := @ih c e (word ++ [e]) fun h => absurd h (by simp)
      rw [← List.cons_append, List.reverse_append, opened_append hlast hstart,
        List.append_assoc] at hnext
      rw [if_neg Bool.false_ne_true, if_neg Bool.false_ne_true]
      exact hnext

/-- Words joined by spaces: a space before each but the first. -/
theorem intercalate_spaced (first : List Char) (words : List (List Char)) :
    [' '].intercalate (first :: words) = first ++ words.flatMap (' ' :: ·) := by
  induction words generalizing first with
  | nil => simp
  | cons word words ih =>
    rw [List.intercalate_cons_cons, ih, List.flatMap_cons, List.append_assoc]
    rfl

/-- The title of a name that begins, joints apart, with an ASCII character. -/
theorem ofChars_eq {name : List Char} (h : dropJoints false false name = c :: rest)
    (hc : c.toNat < 128) : ofChars name = c.toUpper :: spell c.toLower rest := by
  have hlower := toNat_toLower_lt hc
  have hmarked : markWords name = c.toLower :: rest := by
    rw [markWords, h, uncapitalize, lowerForm_eq hc]
    rfl
  have hfirst : opened c.toLower [] rest = [c.toLower] := by
    have hcase : isUpperCase c.toLower = false := by
      rw [isUpperCase_eq hlower, isUpper_toLower hc]
    cases rest <;> simp [opened, initial, losesCapital, hcase]
  have hjoined : [' '].intercalate ((cutFrom [c.toLower] c.toLower rest).map settleCase) =
      opened c.toLower [] rest ++ spell c.toLower rest :=
    @intercalate_cutFrom _ _ [] (fun _ => rfl) rest
  rw [hfirst] at hjoined
  rw [ofChars, hmarked, cutWords, hjoined, List.singleton_append, capitalize,
    upperForm_eq hlower, toUpper_toLower hc]
  rfl

/-! ## Stretches of a name -/

/-- Letters and digits are no joints. -/
theorem not_joint (h : c.isUpper = true ∨ c.isLower = true ∨ c.isDigit = true) :
    isJoint c = false := by
  have hbounds : 48 ≤ c.toNat ∧ c.toNat ≤ 122 := by
    rcases h with h | h | h
    · have hupper := bounds_of_isUpper h
      omega
    · have hlower := bounds_of_isLower h
      omega
    · have hdigit := bounds_of_isDigit h
      omega
  have hblank : isBlank c = false := by
    rw [Bool.eq_false_iff]
    intro hblank
    have hpoint := mem_blankPoints hblank
    simp only [blankPoints, List.mem_cons, List.not_mem_nil, or_false] at hpoint
    omega
  have hunderscore : c ≠ '_' := by
    rintro rfl
    exact absurd h (by decide)
  have hhyphen : c ≠ '-' := by
    rintro rfl
    exact absurd h (by decide)
  simp [isJoint, hblank, hunderscore, hhyphen]

/-- Joints are taken out of nothing but joints. -/
theorem dropJoints_of_not_joint (h : ∀ c ∈ cs, isJoint c = false) :
    dropJoints true false (cs ++ rest) = cs ++ dropJoints true false rest := by
  induction cs with
  | nil => rfl
  | cons c cs ih =>
    obtain ⟨hc, hcs⟩ := List.forall_mem_cons.1 h
    simp [dropJoints, hc, ih hcs]

/-- Characters that are not in upper case are copied. -/
theorem spell_append (h : ∀ c ∈ cs, isUpperCase c = false) :
    spell previous (cs ++ rest) = cs ++ spell (cs.getLastD previous) rest := by
  induction cs generalizing previous with
  | nil => rfl
  | cons c cs ih =>
    obtain ⟨hc, hcs⟩ := List.forall_mem_cons.1 h
    have hcopied : startsWord previous c (cs ++ rest) = false := by simp [startsWord, hc]
    rw [List.cons_append, spell, if_neg (by simp [hcopied]), ih hcs, List.getLastD_cons,
      List.cons_append]

end ApiCatalog.Title
