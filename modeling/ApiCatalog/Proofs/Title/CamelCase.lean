import ApiCatalog.Proofs.Title.OnePass
import Mathlib.Data.List.Chain

/-!
# Names in camel case

A name in camel case is a word followed by capitalised words, single capitals and acronyms. Its
title holds them apart (`ofName_camelName`), as long as no two of the last two kinds meet: where one
ends and the other starts could not be told.
-/

namespace ApiCatalog.Title

open ApiCatalog.Text

/-! ## Names -/

/-- What a name in camel case goes on with. -/
inductive Token
  /-- A capitalised word. -/
  | word (capital : Char) (letters : List Char) (isUpper : capital.isUpper = true)
      (ne : letters ≠ []) (isLower : ∀ c ∈ letters, c.isLower = true)
  /-- A capital by itself. -/
  | single (capital : Char) (isUpper : capital.isUpper = true)
  /-- Two capitals or more. -/
  | acronym (first second : Char) (further : List Char)
      (isUpper : ∀ c ∈ first :: second :: further, c.isUpper = true)

namespace Token

/-- The token as it stands in a name. -/
def text : Token → List Char
  | word capital letters _ _ _ => capital :: letters
  | single capital _ => [capital]
  | acronym first second further _ => first :: second :: further

/-- The token as it stands in a title. -/
def title : Token → List Char
  | word capital letters _ _ _ => capital.toLower :: letters
  | single capital _ => [capital.toLower]
  | acronym first second further _ => first :: second :: further

/-- Whether the token is made of capitals only. -/
def isCapitals : Token → Bool
  | word .. => false
  | single .. => true
  | acronym .. => true

/-- A token can stand before another unless both are made of capitals. -/
def Apart (token next : Token) : Prop := ¬ (token.isCapitals = true ∧ next.isCapitals = true)

instance : DecidableRel Apart := fun token next =>
  inferInstanceAs (Decidable ¬ (token.isCapitals = true ∧ next.isCapitals = true))

end Token

/-- A name in camel case: a word in small letters, or a capitalised one, and further tokens. -/
structure CamelName where
  first : Char
  letters : List Char
  further : List Token
  first_letter : first.isLower = true ∨ first.isUpper = true ∧ letters ≠ []
  letters_lower : ∀ c ∈ letters, c.isLower = true
  apart : further.IsChain Token.Apart

namespace CamelName

/-- The name. -/
def text (name : CamelName) : List Char :=
  name.first :: (name.letters ++ name.further.flatMap Token.text)

/-- The tokens of the name with spaces between them, capitalised words and single capitals in small
letters, but the very first letter as a capital. -/
def title (name : CamelName) : List Char :=
  [' '].intercalate ((name.first.toUpper :: name.letters) :: name.further.map Token.title)

end CamelName

/-! ## Reading the tokens -/

variable {c previous : Char} {cs rest : List Char}

theorem Token.exists_first (token : Token) :
    ∃ c cs, token.text = c :: cs ∧ c.isUpper = true := by
  cases token with
  | word capital letters hcapital => exact ⟨capital, letters, rfl, hcapital⟩
  | single capital hcapital => exact ⟨capital, [], rfl, hcapital⟩
  | acronym first second further hcapitals =>
    exact ⟨first, second :: further, rfl, hcapitals first (by simp)⟩

/-- No token begins in lower case. -/
theorem not_lower_of_tokens (tokens : List Token) :
    ∀ c ∈ (tokens.flatMap Token.text).head?, isLowerCase c = false := by
  intro c hc
  cases tokens with
  | nil => exact absurd hc (by simp)
  | cons token tokens =>
    obtain ⟨first, more, htext, hupper⟩ := token.exists_first
    obtain rfl : first = c := by simpa [htext] using hc
    exact isLowerCase_of_isUpper hupper

/-- A capital after a small letter starts a word. -/
theorem startsWord_of_isLower (hprevious : previous.isLower = true) (hc : c.isUpper = true) :
    startsWord previous c rest = true := by
  simp [startsWord, isUpperCase_of_isUpper hc, isLowerCase_of_isLower hprevious]

/-- Before a character that is not in lower case, no word starts after another such. -/
theorem startsWord_eq_false (hprevious : isLowerCase previous = false)
    (hrest : ∀ c ∈ rest.head?, isLowerCase c = false) : startsWord previous c rest = false := by
  have hnext : rest.head?.any isLowerCase = false := by
    cases rest with
    | nil => rfl
    | cons d rest => exact hrest d rfl
  simp [startsWord, hprevious, hnext]

theorem not_lower_append (hcs : ∀ c ∈ cs, c.isUpper = true)
    (hrest : ∀ c ∈ rest.head?, isLowerCase c = false) :
    ∀ c ∈ (cs ++ rest).head?, isLowerCase c = false := by
  cases cs with
  | nil => exact hrest
  | cons d cs =>
    intro c hc
    obtain rfl : d = c := by simpa using hc
    exact isLowerCase_of_isUpper (hcs d (by simp))

/-- Capitals after a character that is not in lower case are copied. -/
theorem spell_capitals (hprevious : isLowerCase previous = false)
    (hcs : ∀ c ∈ cs, c.isUpper = true) (hrest : ∀ c ∈ rest.head?, isLowerCase c = false) :
    spell previous (cs ++ rest) = cs ++ spell (cs.getLastD previous) rest := by
  induction cs generalizing previous with
  | nil => rfl
  | cons c cs ih =>
    obtain ⟨hc, hcs⟩ := List.forall_mem_cons.1 hcs
    have hcopied : startsWord previous c (cs ++ rest) = false :=
      startsWord_eq_false hprevious (not_lower_append hcs hrest)
    rw [List.cons_append, spell, hcopied, if_neg Bool.false_ne_true,
      ih (isLowerCase_of_isUpper hc) hcs, List.getLastD_cons, List.cons_append]

/-- A capital before a small letter starts a word, after any letter, and loses its capital. -/
theorem spell_word (hprevious : previous.isLower = true ∨ previous.isUpper = true)
    (hc : c.isUpper = true) (hne : cs ≠ []) (hcs : ∀ d ∈ cs, d.isLower = true) :
    spell previous (c :: (cs ++ rest)) =
      ' ' :: c.toLower :: (cs ++ spell (cs.getLastD c) rest) := by
  obtain ⟨d, more, rfl⟩ := List.exists_cons_of_ne_nil hne
  have hupper := isUpperCase_of_isUpper hc
  have hd := isLowerCase_of_isLower (hcs d (by simp))
  have hstarts : startsWord previous c (d :: more ++ rest) = true := by
    rcases hprevious with hlower | hcapital
    · exact startsWord_of_isLower hlower hc
    · simp [startsWord, hupper, isUpperCase_of_isUpper hcapital, hd]
  have hinitial : initial c (d :: more ++ rest) = [c.toLower] := by
    simp [initial, losesCapital, hupper, hd, lowerForm_of_isUpper hc]
  have hcopied : spell c (d :: more ++ rest) =
      d :: more ++ spell ((d :: more).getLastD c) rest :=
    spell_append fun e he => isUpperCase_of_isLower (hcs e he)
  rw [spell, hstarts, if_pos rfl, hinitial, hcopied]
  rfl

/-- A capital by itself, before a capitalised word or at the end, loses its capital. -/
theorem losesCapital_tokens (hc : c.isUpper = true) {tokens : List Token}
    (h : ∀ token ∈ tokens.head?, token.isCapitals = false) :
    losesCapital c (tokens.flatMap Token.text) = true := by
  have hupper := isUpperCase_of_isUpper hc
  cases tokens with
  | nil => exact hupper
  | cons token tokens =>
    have hword := h token rfl
    cases token with
    | word capital letters hcapital hne hletters =>
      obtain ⟨d, more, rfl⟩ := List.exists_cons_of_ne_nil hne
      have hd := isLowerCase_of_isLower (hletters d (by simp))
      simp [Token.text, losesCapital, startsWord, hupper, isUpperCase_of_isUpper hcapital, hd]
    | single => exact absurd hword (by simp [Token.isCapitals])
    | acronym => exact absurd hword (by simp [Token.isCapitals])

theorem spell_single (hprevious : previous.isLower = true) (hc : c.isUpper = true)
    (hloses : losesCapital c rest = true) :
    spell previous (c :: rest) = ' ' :: c.toLower :: spell c rest := by
  rw [spell, startsWord_of_isLower hprevious hc, if_pos rfl, initial, hloses, if_pos rfl,
    lowerForm_of_isUpper hc]
  rfl

theorem spell_acronym (hprevious : previous.isLower = true) {first second : Char}
    (hcapitals : ∀ c ∈ first :: second :: cs, c.isUpper = true)
    (hrest : ∀ c ∈ rest.head?, isLowerCase c = false) :
    spell previous (first :: second :: (cs ++ rest)) =
      ' ' :: first :: second :: (cs ++ spell (cs.getLastD second) rest) := by
  obtain ⟨hfirst, hafter⟩ := List.forall_mem_cons.1 hcapitals
  obtain ⟨hsecond, hcs⟩ := List.forall_mem_cons.1 hafter
  have hnext := not_lower_append hcs hrest
  have hkept : losesCapital first (second :: (cs ++ rest)) = false := by
    simp [losesCapital, isLowerCase_of_isUpper hsecond,
      startsWord_eq_false (isLowerCase_of_isUpper hfirst) hnext]
  have hcopied := spell_capitals (isLowerCase_of_isUpper hfirst) hafter hrest
  rw [List.cons_append, List.getLastD_cons] at hcopied
  rw [spell, startsWord_of_isLower hprevious hfirst, if_pos rfl, initial, hkept,
    if_neg Bool.false_ne_true, hcopied]
  rfl

/-- The tokens of a name after a letter are written with a space before each. After a capital the
first of them must not be made of capitals. -/
theorem spell_tokens (tokens : List Token) (previous : Char)
    (hprevious : previous.isLower = true ∨
      previous.isUpper = true ∧ ∀ token ∈ tokens.head?, token.isCapitals = false)
    (hapart : tokens.IsChain Token.Apart) :
    spell previous (tokens.flatMap Token.text) =
      tokens.flatMap fun token => ' ' :: token.title := by
  induction tokens generalizing previous with
  | nil => rfl
  | cons token tokens ih =>
    obtain ⟨hnext, hrest⟩ := List.isChain_cons.1 hapart
    have hlower (h : token.isCapitals = true) : previous.isLower = true := by
      rcases hprevious with hlower | ⟨-, hfirst⟩
      · exact hlower
      · exact absurd (hfirst token rfl) (by simp [h])
    have hword (h : token.isCapitals = true) :
        ∀ next ∈ tokens.head?, next.isCapitals = false := by
      intro next hmem
      simpa [Token.Apart, h] using hnext next hmem
    rw [List.flatMap_cons, List.flatMap_cons]
    cases token with
    | word capital letters hcapital hne hletters =>
      have hlast : (letters.getLastD capital).isLower = true := by
        obtain ⟨d, more, rfl⟩ := List.exists_cons_of_ne_nil hne
        rw [List.getLastD_cons]
        exact hletters _ List.getLastD_mem_cons
      rw [Token.text, List.cons_append, spell_word (hprevious.imp_right And.left) hcapital hne
        hletters, ih _ (.inl hlast) hrest]
      simp [Token.title]
    | single capital hcapital =>
      rw [Token.text, List.singleton_append,
        spell_single (hlower rfl) hcapital (losesCapital_tokens hcapital (hword rfl)),
        ih _ (.inr ⟨hcapital, hword rfl⟩) hrest]
      rfl
    | acronym first second further hcapitals =>
      have hlast : (further.getLastD second).isUpper = true :=
        hcapitals _ (List.mem_cons_of_mem _ List.getLastD_mem_cons)
      rw [Token.text, List.cons_append, List.cons_append,
        spell_acronym (hlower rfl) hcapitals (not_lower_of_tokens tokens),
        ih _ (.inr ⟨hlast, hword rfl⟩) hrest]
      simp [Token.title]

theorem Token.not_joint_text (token : Token) : ∀ c ∈ token.text, isJoint c = false := by
  intro c hc
  cases token with
  | word capital letters hcapital hne hletters =>
    rcases List.mem_cons.1 hc with rfl | hc
    · exact not_joint (.inl hcapital)
    · exact not_joint (.inr (.inl (hletters c hc)))
  | single capital hcapital =>
    obtain rfl := List.mem_singleton.1 hc
    exact not_joint (.inl hcapital)
  | acronym first second further hcapitals => exact not_joint (.inl (hcapitals c hc))

namespace CamelName

/-- A name in camel case has no joints. -/
theorem dropJoints_text (name : CamelName) :
    dropJoints false false name.text =
      name.first :: (name.letters ++ name.further.flatMap Token.text) := by
  have hfirst : isJoint name.first = false := by
    apply not_joint
    rcases name.first_letter with hlower | ⟨hupper, -⟩
    · exact .inr (.inl hlower)
    · exact .inl hupper
  have hletters : ∀ c ∈ name.letters, isJoint c = false := by
    intro c hc
    exact not_joint (.inr (.inl (name.letters_lower c hc)))
  have hrest : ∀ c ∈ name.letters ++ name.further.flatMap Token.text, isJoint c = false := by
    rw [List.forall_mem_append]
    refine ⟨hletters, ?_⟩
    intro c hc
    obtain ⟨token, -, hc⟩ := List.mem_flatMap.1 hc
    exact token.not_joint_text c hc
  have hcopied := @dropJoints_of_not_joint _ [] hrest
  rw [List.append_nil] at hcopied
  rw [text, dropJoints, hfirst, if_neg Bool.false_ne_true, if_neg Bool.false_ne_true, hcopied,
    dropJoints, List.append_nil]

/-- The last character before the further tokens, the first letter taken as a small one. -/
theorem isLower_getLastD (name : CamelName) :
    (name.letters.getLastD name.first.toLower).isLower = true := by
  rcases List.mem_cons.1 (List.getLastD_mem_cons (l := name.letters) (a := name.first.toLower))
    with heq | hmem
  · rw [heq]
    rcases name.first_letter with hlower | ⟨hupper, -⟩
    · rw [toLower_of_isLower hlower, hlower]
    · exact isLower_toLower hupper
  · exact name.letters_lower _ hmem

end CamelName

/-- The title of a name in camel case is its tokens with spaces between them: capitalised words and
single capitals in small letters, acronyms as they are, and the very first letter as a capital. -/
theorem ofName_camelName (name : CamelName) :
    ofName (String.ofList name.text) = String.ofList name.title := by
  have hfirst : name.first.toNat < 128 := by
    rcases name.first_letter with hlower | ⟨hupper, -⟩
    · exact toNat_lt_of_isLower hlower
    · exact toNat_lt_of_isUpper hupper
  have hletters : spell name.first.toLower (name.letters ++ name.further.flatMap Token.text) =
      name.letters ++ name.further.flatMap fun token => ' ' :: token.title := by
    rw [spell_append fun c hc => isUpperCase_of_isLower (name.letters_lower c hc),
      spell_tokens _ _ (.inl name.isLower_getLastD) name.apart]
  rw [ofName, String.toList_ofList, ofChars_eq name.dropJoints_text hfirst, hletters,
    CamelName.title, intercalate_spaced, List.flatMap_map]
  rfl

/-- The name `thisIsNASAModuleWithABall`. -/
def nasaModule : CamelName where
  first := 't'
  letters := "his".toList
  further := [
    .word 'I' "s".toList (by decide) (by decide) (by simp),
    .acronym 'N' 'A' "SA".toList (by simp),
    .word 'M' "odule".toList (by decide) (by decide) (by simp),
    .word 'W' "ith".toList (by decide) (by decide) (by simp),
    .single 'A' (by decide),
    .word 'B' "all".toList (by decide) (by decide) (by simp)]
  first_letter := .inl (by decide)
  letters_lower := by simp
  apart := by decide

theorem ofName_nasaModule :
    ofName "thisIsNASAModuleWithABall" = "This is NASA module with a ball" :=
  ofName_camelName nasaModule

end ApiCatalog.Title
