import ApiCatalog.Proofs.Title.OnePass
import Mathlib.Data.List.Chain

/-!
# Names in snake and kebab case

A name may hold its words apart by joints. The title is cut from the name without them, so a word is
told from the one before it only by the capital that it is given. That capital starts no word after
a digit, nor inside a run of capitals, which single letters in a row make; and if a digit follows,
it is taken for an acronym and kept. `JoinedName.title` says what becomes of each word. The title is
the words with spaces between them just if none of this happens (`ofName_joinedName`).
-/

namespace ApiCatalog.Title

open ApiCatalog.Text

/-! ## Names -/

/-- A small letter, followed by small letters and digits. -/
structure Word where
  first : Char
  rest : List Char
  first_lower : first.isLower = true
  rest_chars : ∀ c ∈ rest, c.isLower = true ∨ c.isDigit = true

namespace Word

/-- The word. -/
def text (word : Word) : List Char := word.first :: word.rest

/-- The word with its first letter as a capital. -/
def raised (word : Word) : List Char := word.first.toUpper :: word.rest

/-- Whether the word is a letter by itself. -/
def isLetter (word : Word) : Bool := word.rest.isEmpty

def endsInDigit (word : Word) : Bool := word.rest.getLast?.any Char.isDigit

/-- Whether a small letter comes second. -/
def secondIsLetter (word : Word) : Bool := word.rest.head?.any Char.isLower

/-- Whether a digit comes second. -/
def secondIsDigit (word : Word) : Bool := word.rest.head?.any Char.isDigit

/-- At most one of two words is a single letter. -/
def NotBothLetters (word next : Word) : Prop := ¬ (word.isLetter = true ∧ next.isLetter = true)

instance : DecidableRel NotBothLetters := fun word next =>
  inferInstanceAs (Decidable ¬ (word.isLetter = true ∧ next.isLetter = true))

end Word

/-- A run of joints. -/
structure Gap where
  chars : List Char
  ne : chars ≠ []
  joints : ∀ c ∈ chars, isJoint c = true

/-- Words with gaps between them, and perhaps joints at both ends. -/
structure JoinedName where
  before : List Char
  first : Word
  further : List (Gap × Word)
  after : List Char
  before_joints : ∀ c ∈ before, isJoint c = true
  after_joints : ∀ c ∈ after, isJoint c = true

/-- Whether a word is written without a space after the one before it: that one ends in a digit, or
it is a single letter that was given a capital, not being the first word (`inner`), and no small
letter comes second in the word. -/
def attaches (inner : Bool) (previous word : Word) : Bool :=
  previous.endsInDigit || (inner && previous.isLetter && !word.secondIsLetter)

/-- Whether a word that stands apart keeps the capital it was given: a digit comes second, or it is
a single letter and the next word is attached to it. -/
def keepsCapital (word : Word) (next : Option Word) : Bool :=
  word.secondIsDigit || (word.isLetter && next.any (attaches true word))

/-- The words after another one as they stand in a title. -/
def written (inner : Bool) (previous : Word) : List Word → List Char
  | [] => []
  | word :: words =>
    (if attaches inner previous word then word.raised
      else ' ' :: if keepsCapital word words.head? then word.raised else word.text) ++
    written true word words

namespace JoinedName

/-- The words after the first. -/
def furtherWords (name : JoinedName) : List Word := name.further.map Prod.snd

/-- The name. -/
def text (name : JoinedName) : List Char :=
  name.before ++ (name.first.text ++
    (name.further.flatMap fun part => part.1.chars ++ part.2.text) ++ name.after)

/-- What the name makes. -/
def title (name : JoinedName) : List Char :=
  name.first.raised ++ written false name.first name.furtherWords

/-- The words with spaces between them, the first letter as a capital. -/
def spaced (name : JoinedName) : List Char :=
  [' '].intercalate (name.first.raised :: name.furtherWords.map Word.text)

/-- The words can be told apart without the joints. -/
structure Legible (name : JoinedName) : Prop where
  /-- No word but the last ends in a digit. -/
  ends : ∀ word ∈ (name.first :: name.furtherWords).dropLast, word.endsInDigit = false
  /-- No word but the first has a digit right after its first letter. -/
  seconds : ∀ word ∈ name.furtherWords, word.secondIsDigit = false
  /-- Among the words after the first no two single letters follow each other. -/
  letters : name.furtherWords.IsChain Word.NotBothLetters

end JoinedName

/-! ## Taking out the joints -/

variable {cs rest : List Char}

theorem dropJoints_joints (h : ∀ c ∈ cs, isJoint c = true) :
    dropJoints false false (cs ++ rest) = dropJoints false false rest := by
  induction cs with
  | nil => rfl
  | cons c cs ih =>
    obtain ⟨hc, hcs⟩ := List.forall_mem_cons.1 h
    rw [List.cons_append, dropJoints, hc, if_pos rfl, ih hcs]

theorem dropJoints_gap (h : ∀ c ∈ cs, isJoint c = true) (hne : cs ≠ []) (raise : Bool) :
    dropJoints true raise (cs ++ rest) = dropJoints true true rest := by
  induction cs generalizing raise with
  | nil => exact absurd rfl hne
  | cons c cs ih =>
    obtain ⟨hc, hcs⟩ := List.forall_mem_cons.1 h
    rw [List.cons_append, dropJoints, hc, if_pos rfl]
    cases cs with
    | nil => rfl
    | cons d cs => exact ih hcs (by simp) true

theorem dropJoints_after (h : ∀ c ∈ cs, isJoint c = true) (raise : Bool) :
    dropJoints true raise cs = [] := by
  induction cs generalizing raise with
  | nil => rfl
  | cons c cs ih =>
    obtain ⟨hc, hcs⟩ := List.forall_mem_cons.1 h
    rw [dropJoints, hc, if_pos rfl, ih hcs]

namespace Word

theorem first_not_joint (word : Word) : isJoint word.first = false :=
  not_joint (.inr (.inl word.first_lower))

theorem rest_not_joint (word : Word) : ∀ c ∈ word.rest, isJoint c = false := by
  intro c hc
  exact not_joint (.inr (word.rest_chars c hc))

theorem dropJoints_rest (word : Word) :
    dropJoints true false (word.rest ++ rest) = word.rest ++ dropJoints true false rest :=
  dropJoints_of_not_joint word.rest_not_joint

/-- After a joint the first letter of a word is raised. -/
theorem dropJoints_raised (word : Word) :
    dropJoints true true (word.text ++ rest) = word.raised ++ dropJoints true false rest := by
  rw [text, List.cons_append, dropJoints, word.first_not_joint, if_neg Bool.false_ne_true,
    if_pos rfl, upperForm_eq (toNat_lt_of_isLower word.first_lower), word.dropJoints_rest]
  rfl

end Word

theorem dropJoints_parts (parts : List (Gap × Word)) {after : List Char}
    (hafter : ∀ c ∈ after, isJoint c = true) :
    dropJoints true false ((parts.flatMap fun part => part.1.chars ++ part.2.text) ++ after) =
      (parts.map Prod.snd).flatMap Word.raised := by
  induction parts with
  | nil => exact dropJoints_after hafter false
  | cons part parts ih =>
    rw [List.flatMap_cons, List.append_assoc, List.append_assoc,
      dropJoints_gap part.1.joints part.1.ne, part.2.dropJoints_raised, ih]
    rfl

theorem JoinedName.dropJoints_text (name : JoinedName) :
    dropJoints false false name.text =
      name.first.first :: (name.first.rest ++ name.furtherWords.flatMap Word.raised) := by
  rw [text, dropJoints_joints name.before_joints, Word.text, List.append_assoc, List.cons_append,
    dropJoints, name.first.first_not_joint, if_neg Bool.false_ne_true, if_neg Bool.false_ne_true,
    name.first.dropJoints_rest, dropJoints_parts _ name.after_joints, furtherWords]

/-! ## Reading the words -/

/-- The last character of a word, its first letter as a capital if it is not the first word. -/
def Word.last (inner : Bool) (word : Word) : Char :=
  word.rest.getLastD (if inner then word.first.toUpper else word.first)

theorem Word.isUpper_toUpper_first (word : Word) : word.first.toUpper.isUpper = true :=
  isUpper_toUpper word.first_lower

/-- No word begins in lower case once it is raised. -/
theorem not_lower_of_words (words : List Word) :
    ∀ c ∈ (words.flatMap Word.raised).head?, isLowerCase c = false := by
  intro c hc
  cases words with
  | nil => exact absurd hc (by simp)
  | cons word words =>
    obtain rfl : word.first.toUpper = c := by simpa [Word.raised] using hc
    exact isLowerCase_of_isUpper word.isUpper_toUpper_first

theorem Word.rest_not_upper (word : Word) : ∀ c ∈ word.rest, isUpperCase c = false := by
  intro c hc
  rcases word.rest_chars c hc with h | h
  · exact isUpperCase_of_isLower h
  · exact isUpperCase_of_isDigit h

/-- Whether a small letter comes second can be seen in the name without joints. -/
theorem head?_any_isLowerCase (word : Word) (hrest : ∀ c ∈ rest.head?, isLowerCase c = false) :
    (word.rest ++ rest).head?.any isLowerCase = word.secondIsLetter := by
  obtain ⟨first, letters, hfirst, hletters⟩ := word
  cases letters with
  | nil =>
    cases rest with
    | nil => rfl
    | cons c rest => exact hrest c rfl
  | cons d letters =>
    show isLowerCase d = d.isLower
    apply isLowerCase_eq
    rcases hletters d (by simp) with h | h
    · exact toNat_lt_of_isLower h
    · exact toNat_lt_of_isDigit h

/-- A word is told from the one before it unless it is attached to it. -/
theorem startsWord_last (inner : Bool) (previous word : Word)
    (hrest : ∀ c ∈ rest.head?, isLowerCase c = false) :
    startsWord (previous.last inner) word.first.toUpper (word.rest ++ rest) =
      !attaches inner previous word := by
  have hupper := isUpperCase_of_isUpper word.isUpper_toUpper_first
  rw [startsWord, hupper, head?_any_isLowerCase word hrest, Bool.true_and]
  rcases List.eq_nil_or_concat previous.rest with hnil | ⟨init, d, hconcat⟩
  · cases inner with
    | false =>
      have hlower := isLowerCase_of_isLower previous.first_lower
      simp [Word.last, hnil, attaches, Word.endsInDigit, hlower]
    | true =>
      have hcapital := isUpperCase_of_isUpper previous.isUpper_toUpper_first
      have hlower := isLowerCase_of_isUpper previous.isUpper_toUpper_first
      simp [Word.last, hnil, attaches, Word.endsInDigit, Word.isLetter, hcapital, hlower]
  · have hd : d.isLower = true ∨ d.isDigit = true := previous.rest_chars d (by simp [hconcat])
    have hlast : previous.last inner = d := by simp [Word.last, hconcat]
    have hletter : previous.isLetter = false := by simp [Word.isLetter, hconcat]
    have hends : previous.endsInDigit = d.isDigit := by simp [Word.endsInDigit, hconcat]
    rw [hlast, attaches, hletter, hends]
    rcases hd with hlower | hdigit
    · simp [isLowerCase_of_isLower hlower, isDigit_of_isLower hlower]
    · simp [isLowerCase_of_isDigit hdigit, isUpperCase_of_isDigit hdigit, hdigit]

/-- What comes after the first letter of a word, in it or in the next one, decides about its
capital. -/
theorem losesCapital_words (word : Word) (words : List Word) :
    losesCapital word.first.toUpper (word.rest ++ words.flatMap Word.raised) =
      !keepsCapital word words.head? := by
  have hupper := isUpperCase_of_isUpper word.isUpper_toUpper_first
  cases hrest : word.rest with
  | nil =>
    cases words with
    | nil => simp [losesCapital, keepsCapital, Word.secondIsDigit, hrest, hupper]
    | cons next words =>
      have hlast : word.last true = word.first.toUpper := by simp [Word.last, hrest]
      have hstarts := startsWord_last true word next (not_lower_of_words words)
      have hnext := isLowerCase_of_isUpper next.isUpper_toUpper_first
      rw [hlast] at hstarts
      simp [losesCapital, keepsCapital, Word.secondIsDigit, Word.isLetter, Word.raised, hrest,
        hupper, hnext, hstarts]
  | cons d letters =>
    rcases word.rest_chars d (by simp [hrest]) with hlower | hdigit
    · simp [losesCapital, keepsCapital, Word.secondIsDigit, Word.isLetter, hrest, hupper,
        isLowerCase_of_isLower hlower, isDigit_of_isLower hlower]
    · simp [losesCapital, keepsCapital, Word.secondIsDigit, hrest, startsWord,
        isLowerCase_of_isDigit hdigit, isUpperCase_of_isDigit hdigit, hdigit]

/-- The words after another one are written as `written` says. -/
theorem spell_words (inner : Bool) (previous : Word) (words : List Word) :
    spell (previous.last inner) (words.flatMap Word.raised) = written inner previous words := by
  induction words generalizing inner previous with
  | nil => rfl
  | cons word words ih =>
    -- whatever came before, this word was given a capital, so the next one follows an inner word
    have hlast : word.rest.getLastD word.first.toUpper = word.last true := rfl
    have hlower : lowerForm word.first.toUpper = [word.first] := by
      rw [lowerForm_of_isUpper word.isUpper_toUpper_first, toLower_toUpper word.first_lower]
    rw [List.flatMap_cons, Word.raised, List.cons_append, spell,
      startsWord_last inner previous word (not_lower_of_words words), initial,
      losesCapital_words, spell_append word.rest_not_upper, hlast, ih, written, hlower]
    cases attaches inner previous word <;> cases keepsCapital word words.head? <;>
      simp [Word.raised, Word.text]

/-! ## Names that are read as they are meant -/

/-- Every further word stands apart from the one before it, and in small letters. -/
def StandApart : Bool → Word → List Word → Prop
  | _, _, [] => True
  | inner, previous, word :: words =>
    attaches inner previous word = false ∧ keepsCapital word words.head? = false ∧
      StandApart true word words

/-- An attached word brings its capital where there should be a space, and a word that keeps its
capital brings it where there should be a small letter. -/
theorem written_eq_iff (inner : Bool) (previous : Word) (words : List Word) :
    written inner previous words = words.flatMap (fun word => ' ' :: word.text) ↔
      StandApart inner previous words := by
  induction words generalizing inner previous with
  | nil => exact iff_of_true rfl trivial
  | cons word words ih =>
    have hspace : word.first.toUpper ≠ ' ' := by
      intro heq
      have hupper := word.isUpper_toUpper_first
      rw [heq] at hupper
      exact absurd hupper (by decide)
    have hcapital := toUpper_ne word.first_lower
    rw [written, StandApart, List.flatMap_cons]
    cases attaches inner previous word with
    | true => simp [Word.raised, hspace]
    | false =>
      cases keepsCapital word words.head? with
      | true => simp [Word.raised, Word.text, hcapital]
      | false => simp [ih]

/-- After its first letter a word ends, or goes on with a letter or a digit. -/
theorem Word.secondIsLetter_eq (word : Word) :
    word.secondIsLetter = !(word.isLetter || word.secondIsDigit) := by
  obtain ⟨first, letters, hfirst, hletters⟩ := word
  cases letters with
  | nil => rfl
  | cons d letters =>
    show d.isLower = !(false || d.isDigit)
    rcases hletters d (by simp) with hlower | hdigit
    · simp [hlower, isDigit_of_isLower hlower]
    · simp [isLower_of_isDigit hdigit, hdigit]

theorem attaches_eq_false_iff {inner : Bool} {previous word : Word}
    (h : word.secondIsDigit = false) :
    attaches inner previous word = false ↔
      previous.endsInDigit = false ∧ (inner = true → previous.NotBothLetters word) := by
  rw [attaches, word.secondIsLetter_eq, h, Word.NotBothLetters]
  cases inner <;> simp

/-- A word that stands apart keeps its capital for a digit, or for the next word, which then does
not stand apart. -/
theorem standApart_cons (inner : Bool) (previous word : Word) (words : List Word) :
    StandApart inner previous (word :: words) ↔
      word.secondIsDigit = false ∧ attaches inner previous word = false ∧
        StandApart true word words := by
  rw [StandApart, keepsCapital]
  constructor
  · rintro ⟨hattach, hkeeps, hwords⟩
    exact ⟨(Bool.or_eq_false_iff.1 hkeeps).1, hattach, hwords⟩
  · rintro ⟨hsecond, hattach, hwords⟩
    refine ⟨hattach, ?_, hwords⟩
    cases words with
    | nil => simp [hsecond]
    | cons next words => simp [hsecond, hwords.1]

theorem standApart_iff (inner : Bool) (previous : Word) (words : List Word) :
    StandApart inner previous words ↔
      (∀ word ∈ (previous :: words).dropLast, word.endsInDigit = false) ∧
        (∀ word ∈ words, word.secondIsDigit = false) ∧
        (if inner then previous :: words else words).IsChain Word.NotBothLetters := by
  induction words generalizing inner previous with
  | nil => cases inner <;> simp [StandApart]
  | cons word words ih =>
    rw [standApart_cons, ih true word, List.dropLast_cons_cons, List.forall_mem_cons,
      List.forall_mem_cons, if_pos rfl]
    constructor
    · rintro ⟨hsecond, hattach, hends, hseconds, hchain⟩
      obtain ⟨hprevious, hboth⟩ := (attaches_eq_false_iff hsecond).1 hattach
      refine ⟨⟨hprevious, hends⟩, ⟨hsecond, hseconds⟩, ?_⟩
      cases inner with
      | false => exact hchain
      | true => exact List.isChain_cons_cons.2 ⟨hboth rfl, hchain⟩
    · rintro ⟨⟨hprevious, hends⟩, ⟨hsecond, hseconds⟩, hchain⟩
      cases inner with
      | false =>
        exact ⟨hsecond, (attaches_eq_false_iff hsecond).2 ⟨hprevious, by simp⟩, hends, hseconds,
          hchain⟩
      | true =>
        obtain ⟨hboth, hchain⟩ := List.isChain_cons_cons.1 hchain
        exact ⟨hsecond, (attaches_eq_false_iff hsecond).2 ⟨hprevious, fun _ => hboth⟩, hends,
          hseconds, hchain⟩

theorem JoinedName.standApart_iff_legible (name : JoinedName) :
    StandApart false name.first name.furtherWords ↔ name.Legible := by
  rw [standApart_iff, if_neg Bool.false_ne_true]
  constructor
  · rintro ⟨hends, hseconds, hletters⟩
    exact ⟨hends, hseconds, hletters⟩
  · rintro ⟨hends, hseconds, hletters⟩
    exact ⟨hends, hseconds, hletters⟩

/-- What a name in snake or kebab case makes, word by word. It makes its words with spaces between
them and the first letter as a capital just if they can be told apart without the joints. -/
theorem ofName_joinedName (name : JoinedName) :
    ofName (String.ofList name.text) = String.ofList name.title ∧
      (ofName (String.ofList name.text) = String.ofList name.spaced ↔ name.Legible) := by
  have hfurther : spell name.first.first (name.first.rest ++
      name.furtherWords.flatMap Word.raised) =
        name.first.rest ++ written false name.first name.furtherWords := by
    have hlast : name.first.rest.getLastD name.first.first = name.first.last false := rfl
    rw [spell_append name.first.rest_not_upper, hlast, spell_words]
  have htitle : ofName (String.ofList name.text) = String.ofList name.title := by
    rw [ofName, String.toList_ofList,
      ofChars_eq name.dropJoints_text (toNat_lt_of_isLower name.first.first_lower),
      toLower_of_isLower name.first.first_lower, hfurther]
    rfl
  refine ⟨htitle, ?_⟩
  rw [htitle, String.ofList_inj, JoinedName.title, JoinedName.spaced, intercalate_spaced,
    List.append_cancel_left_eq, List.flatMap_map, ← name.standApart_iff_legible]
  exact written_eq_iff false name.first name.furtherWords

/-- The name `v2_api`. -/
def versionName : JoinedName where
  before := []
  first := ⟨'v', "2".toList, by decide, by simp⟩
  further := [(⟨"_".toList, by decide, by simp [isJoint]⟩, ⟨'a', "pi".toList, by decide, by simp⟩)]
  after := []
  before_joints := by simp
  after_joints := by simp

/-- After a digit no space is put and the capital stays. -/
theorem ofName_versionName :
    String.ofList versionName.text = "v2_api" ∧ ofName "v2_api" = "V2Api" ∧
      String.ofList versionName.spaced = "V2 api" ∧
      ofName (String.ofList versionName.text) ≠ String.ofList versionName.spaced := by
  decide

/-- The name `or_some--words_are missing_`. -/
def missingWordsName : JoinedName where
  before := []
  first := ⟨'o', "r".toList, by decide, by simp⟩
  further := [
    (⟨"_".toList, by decide, by simp [isJoint]⟩, ⟨'s', "ome".toList, by decide, by simp⟩),
    (⟨"--".toList, by decide, by simp [isJoint]⟩, ⟨'w', "ords".toList, by decide, by simp⟩),
    (⟨"_".toList, by decide, by simp [isJoint]⟩, ⟨'a', "re".toList, by decide, by simp⟩),
    (⟨" ".toList, by decide, List.all_eq_true.1 (by decide)⟩,
      ⟨'m', "issing".toList, by decide, by simp⟩)]
  after := "_".toList
  before_joints := by simp
  after_joints := by simp [isJoint]

theorem ofName_missingWordsName :
    ofName "or_some--words_are missing_" = "Or some words are missing" := by
  have hlegible : missingWordsName.Legible := ⟨by decide, by decide, by decide⟩
  exact (ofName_joinedName missingWordsName).2.2 hlegible

end ApiCatalog.Title
