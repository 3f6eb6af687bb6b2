import ApiCatalog.Proofs.Text.Collapse
import ApiCatalog.Proofs.Title.OnePass

/-!
# What a title keeps of its name

The title of an ASCII name has the characters of the name but the joints, in the same order and with
spaces between words; only their case may differ. Without the spaces it is the name without joints
again, up to its first character (`dropJoints_spell`), so the title of a title is the title itself
(`ofName_conserves`).
-/

namespace ApiCatalog.Title

open ApiCatalog.Text

/-! ## Characters of a title -/

/-- An ASCII character that is no joint. -/
def Kept (c : Char) : Prop := c.toNat < 128 ∧ isJoint c = false

instance (c : Char) : Decidable (Kept c) := inferInstanceAs (Decidable (_ ∧ _))

variable {c previous : Char} {cs rest : List Char}

theorem Kept.ne_space (h : Kept c) : c ≠ ' ' := by
  rintro rfl
  exact absurd h.2 (by decide)

/-- The other case of a character is kept like the character. -/
theorem Kept.other_case (h : Kept c) : Kept c.toUpper ∧ Kept c.toLower :=
  forall_ascii (p := fun c => Kept c → Kept c.toUpper ∧ Kept c.toLower) (by decide) c h.1 h

theorem toLower_cases (h : c.toNat < 128) :
    c.toUpper.toLower = c.toLower ∧ c.toLower.toLower = c.toLower :=
  forall_ascii (p := fun c => c.toUpper.toLower = c.toLower ∧ c.toLower.toLower = c.toLower)
    (by decide) c h

theorem toUpper_toUpper (h : c.toNat < 128) : c.toUpper.toUpper = c.toUpper :=
  forall_ascii (p := fun c => c.toUpper.toUpper = c.toUpper) (by decide) c h

/-! ## Taking out the joints -/

theorem kept_dropJoints (started raise : Bool) (h : ∀ c ∈ cs, c.toNat < 128) :
    ∀ c ∈ dropJoints started raise cs, Kept c := by
  induction cs generalizing started raise with
  | nil => simp [dropJoints]
  | cons c cs ih =>
    obtain ⟨hc, hcs⟩ := List.forall_mem_cons.1 h
    rw [dropJoints, upperForm_eq hc]
    cases hjoint : isJoint c with
    | true => exact ih started started hcs
    | false =>
      have hkept : Kept c := ⟨hc, hjoint⟩
      cases raise with
      | true => exact List.forall_mem_cons.2 ⟨hkept.other_case.1, ih true false hcs⟩
      | false => exact List.forall_mem_cons.2 ⟨hkept, ih true false hcs⟩

/-- Joints go, and of the other characters only the case changes. -/
theorem map_toLower_dropJoints (started raise : Bool) (h : ∀ c ∈ cs, c.toNat < 128) :
    (dropJoints started raise cs).map Char.toLower =
      (cs.filter fun c => !isJoint c).map Char.toLower := by
  induction cs generalizing started raise with
  | nil => rfl
  | cons c cs ih =>
    obtain ⟨hc, hcs⟩ := List.forall_mem_cons.1 h
    rw [dropJoints, upperForm_eq hc]
    cases hjoint : isJoint c with
    | true => simpa [hjoint] using ih started started hcs
    | false => cases raise <;> simp [hjoint, ih true false hcs, (toLower_cases hc).1]

/-! ## Spelling -/

/-- The first character of a word is kept, and can be raised to what it was. -/
theorem exists_initial (hc : Kept c) (hupper : isUpperCase c = true) (rest : List Char) :
    ∃ d, initial c rest = [d] ∧ Kept d ∧ d.toLower = c.toLower ∧ upperForm d = [c] := by
  have hraised : c.toUpper = c ∧ c.toLower.toUpper = c :=
    forall_ascii (p := fun c => c.isUpper = true → c.toUpper = c ∧ c.toLower.toUpper = c)
      (by decide) c hc.1 (isUpperCase_eq hc.1 ▸ hupper)
  rw [initial]
  cases losesCapital c rest with
  | true =>
    refine ⟨c.toLower, lowerForm_eq hc.1, hc.other_case.2, (toLower_cases hc.1).2, ?_⟩
    rw [upperForm_eq hc.other_case.2.1, hraised.2]
  | false => exact ⟨c, rfl, hc, rfl, by rw [upperForm_eq hc.1, hraised.1]⟩

/-- A character is copied, or written after a space if it starts a word. -/
theorem spell_cons_cases (hc : Kept c) (previous : Char) (rest : List Char) :
    spell previous (c :: rest) = c :: spell c rest ∨
      ∃ d, spell previous (c :: rest) = ' ' :: d :: spell c rest ∧ Kept d ∧
        d.toLower = c.toLower ∧ upperForm d = [c] := by
  rw [spell]
  cases hstarts : startsWord previous c rest with
  | false => exact .inl rfl
  | true =>
    have hupper : isUpperCase c = true := by
      rw [startsWord, Bool.and_eq_true] at hstarts
      exact hstarts.1
    obtain ⟨d, hinitial, hd⟩ := exists_initial hc hupper rest
    exact .inr ⟨d, by rw [hinitial]; rfl, hd⟩

theorem map_toLower_spell (h : ∀ c ∈ rest, Kept c) (previous : Char) :
    ((spell previous rest).filter (· ≠ ' ')).map Char.toLower = rest.map Char.toLower := by
  induction rest generalizing previous with
  | nil => rfl
  | cons c rest ih =>
    obtain ⟨hc, hrest⟩ := List.forall_mem_cons.1 h
    rcases spell_cons_cases hc previous rest with heq | ⟨d, heq, hd, hlower, -⟩
    · rw [heq, List.filter_cons_of_pos (by simp [hc.ne_space]), List.map_cons, ih hrest,
        List.map_cons]
    · rw [heq, List.filter_cons_of_neg (by simp), List.filter_cons_of_pos (by simp [hd.ne_space]),
        List.map_cons, ih hrest, List.map_cons, hlower]

/-- Spaces are single, and none is at the end. -/
structure WellSpaced (cs : List Char) : Prop where
  tidy : Tidy (· == ' ') cs
  last : cs.getLast? ≠ some ' '

theorem WellSpaced.cons (h : WellSpaced cs) (hc : Kept c) : WellSpaced (c :: cs) where
  tidy := (tidy_cons_of_not_blank rfl (by simp [hc.ne_space])).2 h.tidy
  last := by
    cases cs with
    | nil => simp [hc.ne_space]
    | cons d cs =>
      rw [List.getLast?_cons_cons]
      exact h.last

theorem WellSpaced.space_cons (h : WellSpaced cs) (hc : Kept c) :
    WellSpaced (' ' :: c :: cs) where
  tidy := (tidy_cons_of_blank rfl rfl).2 ⟨rfl, by simp [hc.ne_space], (h.cons hc).tidy⟩
  last := by
    rw [List.getLast?_cons_cons]
    exact (h.cons hc).last

/-- A space is written only before another character. -/
theorem wellSpaced_spell (h : ∀ c ∈ rest, Kept c) (previous : Char) :
    WellSpaced (spell previous rest) := by
  induction rest generalizing previous with
  | nil => exact ⟨⟨by simp [spell], by simp [spell]⟩, by simp [spell]⟩
  | cons c rest ih =>
    obtain ⟨hc, hrest⟩ := List.forall_mem_cons.1 h
    rcases spell_cons_cases hc previous rest with heq | ⟨d, heq, hd, -⟩
    · rw [heq]
      exact (ih hrest c).cons hc
    · rw [heq]
      exact (ih hrest c).space_cons hd

/-- Without its spaces a title is the name that it was cut from. -/
theorem dropJoints_spell (h : ∀ c ∈ rest, Kept c) (previous : Char) :
    dropJoints true false (spell previous rest) = rest := by
  induction rest generalizing previous with
  | nil => rfl
  | cons c rest ih =>
    obtain ⟨hc, hrest⟩ := List.forall_mem_cons.1 h
    rcases spell_cons_cases hc previous rest with heq | ⟨d, heq, hd, -, hupper⟩
    · rw [heq, dropJoints, hc.2, if_neg Bool.false_ne_true, if_neg Bool.false_ne_true, ih hrest]
    · have hspace : isJoint ' ' = true := by decide
      rw [heq, dropJoints, if_pos hspace, dropJoints, hd.2, if_neg Bool.false_ne_true, if_pos rfl,
        hupper, ih hrest, List.singleton_append]

/-! ## Titles -/

theorem ofChars_of_dropJoints_nil {name : List Char} (h : dropJoints false false name = []) :
    ofChars name = [] := by
  rw [ofChars, markWords, h]
  rfl

/-- The title of an ASCII name has the characters of the name but the joints, up to their case, and
single spaces between some of them. Making a title of it again changes nothing. -/
theorem ofName_conserves (name : String) (h : ∀ c ∈ name.toList, c.toNat < 128) :
    ((ofName name).toList.filter (· ≠ ' ')).map Char.toLower =
        (name.toList.filter fun c => !isJoint c).map Char.toLower ∧
      (ofName name).toList.head? ≠ some ' ' ∧ (ofName name).toList.getLast? ≠ some ' ' ∧
      (∀ before after, (ofName name).toList ≠ before ++ ' ' :: ' ' :: after) ∧
      ofName (ofName name) = ofName name := by
  have hkept := kept_dropJoints false false h
  rw [← map_toLower_dropJoints false false h]
  simp only [ofName, String.toList_ofList]
  cases hdrop : dropJoints false false name.toList with
  | nil => simp [ofChars_of_dropJoints_nil hdrop, @ofChars_of_dropJoints_nil [] rfl]
  | cons c rest =>
    rw [hdrop] at hkept
    obtain ⟨hc, hrest⟩ := List.forall_mem_cons.1 hkept
    have htitle := ofChars_eq hdrop hc.1
    have hupper := hc.other_case.1
    have hspaced : WellSpaced (ofChars name.toList) := by
      rw [htitle]
      exact (wellSpaced_spell hrest c.toLower).cons hupper
    have hagain : dropJoints false false (ofChars name.toList) = c.toUpper :: rest := by
      rw [htitle, dropJoints, hupper.2, if_neg Bool.false_ne_true, if_neg Bool.false_ne_true,
        dropJoints_spell hrest]
    refine ⟨?_, ?_, hspaced.last, hspaced.tidy.apart, ?_⟩
    · rw [htitle, List.filter_cons_of_pos (by simp [hupper.ne_space]), List.map_cons,
        map_toLower_spell hrest, (toLower_cases hc.1).1, List.map_cons]
    · simp [htitle, hupper.ne_space]
    · rw [ofChars_eq hagain hupper.1, toUpper_toUpper hc.1, (toLower_cases hc.1).1, htitle]

/-- The name `__get-HTTPStatus2_codes` has the title `Get HTTP status2Codes`. -/
theorem ofName_conserves_statusCodes :
    (∀ c ∈ "__get-HTTPStatus2_codes".toList, c.toNat < 128) ∧
      ofName "__get-HTTPStatus2_codes" = "Get HTTP status2Codes" ∧
      ofName "Get HTTP status2Codes" = "Get HTTP status2Codes" := by
  have hascii : ∀ c ∈ "__get-HTTPStatus2_codes".toList, c.toNat < 128 := by simp
  have htitle : ofName "__get-HTTPStatus2_codes" = "Get HTTP status2Codes" := by decide
  have hagain := (ofName_conserves _ hascii).2.2.2.2
  rw [htitle] at hagain
  exact ⟨hascii, htitle, hagain⟩

end ApiCatalog.Title
