import ApiCatalog.Endpoint.Rules
import ApiCatalog.Proofs.Text.Lines
import ApiCatalog.Proofs.Text.Trimming

/-!
# Rules in one text

A text of rules is made of pieces with bars between them. A piece is a rule with blanks around it, or
nothing but blanks, and then there is no rule in it (`Holds`). The rules of a text are those that
its pieces hold (`declares_iff`), so rules that were joined by bars are read again, however they were
padded (`rules_piped_intercalate`).
-/

namespace ApiCatalog

open ApiCatalog.Text

/-- The rules that pieces hold, in order. -/
inductive Holds : List (List Char) → List String → Prop where
  | nil : Holds [] []
  /-- A piece of blanks holds no rule. -/
  | blank {piece : List Char} {pieces : List (List Char)} {rules : List String}
      (piece_blank : ∀ c ∈ piece, isBlank c = true) (rest : Holds pieces rules) :
      Holds (piece :: pieces) rules
  /-- A rule begins and ends with characters that are no blanks. -/
  | rule {before after : List Char} {rule : String} {pieces : List (List Char)}
      {rules : List String} (before_blank : ∀ c ∈ before, isBlank c = true)
      (rule_bounded : Bounded rule.toList) (after_blank : ∀ c ∈ after, isBlank c = true)
      (rest : Holds pieces rules) :
      Holds ((before ++ rule.toList ++ after) :: pieces) (rule :: rules)

/-- The rules that a declaration stands for: those that the pieces between its bars hold, or its
list of rules as it is. -/
inductive RuleDeclaration.Declares : RuleDeclaration → List String → Prop where
  | piped {pieces : List (List Char)} {rules : List String} (no_bar : ∀ piece ∈ pieces, '|' ∉ piece)
      (holds : Holds pieces rules) :
      Declares (.piped (String.ofList (['|'].intercalate pieces))) rules
  | listed (rules : List String) : Declares (.listed rules) rules

/-- The pieces that are left when blanks and empty pieces are dropped. -/
def kept (pieces : List (List Char)) : List String :=
  ((pieces.map trim).filter (!·.isEmpty)).map String.ofList

variable {pieces : List (List Char)} {rules : List String} {declaration : RuleDeclaration}

theorem kept_cons_of_blank {piece : List Char} (h : trim piece = []) :
    kept (piece :: pieces) = kept pieces := by
  simp [kept, h]

theorem kept_cons_of_ne_nil {piece : List Char} (h : trim piece ≠ []) :
    kept (piece :: pieces) = String.ofList (trim piece) :: kept pieces := by
  simp [kept, h]

/-- What is left of pieces is what they hold. -/
theorem kept_of_holds (h : Holds pieces rules) : kept pieces = rules := by
  induction h with
  | nil => rfl
  | blank hblank rest ih => rw [kept_cons_of_blank (trim_eq_nil_iff.2 hblank), ih]
  | rule hbefore hrule hafter rest ih =>
    have htrim := trim_blanks_bounded hbefore hrule hafter
    rw [kept_cons_of_ne_nil (by rw [htrim]; exact hrule.ne_nil), htrim, String.ofList_toList, ih]

theorem holds_kept (pieces : List (List Char)) : Holds pieces (kept pieces) := by
  induction pieces with
  | nil => exact .nil
  | cons piece pieces ih =>
    by_cases hnil : trim piece = []
    · rw [kept_cons_of_blank hnil]
      exact .blank (trim_eq_nil_iff.1 hnil) ih
    · obtain ⟨before, after, hpiece, hbefore, hafter⟩ := exists_trim piece
      have hrule : Bounded (String.ofList (trim piece)).toList := by
        rw [String.toList_ofList]
        exact bounded_trim hnil
      have hholds := Holds.rule hbefore hrule hafter ih
      rw [String.toList_ofList, ← hpiece] at hholds
      rwa [kept_cons_of_ne_nil hnil]

/-- Pieces that were joined by bars are the pieces of the text; no pieces at all make an empty
text. -/
theorem rules_piped (h : ∀ piece ∈ pieces, '|' ∉ piece) :
    (RuleDeclaration.piped (String.ofList (['|'].intercalate pieces))).rules = kept pieces := by
  rw [RuleDeclaration.rules, String.toList_ofList]
  by_cases hnil : pieces = []
  · rw [hnil]
    rfl
  · rw [pieces_intercalate hnil h, kept]

/-- The rules of a declaration are those that it stands for, and no others. -/
theorem declares_iff : declaration.Declares rules ↔ declaration.rules = rules := by
  constructor
  · rintro (⟨hbar, hholds⟩ | -)
    · rw [rules_piped hbar, kept_of_holds hholds]
    · rfl
  · rintro rfl
    cases declaration with
    | listed rules => exact .listed rules
    | piped text =>
      have hbar : ∀ piece ∈ Text.pieces '|' text.toList, '|' ∉ piece :=
        fun piece hpiece => not_mem_of_mem_pieces hpiece
      have hdeclares := RuleDeclaration.Declares.piped hbar (holds_kept _)
      rwa [intercalate_pieces, String.ofList_toList] at hdeclares

/-- No piece holds a bar if no rule does. -/
theorem not_mem_of_holds (h : Holds pieces rules) (hrules : ∀ rule ∈ rules, '|' ∉ rule.toList) :
    ∀ piece ∈ pieces, '|' ∉ piece := by
  have hbar : ∀ {blanks : List Char}, (∀ c ∈ blanks, isBlank c = true) → '|' ∉ blanks :=
    fun hblanks hmem => absurd (hblanks _ hmem) (by decide)
  induction h with
  | nil => simp
  | blank hblank rest ih => exact List.forall_mem_cons.2 ⟨hbar hblank, ih hrules⟩
  | rule hbefore hrule hafter rest ih =>
    obtain ⟨hhere, hrest⟩ := List.forall_mem_cons.1 hrules
    exact List.forall_mem_cons.2 ⟨by simp [hbar hbefore, hhere, hbar hafter], ih hrest⟩

/-- Rules without bars that were joined by bars are read again, with any blanks around them and any
empty pieces between them. -/
theorem rules_piped_intercalate (hrules : ∀ rule ∈ rules, '|' ∉ rule.toList)
    (h : Holds pieces rules) :
    (RuleDeclaration.piped (String.ofList (['|'].intercalate pieces))).rules = rules := by
  rw [rules_piped (not_mem_of_holds h hrules), kept_of_holds h]

end ApiCatalog
