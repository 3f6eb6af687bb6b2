/-!
# Route masks

A mask is a text with wildcards: `?` stands for any character, `*` for any run of characters,
`[…]` for one of the characters or ranges listed and `[!…]` for one that is not listed. `**` must
be a whole component of an address: it stands for no or several components, and at the end of a
mask for anything.
-/

namespace ApiCatalog

/-- An item between the brackets of a mask. -/
inductive BracketItem where
  | single (c : Char)
  | range (low high : Char)
deriving Repr, DecidableEq

/-- Whether an item lists a character. -/
def BracketItem.covers : BracketItem → Char → Bool
  | .single c, d => c = d
  | .range low high, d => low ≤ d && d ≤ high

/-- A part of a mask. -/
inductive MaskToken where
  | char (c : Char)
  | anyChar
  /-- One of the listed characters, or if negated, one that is not listed. -/
  | bracket (negated : Bool) (items : List BracketItem)
  | anyRun
  /-- No or several components, each ending in a slash; at the end of a mask, anything. -/
  | components
deriving Repr, DecidableEq

/-- A mask, token by token. -/
abbrev Mask := List MaskToken

/-- What is wrong with a mask. -/
inductive MaskError.Kind where
  /-- Three stars or more in a row. -/
  | tooManyStars
  /-- A double star that is not a whole component. -/
  | partialComponent
  /-- Brackets that are empty or not closed. -/
  | invalidBrackets
deriving Repr, DecidableEq

/-- What is wrong with a mask, and where, counted in characters. -/
structure MaskError where
  position : Nat
  kind : MaskError.Kind
deriving Repr, DecidableEq

namespace MaskError

/-- The wording of the kind of error. -/
def Kind.message : Kind → String
  | .tooManyStars => "wildcards are either regular `*` or recursive `**`"
  | .partialComponent => "recursive wildcards must form a single path component"
  | .invalidBrackets => "invalid range pattern"

/-- The wording of the error. -/
def message (e : MaskError) : String :=
  "Pattern syntax error near position " ++ toString e.position ++ ": " ++ e.kind.message

end MaskError

namespace Mask

/-! ## Reading -/

/-- The items between brackets. -/
def bracketItems : List Char → List BracketItem
  | low :: '-' :: high :: rest => .range low high :: bracketItems rest
  | c :: rest => .single c :: bracketItems rest
  | [] => []

/-- What stands between brackets and after them, given the text after the opening one and, if
negated, the `!`. The first character never closes. -/
def closeBracket? (negated : Bool) : List Char → Option (MaskToken × List Char)
  | [] => none
  | first :: rest =>
    match rest.dropWhile (· ≠ ']') with
    | [] => none
    | _ :: after =>
      some (.bracket negated (bracketItems (first :: rest.takeWhile (· ≠ ']'))), after)

/-- What stands between brackets and after them, given the text after the opening one. -/
def readBracket? : List Char → Option (MaskToken × List Char)
  | '!' :: rest => closeBracket? true rest
  | text => closeBracket? false text

theorem closeBracket?_length {negated : Bool} {text after : List Char} {token : MaskToken}
    (h : closeBracket? negated text = some (token, after)) : after.length < text.length := by
  cases text with
  | nil => simp [closeBracket?] at h
  | cons first rest =>
    simp only [closeBracket?] at h
    split at h
    · simp at h
    · rename_i closing tail hdrop
      have hle := (List.dropWhile_suffix (l := rest) (· ≠ ']')).length_le
      rw [hdrop] at hle
      simp only [Option.some.injEq, Prod.mk.injEq] at h
      obtain ⟨_, rfl⟩ := h
      simp only [List.length_cons] at hle ⊢
      omega

theorem readBracket?_length {text after : List Char} {token : MaskToken}
    (h : readBracket? text = some (token, after)) : after.length < text.length := by
  unfold readBracket? at h
  split at h
  · have := closeBracket?_length h
    simp only [List.length_cons]
    omega
  · exact closeBracket?_length h

/-- Reads the tokens from a position on, where `opens` says whether a component can start. -/
def tokensFrom (opens : Bool) (position : Nat) : List Char → Except MaskError Mask
  | [] => .ok []
  | '?' :: rest => (tokensFrom false (position + 1) rest).map (.anyChar :: ·)
  | '*' :: '*' :: '*' :: _ => .error ⟨position + 2, .tooManyStars⟩
  | '*' :: '*' :: rest =>
    if opens then
      match rest with
      | [] => .ok [.components]
      | '/' :: rest => (tokensFrom true (position + 3) rest).map (.components :: ·)
      | _ => .error ⟨position + 2, .partialComponent⟩
    else .error ⟨position - 1, .partialComponent⟩
  | '*' :: rest => (tokensFrom false (position + 1) rest).map (.anyRun :: ·)
  | '[' :: rest =>
    match _h : readBracket? rest with
    | none => .error ⟨position, .invalidBrackets⟩
    | some (token, after) =>
      (tokensFrom false (position + 1 + (rest.length - after.length)) after).map (token :: ·)
  | c :: rest => (tokensFrom (c = '/') (position + 1) rest).map (.char c :: ·)
termination_by text => text.length
decreasing_by
  all_goals simp only [List.length_cons]
  · omega
  · omega
  · omega
  · have := readBracket?_length _h
    omega
  · omega

/-- Reads a mask. -/
def ofString (text : String) : Except MaskError Mask := tokensFrom true 0 text.toList

/-! ## Matching -/

/-- Whether `p` holds of the text or of what is left after some of its characters. -/
def afterAnyRun (p : List Char → Bool) : List Char → Bool
  | [] => p []
  | c :: cs => p (c :: cs) || afterAnyRun p cs

/-- Whether `p` holds of what is left after some slash. -/
def afterSomeSlash (p : List Char → Bool) : List Char → Bool
  | [] => false
  | c :: cs => (c == '/' && p cs) || afterSomeSlash p cs

/-- Whether the mask matches the whole of a text. -/
def accepts : Mask → List Char → Bool
  | [], cs => cs.isEmpty
  | .anyRun :: tokens, cs => afterAnyRun (accepts tokens) cs
  | [.components], _ => true
  | .components :: tokens, cs => accepts tokens cs || afterSomeSlash (accepts tokens) cs
  | .char _ :: _, [] => false
  | .char c :: tokens, d :: cs => c == d && accepts tokens cs
  | .anyChar :: _, [] => false
  | .anyChar :: tokens, _ :: cs => accepts tokens cs
  | .bracket _ _ :: _, [] => false
  | .bracket negated items :: tokens, d :: cs =>
    (items.any fun item => item.covers d) != negated && accepts tokens cs

/-- Whether the mask matches a text. -/
def fits (mask : Mask) (text : String) : Bool := accepts mask text.toList

end Mask

end ApiCatalog
