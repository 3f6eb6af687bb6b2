import ApiCatalog.Proofs.Json.Strings

/-!
# Scanning token by token

The scanner goes through a text one character at a time. `readOn` lets it go one token at a time
instead: a string is a token wherever it ends, and a bare word is one if what follows ends it.
-/

namespace ApiCatalog.Json

/-- The tokens of a text before which some were read, most recent first. -/
def readOn (read : List Token) (text : List Char) : Option (List Token) :=
  (Scanner.scan ⟨.between, read⟩ text).bind Scanner.finish?

variable {read : List Token} {u v : List Char}

theorem readOn_quoteGlyphs (gs : List Glyph) :
    readOn read (quoteGlyphs gs ++ v) = readOn (.string (glyphsPieces gs) :: read) v := by
  rw [readOn, Scanner.scan_append, scan_quoteGlyphs]
  rfl

/-- A text before which a bare word ends. -/
def EndsBare (v : List Char) : Prop := ∀ c ∈ v.head?, Scanner.endsBare c = true

/-- That a given word holds nothing that ends it is checked by evaluation. -/
theorem not_endsBare_of_all (h : u.all (fun c => !Scanner.endsBare c) = true) :
    ∀ c ∈ u, Scanner.endsBare c = false := by
  simpa using h

theorem enter_of_not_endsBare {c : Char} (h : Scanner.endsBare c = false) :
    Scanner.enter read c = ⟨.bare [c], read⟩ := by
  simp only [Scanner.endsBare, Bool.or_eq_false_iff, decide_eq_false_iff_not] at h
  obtain ⟨⟨hsep, hquote⟩, hmark⟩ := h
  have hnone : Punctuation.ofChar? c = none := by simpa using hmark
  simp [Scanner.enter, hsep, hquote, hnone]

theorem scan_bare {before : List Char} (hu : ∀ c ∈ u, Scanner.endsBare c = false) :
    Scanner.scan ⟨.bare before, read⟩ u = some ⟨.bare (u.reverse ++ before), read⟩ := by
  induction u generalizing before with
  | nil => rfl
  | cons c u ih =>
    have hstep : Scanner.step ⟨.bare before, read⟩ c = some ⟨.bare (c :: before), read⟩ := by
      simp [Scanner.step, hu c (by simp)]
    rw [Scanner.scan_cons, hstep, Option.bind_some, ih fun d hd => hu d (by simp [hd])]
    simp

/-- A run of other characters is one bare word. -/
theorem readOn_bare (hne : u ≠ []) (hu : ∀ c ∈ u, Scanner.endsBare c = false) (hv : EndsBare v) :
    readOn read (u ++ v) = readOn (.bare u :: read) v := by
  obtain ⟨c, u, rfl⟩ := List.exists_cons_of_ne_nil hne
  have hstart : Scanner.scan ⟨.between, read⟩ (c :: u) =
      some ⟨.bare (u.reverse ++ [c]), read⟩ := by
    rw [Scanner.scan_cons, Scanner.step, enter_of_not_endsBare (hu c (by simp)), Option.bind_some,
      scan_bare fun d hd => hu d (by simp [hd])]
  rw [readOn, readOn, Scanner.scan_append, hstart, Option.bind_some]
  cases v with
  | nil => simp [Scanner.finish?]
  | cons d v =>
    have hd : Scanner.endsBare d = true := hv d rfl
    simp [Scanner.step, hd]

end ApiCatalog.Json
