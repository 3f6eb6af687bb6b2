import ApiCatalog.Proofs.Json.Scanning
import ApiCatalog.Proofs.Response.Rows

/-!
# Tokens of rows of phrases

Whatever text lays out an orderly row of phrases, the tokens of the text are those of the phrases
one after the other (`Layout.tokens`).
-/

namespace ApiCatalog.Response

open ApiCatalog.Json
open ApiCatalog.Text

/-- The tokens of a phrase. -/
def Phrase.tokens : Phrase → List Token
  | mark p => [.mark p]
  | word w => [.bare w.chars]
  | negative w => [.bare ('-' :: w.chars)]
  | literal l => [.string (glyphsPieces l.glyphs)]
  | listType t => [.bare t.chars, .mark .openArray, .mark .closeArray]
  | key n => [.bare n.chars, .mark .colon]
  | typedField n t => [.bare n.chars, .mark .colon, .mark .colon, .bare t.chars]
  | namedType t => [.mark .colon, .mark .colon, .bare t.chars]
  | typedOpen => [.mark .colon, .mark .colon, .mark .openObject]

/-! ## Reading between tokens -/

section Reading

variable {read : List Token} {b u v : List Char}

theorem readOn_gap (hb : Gap isSpace b) : readOn read (b ++ v) = readOn read v := by
  induction b with
  | nil => rfl
  | cons c b ih =>
    obtain rfl : c = ' ' := eq_of_beq (hb c (by simp))
    exact ih fun d hd => hb d (by simp [hd])

theorem readOn_mark (p : Punctuation) :
    readOn read (markChar p :: v) = readOn (.mark p :: read) v := by
  cases p <;> rfl

theorem readOn_literal (l : Literal) :
    readOn read (l.text ++ v) = readOn (.string (glyphsPieces l.glyphs) :: read) v :=
  readOn_quoteGlyphs l.glyphs

theorem not_endsBare_of_isWordChar {c : Char} (h : isWordChar c = true) :
    Scanner.endsBare c = false := by
  have hne : ∀ d, isWordChar d = false → c ≠ d := fun d hd => ne_of_isWordChar h hd
  have hsep : isSeparator c = false := by
    simp [isSeparator, hne ' ' (by decide), hne '\t' (by decide), hne '\n' (by decide),
      hne '\r' (by decide)]
  have hmark : Punctuation.ofChar? c = none := by
    simp [Punctuation.ofChar?, hne '[' (by decide), hne ']' (by decide), hne '\x7b' (by decide),
      hne '\x7d' (by decide), hne ',' (by decide), hne ':' (by decide)]
  simp [Scanner.endsBare, hsep, hmark, hne '"' (by decide)]

theorem readOn_word (w : Word) (hv : EndsBare v) :
    readOn read (w.chars ++ v) = readOn (.bare w.chars :: read) v :=
  readOn_bare w.isWord.1 (fun c hc => not_endsBare_of_isWordChar (w.isWord.2 c hc)) hv

theorem Gap.endsBare (hb : Gap isSpace b) (hv : EndsBare v) : EndsBare (b ++ v) := by
  cases b with
  | nil => exact hv
  | cons c b =>
    intro d hd
    obtain rfl : c = d := by simpa using hd
    rw [eq_of_beq (hb c (by simp))]
    rfl

theorem EndsWord.endsBare (h : EndsWord v) : EndsBare v := by
  obtain ⟨b, v, rfl, hb, hv⟩ := h
  refine hb.endsBare ?_
  intro c hc
  rcases hv c hc with rfl | rfl | rfl <;> rfl

theorem readOn_colons : readOn read ("::".toList ++ v) =
    readOn (.mark .colon :: .mark .colon :: read) v := rfl

theorem endsBare_colons : EndsBare ("::".toList ++ v) := by
  intro c hc
  obtain rfl : ':' = c := by simpa using hc
  rfl

end Reading

/-! ## Rows -/

section Rows

variable {l : Phrase} {ls : List Phrase} {read : List Token} {u text : List Char}

theorem Phrase.Writes.readOn (hu : l.Writes isSpace u) (hend : l.endsInWord = true → EndsWord text) :
    readOn read (u ++ text) = readOn (l.tokens.reverse ++ read) text := by
  cases hu with
  | mark p => exact readOn_mark p
  | word w => exact readOn_word w (hend rfl).endsBare
  | negative w =>
    refine readOn_bare (List.cons_ne_nil _ _) ?_ (hend rfl).endsBare
    intro c hc
    rcases List.mem_cons.1 hc with rfl | hc
    · rfl
    · exact not_endsBare_of_isWordChar (w.isWord.2 c hc)
  | literal l => exact readOn_literal l
  | listType t =>
    have hbracket : EndsBare ("[]".toList ++ text) := fun c hc => by
      obtain rfl : '[' = c := by simpa using hc
      rfl
    rw [List.append_assoc, readOn_word t hbracket]
    rfl
  | key n hb =>
    have hcolon : EndsBare ([':'] ++ text) := fun c hc => by
      obtain rfl : ':' = c := by simpa using hc
      rfl
    rw [List.append_assoc, List.append_assoc, readOn_word n (hb.endsBare hcolon), readOn_gap hb]
    rfl
  | typedField n t hb hb' =>
    simp only [List.append_assoc]
    rw [readOn_word n (hb.endsBare endsBare_colons), readOn_gap hb, readOn_colons, readOn_gap hb',
      readOn_word t (hend rfl).endsBare]
    rfl
  | namedType t hb =>
    simp only [List.append_assoc]
    rw [readOn_colons, readOn_gap hb, readOn_word t (hend rfl).endsBare]
    rfl
  | typedOpen hb =>
    simp only [List.append_assoc]
    rw [readOn_colons, readOn_gap hb]
    rfl

theorem Layout.readOn (h : Layout isSpace ls text) (ho : Orderly ls) (read : List Token) :
    Json.readOn read text = some (read.reverse ++ ls.flatMap Phrase.tokens) := by
  induction h generalizing read with
  | @nil b hb =>
    have hnil : Json.readOn read (b ++ []) = some read.reverse := readOn_gap hb
    simpa using hnil
  | @cons l ls b u text hb hu _ rest ih =>
    rw [readOn_gap hb, hu.readOn fun hl => rest.endsWord (ho.1 hl), ih ho.2]
    simp

/-- The tokens of a row are those of its phrases. -/
theorem Layout.tokens (h : Layout isSpace ls text) (ho : Orderly ls) :
    tokens? text = some (ls.flatMap Phrase.tokens) := by
  show Json.readOn [] text = _
  rw [h.readOn ho []]
  rfl

end Rows

end ApiCatalog.Response
