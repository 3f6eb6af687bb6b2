import ApiCatalog.Json.Document
import ApiCatalog.Proofs.Quoting.Literals

/-!
# Strings of JSON texts

A `Glyph` is a character of a string together with one of the ways to write it: as itself, by a
named escape, or by one or two 16-bit units. Whatever row of glyphs stands between two quotes, the
scanner reads one string token from it, the token says the characters of the glyphs, and the
whole is a string literal. Among the glyphs are those that `quote` writes.
-/

namespace ApiCatalog.Json

open Scanner (escapeOf? hexValue?)

/-! ## Glyphs -/

/-- The number that four hexadecimal digits stand for. -/
def hexUnit? : List Char → Option Nat
  | [a, b, c, d] => do
    let w ← hexValue? a
    let x ← hexValue? b
    let y ← hexValue? c
    let z ← hexValue? d
    pure (16 * (16 * (16 * w + x) + y) + z)
  | _ => none

/-- A 16-bit unit as it is written. -/
structure HexUnit where
  digits : List Char
  value : Nat
  reads : hexUnit? digits = some value

/-- A character of a string and how it is written. -/
inductive Glyph where
  /-- The character itself. -/
  | plain (c : Char) (quote : c ≠ '"') (backslash : c ≠ '\\') (control : 32 ≤ c.toNat)
  /-- A backslash and a letter. -/
  | named (letter c : Char) (means : escapeOf? letter = some c)
  /-- One unit, which is no half of a pair. -/
  | unit (u : HexUnit) (single : u.value < 0xD800 ∨ 0xE000 ≤ u.value)
  /-- Two units that make a pair. -/
  | pair (high low : HexUnit) (isHigh : 0xD800 ≤ high.value ∧ high.value < 0xDC00)
      (isLow : 0xDC00 ≤ low.value ∧ low.value < 0xE000)

namespace Glyph

/-- How the character is written. -/
def text : Glyph → List Char
  | plain c _ _ _ => [c]
  | named letter _ _ => ['\\', letter]
  | unit u _ => '\\' :: 'u' :: u.digits
  | pair high low _ _ => '\\' :: 'u' :: high.digits ++ '\\' :: 'u' :: low.digits

/-- The character. -/
def char : Glyph → Char
  | plain c _ _ _ => c
  | named _ c _ => c
  | unit u _ => Char.ofNat u.value
  | pair high low _ _ =>
    Char.ofNat (0x10000 + (high.value - 0xD800) * 0x400 + (low.value - 0xDC00))

/-- What the scanner reads. -/
def pieces : Glyph → List StringPiece
  | plain c _ _ _ => [.char c]
  | named _ c _ => [.char c]
  | unit u _ => [.unit u.value]
  | pair high low _ _ => [.unit high.value, .unit low.value]

end Glyph

/-- The text between the quotes of a row of glyphs. -/
def glyphsText (gs : List Glyph) : List Char := gs.flatMap Glyph.text

/-- The row of glyphs in quotes. -/
def quoteGlyphs (gs : List Glyph) : List Char := '"' :: (glyphsText gs ++ ['"'])

/-- The characters of a row of glyphs. -/
def glyphsChars (gs : List Glyph) : List Char := gs.map Glyph.char

/-- What the scanner reads from a row of glyphs. -/
def glyphsPieces (gs : List Glyph) : List StringPiece := gs.flatMap Glyph.pieces

/-! ## Scanning -/

theorem HexUnit.exists_digits (u : HexUnit) :
    ∃ a b c d w x y z, u.digits = [a, b, c, d] ∧ hexValue? a = some w ∧ hexValue? b = some x ∧
      hexValue? c = some y ∧ hexValue? d = some z ∧
      u.value = 16 * (16 * (16 * w + x) + y) + z := by
  obtain ⟨digits, value, reads⟩ := u
  match digits, reads with
  | [a, b, c, d], reads =>
    simp only [hexUnit?, Option.bind_eq_bind, Option.bind_eq_some_iff, Option.pure_def,
      Option.some.injEq] at reads
    obtain ⟨w, hw, x, hx, y, hy, z, hz, rfl⟩ := reads
    exact ⟨a, b, c, d, w, x, y, z, rfl, hw, hx, hy, hz, rfl⟩

variable {read : List StringPiece} {tokens : List Token}

theorem scan_hexUnit (u : HexUnit) :
    Scanner.scan ⟨.escaped read, tokens⟩ ('u' :: u.digits) =
      some ⟨.string (.unit u.value :: read), tokens⟩ := by
  obtain ⟨a, b, c, d, w, x, y, z, hdigits, hw, hx, hy, hz, hvalue⟩ := u.exists_digits
  simp [hdigits, hvalue, Scanner.step, hw, hx, hy, hz]

theorem scan_escaped_u (u : HexUnit) :
    Scanner.scan ⟨.string read, tokens⟩ ('\\' :: 'u' :: u.digits) =
      some ⟨.string (.unit u.value :: read), tokens⟩ := by
  rw [Scanner.scan_cons, ← scan_hexUnit u]
  rfl

/-- No named escape is written like a unit. -/
theorem ne_u_of_escapeOf? {letter c : Char} (h : escapeOf? letter = some c) : letter ≠ 'u' := by
  intro heq
  subst heq
  simp [escapeOf?] at h

theorem scan_glyph (g : Glyph) :
    Scanner.scan ⟨.string read, tokens⟩ g.text =
      some ⟨.string (g.pieces.reverse ++ read), tokens⟩ := by
  cases g with
  | plain c hquote hbackslash hcontrol =>
    simp [Glyph.text, Glyph.pieces, Scanner.step, hquote, hbackslash, Nat.not_lt.2 hcontrol]
  | named letter c means =>
    simp [Glyph.text, Glyph.pieces, Scanner.step, means, ne_u_of_escapeOf? means]
  | unit u single => exact scan_escaped_u u
  | pair high low isHigh isLow =>
    rw [Glyph.text, Scanner.scan_append, scan_escaped_u, Option.bind_some, scan_escaped_u]
    rfl

theorem scan_glyphs (gs : List Glyph) :
    Scanner.scan ⟨.string read, tokens⟩ (glyphsText gs) =
      some ⟨.string ((glyphsPieces gs).reverse ++ read), tokens⟩ := by
  induction gs generalizing read with
  | nil => rfl
  | cons g gs ih =>
    rw [glyphsText, List.flatMap_cons, Scanner.scan_append, scan_glyph, Option.bind_some,
      ← glyphsText, ih]
    simp [glyphsPieces]

/-- Glyphs in quotes are one token. -/
theorem scan_quoteGlyphs (gs : List Glyph) :
    Scanner.scan ⟨.between, tokens⟩ (quoteGlyphs gs) =
      some ⟨.between, .string (glyphsPieces gs) :: tokens⟩ := by
  have hopen : Scanner.step ⟨.between, tokens⟩ '"' = some ⟨.string [], tokens⟩ := rfl
  rw [quoteGlyphs, Scanner.scan_cons, hopen, Option.bind_some, Scanner.scan_append, scan_glyphs,
    Option.bind_some]
  simp [Scanner.step]

/-- A glyph adds its character to those that follow. -/
theorem characters?_glyph (g : Glyph) (rest : List StringPiece) :
    Document.characters? (g.pieces ++ rest) =
      (Document.characters? rest).map (g.char :: ·) := by
  cases g with
  | plain c _ _ _ => rfl
  | named letter c _ => rfl
  | unit u single =>
    rw [Glyph.pieces, List.singleton_append, Document.characters?.eq_def]
    exact if_pos single
  | pair high low isHigh isLow =>
    have hsingle : ¬ (high.value < 0xD800 ∨ 0xE000 ≤ high.value) := by omega
    have hlow : ¬ 0xDC00 ≤ high.value := by omega
    rw [Glyph.pieces, List.cons_append, List.singleton_append, Document.characters?,
      if_neg hsingle, if_neg hlow]
    simp [isLow, Glyph.char]

theorem characters?_glyphs (gs : List Glyph) :
    Document.characters? (glyphsPieces gs) = some (glyphsChars gs) := by
  induction gs with
  | nil => rfl
  | cons g gs ih =>
    rw [glyphsPieces, List.flatMap_cons, characters?_glyph, ← glyphsPieces, ih]
    rfl

theorem text?_glyphs (gs : List Glyph) :
    Document.text? (glyphsPieces gs) = some (String.ofList (glyphsChars gs)) := by
  rw [Document.text?, characters?_glyphs]
  rfl

/-- Glyphs in quotes say their string. -/
theorem read?_quoteGlyphs (gs : List Glyph) :
    Value.read? (quoteGlyphs gs) = some (.string (String.ofList (glyphsChars gs))) := by
  have htokens : tokens? (quoteGlyphs gs) = some [.string (glyphsPieces gs)] := by
    rw [tokens?, Scanner.start, scan_quoteGlyphs]
    rfl
  have hread : Document.read? (quoteGlyphs gs) = some (.string (glyphsPieces gs)) := by
    rw [Document.read?, htokens]
    rfl
  rw [Value.read?, hread, Option.bind_some, Document.value?, if_pos (by simp [Document.depth]),
    Document.meaning?, text?_glyphs]
  rfl

/-! ## Literals -/

open ApiCatalog.Quoting

/-- No digit of a unit is a quote or a backslash. -/
theorem isPlain_of_hexValue? {c : Char} {n : Nat} (h : hexValue? c = some n) : IsPlain c := by
  constructor <;> rintro rfl <;> simp [hexValue?] at h

theorem HexUnit.isPlain (u : HexUnit) : ∀ c ∈ u.digits, IsPlain c := by
  obtain ⟨a, b, c, d, w, x, y, z, hdigits, hw, hx, hy, hz, -⟩ := u.exists_digits
  rw [hdigits]
  simp only [List.forall_mem_cons]
  exact ⟨isPlain_of_hexValue? hw, isPlain_of_hexValue? hx, isPlain_of_hexValue? hy,
    isPlain_of_hexValue? hz, by simp⟩

theorem isBody_escaped_u (u : HexUnit) : IsBody ('\\' :: 'u' :: u.digits) := by
  have hescape : IsBody ['\\', 'u'] := by unfold IsBody; decide
  exact hescape.append (isBody_of_plain u.isPlain)

theorem Glyph.isBody (g : Glyph) : IsBody g.text := by
  cases g with
  | plain c hquote hbackslash _ => exact isBody_of_plain (by simp [Glyph.text, IsPlain, *])
  | named letter c _ => simp [IsBody, Glyph.text, marksAfter]
  | unit u _ => exact isBody_escaped_u u
  | pair high low _ _ => exact (isBody_escaped_u high).append (isBody_escaped_u low)

theorem isBody_glyphsText (gs : List Glyph) : IsBody (glyphsText gs) := by
  induction gs with
  | nil => exact ⟨by simp [glyphsText, marksAfter], rfl⟩
  | cons g gs ih => exact g.isBody.append ih

theorem isLiteral_quoteGlyphs (gs : List Glyph) : IsLiteral (quoteGlyphs gs) :=
  ⟨glyphsText gs, rfl, isBody_glyphsText gs⟩

/-! ## The glyphs of written strings -/

/-- The characters below the space are written as units unless they have a name. -/
theorem hexUnit?_control {n : Nat} (h : n < 32) :
    hexUnit? ['0', '0', hexDigit (n / 16), hexDigit (n % 16)] = some n := by
  have hall : ∀ n < 32, hexUnit? ['0', '0', hexDigit (n / 16), hexDigit (n % 16)] = some n := by
    decide
  exact hall n h

/-- What the scanner reads from a character as it is written: an escape of more than two characters
is a unit. -/
def writtenPiece (c : Char) : StringPiece :=
  if (escape c).length ≤ 2 then .char c else .unit c.toNat

/-- `escape` writes a glyph of the character. -/
theorem exists_glyph (c : Char) :
    ∃ g : Glyph, g.text = escape c ∧ g.char = c ∧ g.pieces = [writtenPiece c] := by
  have hofNat : ∀ {n}, c.toNat = n → c = Char.ofNat n := fun h => by rw [← h, Char.ofNat_toNat]
  by_cases hq : c = '"'
  · subst hq
    exact ⟨.named '"' '"' rfl, rfl, rfl, rfl⟩
  by_cases hb : c = '\\'
  · subst hb
    exact ⟨.named '\\' '\\' rfl, rfl, rfl, rfl⟩
  by_cases h10 : c = '\n'
  · subst h10
    exact ⟨.named 'n' '\n' rfl, rfl, rfl, rfl⟩
  by_cases h13 : c = '\r'
  · subst h13
    exact ⟨.named 'r' '\r' rfl, rfl, rfl, rfl⟩
  by_cases h9 : c = '\t'
  · subst h9
    exact ⟨.named 't' '\t' rfl, rfl, rfl, rfl⟩
  by_cases h8 : c.toNat = 8
  · obtain rfl := hofNat h8
    exact ⟨.named 'b' (Char.ofNat 8) rfl, rfl, rfl, rfl⟩
  by_cases h12 : c.toNat = 12
  · obtain rfl := hofNat h12
    exact ⟨.named 'f' (Char.ofNat 12) rfl, rfl, rfl, rfl⟩
  by_cases h32 : c.toNat < 32
  · have hescape : escape c =
        ['\\', 'u', '0', '0', hexDigit (c.toNat / 16), hexDigit (c.toNat % 16)] := by
      simp only [escape, hq, hb, h10, h13, h9, h8, h12, h32, if_false, if_true]
    exact ⟨.unit ⟨_, c.toNat, hexUnit?_control h32⟩ (by simp; omega), hescape.symm,
      (hofNat rfl).symm, by rw [writtenPiece, hescape]; rfl⟩
  · have hescape : escape c = [c] := escape_of_plain hq hb (by omega)
    exact ⟨.plain c hq hb (by omega), hescape.symm, rfl, by rw [writtenPiece, hescape]; rfl⟩

/-- `escape` writes glyphs of the characters. -/
theorem exists_glyphs (cs : List Char) :
    ∃ gs, glyphsText gs = cs.flatMap escape ∧ glyphsChars gs = cs ∧
      glyphsPieces gs = cs.map writtenPiece := by
  induction cs with
  | nil => exact ⟨[], rfl, rfl, rfl⟩
  | cons c cs ih =>
    obtain ⟨g, htext, hchar, hpieces⟩ := exists_glyph c
    obtain ⟨gs, htexts, hchars, hpiecess⟩ := ih
    refine ⟨g :: gs, ?_, ?_, ?_⟩
    · rw [glyphsText, List.flatMap_cons, ← glyphsText, htext, htexts, List.flatMap_cons]
    · rw [glyphsChars, List.map_cons, ← glyphsChars, hchar, hchars]
    · rw [glyphsPieces, List.flatMap_cons, ← glyphsPieces, hpieces, hpiecess, List.map_cons,
        List.singleton_append]

/-- A string that is written is read back. -/
theorem read?_quote (cs : List Char) :
    Value.read? (quote cs) = some (.string (String.ofList cs)) := by
  obtain ⟨gs, htext, hchars, -⟩ := exists_glyphs cs
  rw [quote, ← htext, ← quoteGlyphs, read?_quoteGlyphs, hchars]

end ApiCatalog.Json
