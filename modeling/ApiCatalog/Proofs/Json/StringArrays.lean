import ApiCatalog.Proofs.Json.Assembly
import ApiCatalog.Proofs.Json.Spelling
import Mathlib.Data.List.Forall2

/-!
# Texts of arrays of strings

The text of an array of strings is a row of string literals between brackets, with a comma between
two of them and separators around each (`IsArrayText`). Reading gives a list of strings from exactly
such texts (`read?_eq_array_iff`).

From left to right a text is scanned to tokens and these are assembled, which is all that the one
direction takes. In the other one the assembly is followed backwards: a row inside an open array
determines its tokens (`run_row_iff`), and the tokens are spelled in the text.
-/

namespace ApiCatalog.Json

/-! ## Rows of strings -/

/-- A string of a row: how it is written, and the separators around it. -/
structure RowItem where
  before : List Char
  glyphs : List Glyph
  after : List Char
  before_separators : ∀ c ∈ before, isSeparator c = true
  after_separators : ∀ c ∈ after, isSeparator c = true

namespace RowItem

/-- The literal of the item with the separators around it. -/
def text (item : RowItem) : List Char := item.before ++ (quoteGlyphs item.glyphs ++ item.after)

/-- The string that the item says. -/
def string (item : RowItem) : String := String.ofList (glyphsChars item.glyphs)

/-- What the scanner reads from the literal. -/
def pieces (item : RowItem) : List StringPiece := glyphsPieces item.glyphs

end RowItem

/-- Items with commas between them. -/
def rowText (items : List RowItem) : List Char := [','].intercalate (items.map RowItem.text)

/-- A text is the JSON text of an array of strings. -/
inductive IsArrayText : List String → List Char → Prop where
  | row (before after : List Char) (items : List RowItem) (h : items ≠ [])
      (hbefore : ∀ c ∈ before, isSeparator c = true) (hafter : ∀ c ∈ after, isSeparator c = true) :
      IsArrayText (items.map RowItem.string) (before ++ '[' :: (rowText items ++ ']' :: after))
  | empty (before inside after : List Char) (hbefore : ∀ c ∈ before, isSeparator c = true)
      (hinside : ∀ c ∈ inside, isSeparator c = true)
      (hafter : ∀ c ∈ after, isSeparator c = true) :
      IsArrayText [] (before ++ '[' :: (inside ++ ']' :: after))

/-- The tokens of a row of strings. -/
def rowTokens : List (List StringPiece) → List Token
  | [] => []
  | [p] => [.string p]
  | p :: q :: ps => .string p :: .mark .comma :: rowTokens (q :: ps)

/-- The tokens of an array of strings. -/
def arrayTokens (ps : List (List StringPiece)) : List Token :=
  .mark .openArray :: (rowTokens ps ++ [.mark .closeArray])

/-- The document that is an array of strings. -/
def stringArray (ps : List (List StringPiece)) : Document := .array (ps.map .string)

theorem rowTokens_append (ps : List (List StringPiece)) (p q : List StringPiece) :
    rowTokens (ps ++ [p] ++ [q]) = rowTokens (ps ++ [p]) ++ [.mark .comma, .string q] := by
  induction ps with
  | nil => rfl
  | cons p' ps ih =>
    cases ps with
    | nil => rfl
    | cons p'' ps => simpa [rowTokens] using ih

theorem rowText_cons (item next : RowItem) (items : List RowItem) :
    rowText (item :: next :: items) = item.text ++ ',' :: rowText (next :: items) := by
  simp only [rowText, List.map_cons, List.intercalate_cons_cons]
  simp

/-! ## From the text to the tokens -/

variable {tokens : List Token} {names : List String} {cs : List Char}

theorem scan_separators {gap : List Char} (h : ∀ c ∈ gap, isSeparator c = true) :
    Scanner.scan ⟨.between, tokens⟩ gap = some ⟨.between, tokens⟩ := by
  induction gap with
  | nil => rfl
  | cons c gap ih =>
    have hstep : Scanner.step ⟨.between, tokens⟩ c = some ⟨.between, tokens⟩ := by
      simp [Scanner.step, Scanner.enter, h c List.mem_cons_self]
    rw [Scanner.scan_cons, hstep, Option.bind_some]
    exact ih fun d hd => h d (List.mem_cons_of_mem _ hd)

theorem scan_item (item : RowItem) :
    Scanner.scan ⟨.between, tokens⟩ item.text =
      some ⟨.between, .string item.pieces :: tokens⟩ := by
  rw [RowItem.text, Scanner.scan_append, scan_separators item.before_separators, Option.bind_some,
    Scanner.scan_append, scan_quoteGlyphs, Option.bind_some,
    scan_separators item.after_separators]
  rfl

theorem scan_row (item : RowItem) (items : List RowItem) :
    Scanner.scan ⟨.between, tokens⟩ (rowText (item :: items)) =
      some ⟨.between, (rowTokens ((item :: items).map RowItem.pieces)).reverse ++ tokens⟩ := by
  induction items generalizing item tokens with
  | nil =>
    rw [rowText, List.map_singleton, List.intercalate_singleton]
    exact scan_item item
  | cons next items ih =>
    have hcomma : ∀ ts, Scanner.step ⟨.between, ts⟩ ',' = some ⟨.between, .mark .comma :: ts⟩ :=
      fun _ => rfl
    rw [rowText_cons, Scanner.scan_append, scan_item, Option.bind_some, Scanner.scan_cons, hcomma,
      Option.bind_some, ih]
    simp [rowTokens]

/-- The tokens of a text between brackets. -/
theorem tokens?_array {before inside after : List Char} {ps : List (List StringPiece)}
    (hbefore : ∀ c ∈ before, isSeparator c = true) (hafter : ∀ c ∈ after, isSeparator c = true)
    (hinside : ∀ tokens, Scanner.scan ⟨.between, tokens⟩ inside =
      some ⟨.between, (rowTokens ps).reverse ++ tokens⟩) :
    tokens? (before ++ '[' :: (inside ++ ']' :: after)) = some (arrayTokens ps) := by
  have hopen : ∀ ts, Scanner.step ⟨.between, ts⟩ '[' = some ⟨.between, .mark .openArray :: ts⟩ :=
    fun _ => rfl
  have hclose : ∀ ts, Scanner.step ⟨.between, ts⟩ ']' = some ⟨.between, .mark .closeArray :: ts⟩ :=
    fun _ => rfl
  rw [tokens?, Scanner.start, Scanner.scan_append, scan_separators hbefore, Option.bind_some,
    Scanner.scan_cons, hopen, Option.bind_some, Scanner.scan_append, hinside, Option.bind_some,
    Scanner.scan_cons, hclose, Option.bind_some, scan_separators hafter, Option.bind_some]
  simp [Scanner.finish?, arrayTokens]

/-! ## Assembly -/

namespace Document.Assembly

variable {ts : List Token} {p : List StringPiece} {ps : List (List StringPiece)}

/-- The tokens of an open array of strings, of which the last was just read. -/
theorem eq_row_of_run
    (h : (value []).run ts = some (done [.array (ps.map .string)] (.string p))) :
    ts = .mark .openArray :: rowTokens (ps.reverse ++ [p]) := by
  induction ps generalizing ts p with
  | nil =>
    obtain ⟨-, heq⟩ | ⟨us, t, a, rfl, hrun, hstep⟩ := run_eq_some h
    · cases heq
    obtain ⟨rfl, rfl | ⟨rfl, -⟩⟩ := done_string_of_steps (steps_of_step hstep)
    · -- after a comma there would be an item before the string
      obtain ⟨-, heq⟩ | ⟨vs, t, a, -, -, hvalue⟩ := run_eq_some hrun
      · cases heq
      · obtain ⟨-, result, before, heq, -⟩ := value_of_steps (steps_of_step hvalue)
        cases heq
    · rw [eq_open_of_run_firstItem hrun]
      rfl
  | cons q ps ih =>
    obtain ⟨-, heq⟩ | ⟨us, t, a, rfl, hrun, hstep⟩ := run_eq_some h
    · cases heq
    obtain ⟨rfl, rfl | ⟨-, heq⟩⟩ := done_string_of_steps (steps_of_step hstep)
    · obtain ⟨-, heq⟩ | ⟨vs, t, a, rfl, hrun, hvalue⟩ := run_eq_some hrun
      · cases heq
      · obtain ⟨rfl, result, before, heq, rfl⟩ := value_of_steps (steps_of_step hvalue)
        cases heq
        rw [ih hrun, List.reverse_cons, rowTokens_append]
        simp
    · cases heq

theorem run_row (ps : List (List StringPiece)) (p : List StringPiece) :
    (value []).run (.mark .openArray :: rowTokens (ps.reverse ++ [p])) =
      some (done [.array (ps.map .string)] (.string p)) := by
  induction ps generalizing p with
  | nil => rfl
  | cons q ps ih =>
    rw [List.reverse_cons, rowTokens_append, ← List.cons_append, run_append, ih]
    rfl

end Document.Assembly

namespace Document

open Assembly

variable {ts : List Token} {ps : List (List StringPiece)}

/-- A row of tokens is an array of strings exactly if it is a row of strings in brackets. -/
theorem ofTokens?_eq_stringArray_iff : ofTokens? ts = some (stringArray ps) ↔ ts = arrayTokens ps := by
  constructor
  · intro h
    obtain ⟨b, hrun, hfinish⟩ := Option.bind_eq_some_iff.1 h
    obtain rfl : b = .done [] (stringArray ps) := by
      unfold finish? at hfinish
      split at hfinish <;> cases hfinish
      rfl
    obtain ⟨-, heq⟩ | ⟨us, t, a, rfl, hrun, hstep⟩ := run_eq_some hrun
    · cases heq
    obtain ⟨rfl, ⟨rfl, hps⟩ | ⟨result, before, rfl, hps⟩⟩ :=
      done_array_of_steps (steps_of_step hstep)
    · rw [eq_open_of_run_firstItem hrun, List.map_eq_nil_iff.1 hps]
      rfl
    · have hback : ps.reverse.map .string = result :: before := by
        rw [List.map_reverse, hps, List.reverse_reverse]
      obtain ⟨p, ps', hreverse, rfl, rfl⟩ := List.map_eq_cons_iff.1 hback
      rw [eq_row_of_run hrun, ← List.reverse_cons, ← hreverse, List.reverse_reverse]
      rfl
  · rintro rfl
    rcases List.eq_nil_or_concat ps with rfl | ⟨ps, p, rfl⟩
    · rfl
    · have hrow := run_row ps.reverse p
      rw [List.reverse_reverse] at hrow
      rw [List.concat_eq_append, arrayTokens, ← List.cons_append, ofTokens?, run_append, hrow]
      simp [step, proceed, finish?, stringArray]

end Document

/-! ## From the tokens to the text -/

open Document (text? characters?)

/-- Pieces that make up a string are pieces of glyphs: the units among them pair up. -/
theorem exists_glyphs_of_characters? (ws : List WrittenPiece) {chars : List Char}
    (h : characters? (ws.map WrittenPiece.piece) = some chars) :
    ∃ gs, glyphsText gs = piecesText ws ∧ glyphsChars gs = chars := by
  match ws with
  | [] =>
    obtain rfl := Option.some.inj h
    exact ⟨[], rfl, rfl⟩
  | .plain c hquote hbackslash hcontrol :: ws =>
    obtain ⟨chars, hchars, rfl⟩ := Option.map_eq_some_iff.1 h
    obtain ⟨gs, htext, rfl⟩ := exists_glyphs_of_characters? ws hchars
    exact ⟨.plain c hquote hbackslash hcontrol :: gs, congrArg ([c] ++ ·) htext, rfl⟩
  | .named letter c means :: ws =>
    obtain ⟨chars, hchars, rfl⟩ := Option.map_eq_some_iff.1 h
    obtain ⟨gs, htext, rfl⟩ := exists_glyphs_of_characters? ws hchars
    exact ⟨.named letter c means :: gs, congrArg (['\\', letter] ++ ·) htext, rfl⟩
  | .unit u :: ws =>
    rw [List.map_cons, WrittenPiece.piece, Document.characters?.eq_def] at h
    by_cases hsingle : u.value < 0xD800 ∨ 0xE000 ≤ u.value
    · simp only [if_pos hsingle] at h
      obtain ⟨chars, hchars, rfl⟩ := Option.map_eq_some_iff.1 h
      obtain ⟨gs, htext, rfl⟩ := exists_glyphs_of_characters? ws hchars
      exact ⟨.unit u hsingle :: gs, congrArg (('\\' :: 'u' :: u.digits) ++ ·) htext, rfl⟩
    · by_cases hhigh : 0xDC00 ≤ u.value
      · simp only [if_neg hsingle, if_pos hhigh] at h
        cases h
      · simp only [if_neg hsingle, if_neg hhigh] at h
        -- the first half of a pair: only a unit can follow it
        match ws with
        | [] => cases h
        | .plain .. :: ws => cases h
        | .named .. :: ws => cases h
        | .unit v :: ws =>
          simp only [List.map_cons, WrittenPiece.piece] at h
          split at h
          · next hlow =>
            obtain ⟨chars, hchars, rfl⟩ := Option.map_eq_some_iff.1 h
            obtain ⟨gs, htext, rfl⟩ := exists_glyphs_of_characters? ws hchars
            refine ⟨.pair u v (by omega) hlow :: gs, ?_, rfl⟩
            rw [glyphsText, List.flatMap_cons, ← glyphsText, htext]
            simp [Glyph.text, piecesText, WrittenPiece.text]
          · cases h

/-- A string token that is a string is spelled by a row of glyphs. -/
theorem exists_glyphs_of_isText {p : List StringPiece} {u : List Char} {name : String}
    (htext : (Token.string p).IsText u) (hname : text? p = some name) :
    ∃ gs, u = quoteGlyphs gs ∧ String.ofList (glyphsChars gs) = name := by
  cases htext with
  | string ws =>
    obtain ⟨chars, hchars, rfl⟩ := Option.map_eq_some_iff.1 hname
    obtain ⟨gs, htext, rfl⟩ := exists_glyphs_of_characters? ws hchars
    exact ⟨gs, by rw [quoteGlyphs, htext], rfl⟩

/-- A row of string tokens up to a bracket is spelled by a row of items. -/
theorem exists_items_of_spells {p : List StringPiece} {ps : List (List StringPiece)}
    {name : String} (h : Spells (rowTokens (p :: ps) ++ [.mark .closeArray]) cs)
    (hname : text? p = some name)
    (hnames : List.Forall₂ (fun p name => text? p = some name) ps names) :
    ∃ items after, items ≠ [] ∧ cs = rowText items ++ ']' :: after ∧
      items.map RowItem.string = name :: names ∧ ∀ c ∈ after, isSeparator c = true := by
  induction ps generalizing p name names cs with
  | nil =>
    cases hnames
    obtain ⟨gap, u, _, rfl, hgap, hu, gap', _, after, rfl, hgap', ⟨⟩, hafter⟩ := h
    obtain ⟨gs, rfl, rfl⟩ := exists_glyphs_of_isText hu hname
    exact ⟨[⟨gap, gs, gap', hgap, hgap'⟩], after, by simp,
      by simp [rowText, RowItem.text, Punctuation.char], rfl, hafter⟩
  | cons q ps ih =>
    obtain ⟨gap, u, _, rfl, hgap, hu, gap', _, rest, rfl, hgap', ⟨⟩, hrest⟩ := h
    obtain ⟨gs, rfl, rfl⟩ := exists_glyphs_of_isText hu hname
    match hnames with
    | .cons hq hnames =>
      obtain ⟨items, after, hne, rfl, hitems, hafter⟩ := ih hrest hq hnames
      obtain ⟨next, items, rfl⟩ := List.exists_cons_of_ne_nil hne
      refine ⟨⟨gap, gs, gap', hgap, hgap'⟩ :: next :: items, after, by simp, ?_, ?_, hafter⟩
      · rw [rowText_cons]
        simp [RowItem.text, Punctuation.char]
      · rw [List.map_cons, hitems]
        rfl

theorem bare_notMem_arrayTokens (ps : List (List StringPiece)) (word : List Char) :
    .bare word ∉ arrayTokens ps := by
  have hrow : .bare word ∉ rowTokens ps := by
    fun_induction rowTokens ps <;> simp_all
  simp [arrayTokens, hrow]

theorem isArrayText_of_tokens? {ps : List (List StringPiece)}
    (h : tokens? cs = some (arrayTokens ps))
    (hnames : List.Forall₂ (fun p name => text? p = some name) ps names) :
    IsArrayText names cs := by
  obtain ⟨before, _, rest, rfl, hbefore, ⟨⟩, hrest⟩ :=
    spells_of_tokens? h (bare_notMem_arrayTokens ps)
  cases hnames with
  | nil =>
    obtain ⟨inside, _, after, rfl, hinside, ⟨⟩, hafter⟩ := hrest
    exact .empty before inside after hbefore hinside hafter
  | cons hname hnames =>
    obtain ⟨items, after, hne, rfl, hitems, hafter⟩ := exists_items_of_spells hrest hname hnames
    rw [← hitems]
    exact .row before after items hne hbefore hafter

/-! ## Values -/

namespace Document

variable {ps : List (List StringPiece)} {docs : List Document} {d : Document}

/-- Only a string says a string. -/
theorem exists_pieces_of_meaning? {name : String} (h : meaning? d = some (.string name)) :
    ∃ p, d = .string p ∧ text? p = some name := by
  cases d <;> simp_all [meaning?]

theorem meanings?_strings_iff :
    meanings? docs = some (names.map .string) ↔
      ∃ ps, docs = ps.map .string ∧ List.Forall₂ (fun p name => text? p = some name) ps names := by
  constructor
  · intro h
    induction docs generalizing names with
    | nil =>
      obtain rfl := List.map_eq_nil_iff.1 (Option.some.inj h).symm
      exact ⟨[], rfl, .nil⟩
    | cons d docs ih =>
      obtain ⟨v, hv, h⟩ := Option.bind_eq_some_iff.1 h
      obtain ⟨vs, hvs, h⟩ := Option.bind_eq_some_iff.1 h
      obtain ⟨name, names, rfl, rfl, rfl⟩ := List.map_eq_cons_iff.1 (Option.some.inj h).symm
      obtain ⟨p, rfl, hp⟩ := exists_pieces_of_meaning? hv
      obtain ⟨ps, rfl, hps⟩ := ih hvs
      exact ⟨p :: ps, rfl, .cons hp hps⟩
  · rintro ⟨ps, rfl, hps⟩
    induction hps with
    | nil => rfl
    | cons hp _ ih => simp [meanings?, meaning?, hp, ih]

/-- Strings inside an array are no deeper than the array. -/
theorem depth_stringArray (ps : List (List StringPiece)) : depth (stringArray ps) = 1 := by
  have hitems : depthOfItems (ps.map .string) = 0 := by
    induction ps with
    | nil => rfl
    | cons p ps ih => simp [depthOfItems, depth, ih]
  simp [stringArray, depth, hitems]

theorem value?_eq_array_iff :
    value? d = some (.array (names.map .string)) ↔
      ∃ ps, d = stringArray ps ∧ List.Forall₂ (fun p name => text? p = some name) ps names := by
  constructor
  · intro h
    rw [value?] at h
    split at h
    · cases d with
      | array docs =>
        obtain ⟨vs, hvs, heq⟩ := Option.map_eq_some_iff.1 h
        cases heq
        obtain ⟨ps, rfl, hps⟩ := meanings?_strings_iff.1 hvs
        exact ⟨ps, rfl, hps⟩
      | _ => simp [meaning?] at h
    · cases h
  · rintro ⟨ps, rfl, hps⟩
    rw [value?, depth_stringArray, if_pos (by decide), stringArray, meaning?,
      meanings?_strings_iff.2 ⟨ps, rfl, hps⟩]
    rfl

end Document

/-- A list of strings is read from exactly the texts of arrays of these strings. -/
theorem read?_eq_array_iff :
    Value.read? cs = some (.array (names.map .string)) ↔ IsArrayText names cs := by
  have htokens : Value.read? cs = some (.array (names.map .string)) ↔
      ∃ ps, tokens? cs = some (arrayTokens ps) ∧
        List.Forall₂ (fun p name => text? p = some name) ps names := by
    simp only [Value.read?, Document.read?, Option.bind_eq_some_iff,
      Document.value?_eq_array_iff]
    constructor
    · rintro ⟨d, ⟨ts, hts, hd⟩, ps, rfl, hps⟩
      rw [Document.ofTokens?_eq_stringArray_iff] at hd
      exact ⟨ps, hd ▸ hts, hps⟩
    · rintro ⟨ps, hts, hps⟩
      exact ⟨_, ⟨_, hts, Document.ofTokens?_eq_stringArray_iff.2 rfl⟩, ps, rfl, hps⟩
  rw [htokens]
  constructor
  · rintro ⟨ps, hts, hps⟩
    exact isArrayText_of_tokens? hts hps
  · intro h
    cases h with
    | row before after items hne hbefore hafter =>
      refine ⟨items.map RowItem.pieces, tokens?_array hbefore hafter fun tokens => ?_, ?_⟩
      · obtain ⟨item, items, rfl⟩ := List.exists_cons_of_ne_nil hne
        exact scan_row item items
      · simp [List.forall₂_map_left_iff, List.forall₂_map_right_iff, List.forall₂_same,
          RowItem.pieces, RowItem.string, text?_glyphs]
    | empty before inside after hbefore hinside hafter =>
      exact ⟨[], tokens?_array hbefore hafter fun _ => scan_separators hinside, .nil⟩

/-! ## Rows without their ends -/

/-- Every list of strings has a row. -/
theorem exists_row (names : List String) :
    ∃ items : List RowItem, items.map RowItem.string = names := by
  induction names with
  | nil => exact ⟨[], rfl⟩
  | cons name names ih =>
    obtain ⟨items, rfl⟩ := ih
    obtain ⟨gs, -, hchars, -⟩ := exists_glyphs name.toList
    exact ⟨⟨[], gs, [], by simp, by simp⟩ :: items, by simp [RowItem.string, hchars]⟩

/-- The item without the separators before it. -/
def RowItem.fromQuote (item : RowItem) : RowItem :=
  ⟨[], item.glyphs, item.after, by simp, item.after_separators⟩

theorem rowText_fromQuote (item : RowItem) (items : List RowItem) :
    rowText (item :: items) = item.before ++ rowText (item.fromQuote :: items) := by
  cases items with
  | nil => simp [rowText, RowItem.text, RowItem.fromQuote]
  | cons next items => simp [rowText_cons, RowItem.text, RowItem.fromQuote]

/-- A row from a quote on has another character after it. -/
theorem exists_rowText_quote (item : RowItem) (items : List RowItem) :
    ∃ c rest, rowText (item.fromQuote :: items) = '"' :: c :: rest := by
  have htext : ∃ c rest, item.fromQuote.text = '"' :: c :: rest := by
    cases hbody : glyphsText item.glyphs with
    | nil => exact ⟨'"', item.after, by simp [RowItem.text, RowItem.fromQuote, quoteGlyphs, hbody]⟩
    | cons c rest =>
      exact ⟨c, rest ++ '"' :: item.after,
        by simp [RowItem.text, RowItem.fromQuote, quoteGlyphs, hbody]⟩
  obtain ⟨c, rest, htext⟩ := htext
  cases items with
  | nil => exact ⟨c, rest, by simp [rowText, htext]⟩
  | cons next items => exact ⟨c, rest ++ ',' :: rowText (next :: items), by simp [rowText_cons, htext]⟩

/-- The separators at the end of a row can be left out of it. -/
theorem exists_rowText_after (item : RowItem) (items : List RowItem) :
    ∃ first others after, rowText (item :: items) = rowText (first :: others) ++ after ∧
      (∀ c ∈ after, isSeparator c = true) ∧
      (first :: others).map RowItem.string = (item :: items).map RowItem.string ∧
      (rowText (first :: others)).getLast? = some '"' := by
  induction items generalizing item with
  | nil =>
    exact ⟨⟨item.before, item.glyphs, [], item.before_separators, by simp⟩, [], item.after,
      by simp [rowText, RowItem.text], item.after_separators, rfl,
      by simp [rowText, RowItem.text, quoteGlyphs, List.getLast?_cons]⟩
  | cons next items ih =>
    obtain ⟨first, others, after, htext, hafter, hstring, hlast⟩ := ih next
    refine ⟨item, first :: others, after, ?_, hafter, ?_, ?_⟩
    · rw [rowText_cons, rowText_cons, htext]
      simp
    · rw [List.map_cons, hstring]
      rfl
    · rw [rowText_cons, List.getLast?_append, List.getLast?_cons, hlast]
      rfl

/-- A row stands in quotes, up to the separators around it. -/
theorem exists_rowText_inner {items : List RowItem} (h : items ≠ []) :
    ∃ before inner after, rowText items = before ++ '"' :: (inner ++ ['"']) ++ after ∧
      (∀ c ∈ before, isSeparator c = true) ∧ (∀ c ∈ after, isSeparator c = true) ∧
      IsArrayText (items.map RowItem.string) ('[' :: ('"' :: (inner ++ ['"']) ++ [']'])) := by
  obtain ⟨item, items, rfl⟩ := List.exists_cons_of_ne_nil h
  obtain ⟨first, others, after, htext, hafter, hstring, hlast⟩ := exists_rowText_after item items
  obtain ⟨c, rest, hquote⟩ := exists_rowText_quote first others
  rw [rowText_fromQuote first, hquote] at htext hlast
  rw [List.getLast?_append, List.getLast?_cons_cons] at hlast
  obtain ⟨inner, hinner⟩ : ∃ inner, c :: rest = inner ++ ['"'] := by
    cases hend : (c :: rest).getLast? with
    | none => simp at hend
    | some d =>
      rw [hend] at hlast
      obtain rfl := Option.some.inj hlast
      exact List.getLast?_eq_some_iff.1 hend
  rw [hinner] at htext hquote
  refine ⟨first.before, inner, after, htext, first.before_separators, hafter, ?_⟩
  rw [← hstring, ← hquote]
  exact .row [] [] (first.fromQuote :: others) (by simp) (by simp) (by simp)

end ApiCatalog.Json
