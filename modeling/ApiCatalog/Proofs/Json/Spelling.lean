import ApiCatalog.Proofs.Json.Strings
import Mathlib.Data.List.Induction

/-!
# What a text of tokens looks like

The scanner reads a text character by character. `Scanner.Explains` says of each state what the text
read so far must look like: the tokens that are finished are spelled in it, with nothing but
separators between them, and an open string is spelled piece by piece up to where the text ends. A
step keeps that (`explains_step`), so a text of strings and punctuation is made of their spellings
and separators (`spells_of_tokens?`). Bare words are left out: how far they reach depends on what
follows.
-/

namespace ApiCatalog.Json

open Scanner (escapeOf? hexValue?)

/-! ## Spellings -/

/-- A piece of a string and how it is written. -/
inductive WrittenPiece where
  /-- The character itself. -/
  | plain (c : Char) (quote : c ≠ '"') (backslash : c ≠ '\\') (control : 32 ≤ c.toNat)
  /-- A backslash and a letter. -/
  | named (letter c : Char) (means : escapeOf? letter = some c)
  /-- A unit. -/
  | unit (u : HexUnit)

namespace WrittenPiece

/-- How the piece is written. -/
def text : WrittenPiece → List Char
  | plain c _ _ _ => [c]
  | named letter _ _ => ['\\', letter]
  | unit u => '\\' :: 'u' :: u.digits

/-- The piece. -/
def piece : WrittenPiece → StringPiece
  | plain c _ _ _ => .char c
  | named _ c _ => .char c
  | unit u => .unit u.value

end WrittenPiece

/-- The text of a row of pieces. -/
def piecesText (ws : List WrittenPiece) : List Char := ws.flatMap WrittenPiece.text

/-- How punctuation is written. -/
def Punctuation.char : Punctuation → Char
  | openArray => '['
  | closeArray => ']'
  | openObject => '{'
  | closeObject => '}'
  | comma => ','
  | colon => ':'

theorem Punctuation.eq_char {c : Char} {p : Punctuation} (h : ofChar? c = some p) :
    c = p.char := by
  unfold ofChar? at h
  repeat' split at h
  all_goals cases h
  all_goals assumption

/-- How punctuation and strings are written. -/
inductive Token.IsText : Token → List Char → Prop where
  | mark (p : Punctuation) : IsText (.mark p) [p.char]
  | string (ws : List WrittenPiece) :
      IsText (.string (ws.map WrittenPiece.piece)) ('"' :: (piecesText ws ++ ['"']))

/-- A text spells tokens: it is made of their texts, with separators before, between and after. -/
def Spells : List Token → List Char → Prop
  | [], cs => ∀ c ∈ cs, isSeparator c = true
  | t :: ts, cs => ∃ gap u rest, cs = gap ++ (u ++ rest) ∧ (∀ c ∈ gap, isSeparator c = true) ∧
      t.IsText u ∧ Spells ts rest

variable {ts : List Token} {t : Token} {cs u : List Char} {c : Char}

theorem Spells.token (h : Spells ts cs) (ht : t.IsText u) : Spells (ts ++ [t]) (cs ++ u) := by
  induction ts generalizing cs with
  | nil => exact ⟨cs, u, [], by simp, h, ht, by simp [Spells]⟩
  | cons t' ts ih =>
    obtain ⟨gap, u', rest, rfl, hgap, ht', hrest⟩ := h
    exact ⟨gap, u', rest ++ u, by simp, hgap, ht', ih hrest⟩

theorem Spells.separator (h : Spells ts cs) (hc : isSeparator c = true) :
    Spells ts (cs ++ [c]) := by
  induction ts generalizing cs with
  | nil =>
    intro d hd
    rcases List.mem_append.1 hd with hd | hd
    · exact h d hd
    · rwa [List.mem_singleton.1 hd]
  | cons t' ts ih =>
    obtain ⟨gap, u', rest, rfl, hgap, ht', hrest⟩ := h
    exact ⟨gap, u', rest ++ [c], by simp, hgap, ht', ih hrest⟩

/-! ## States of the scanner -/

/-- The number that a row of hexadecimal digits stands for. -/
def hexNumber? (digits : List Char) : Option Nat :=
  digits.foldlM (fun n c => (hexValue? c).map (16 * n + ·)) 0

theorem hexUnit?_of_hexNumber? {digits : List Char} {n : Nat} (hlength : digits.length = 4)
    (h : hexNumber? digits = some n) : hexUnit? digits = some n := by
  match digits, hlength with
  | [a, b, c, d], _ =>
    simp only [hexNumber?, List.foldlM_cons, List.foldlM_nil, Option.bind_eq_bind,
      Option.bind_eq_some_iff, Option.map_eq_some_iff, Option.pure_def, Option.some.injEq] at h
    obtain ⟨_, ⟨w, hw, rfl⟩, _, ⟨x, hx, rfl⟩, _, ⟨y, hy, rfl⟩, _, ⟨z, hz, rfl⟩, rfl⟩ := h
    simp [hexUnit?, hw, hx, hy, hz]

/-- One more digit counts after sixteen times those before it. -/
theorem hexNumber?_append {digits : List Char} {n d : Nat} (h : hexNumber? digits = some n)
    (hc : hexValue? c = some d) : hexNumber? (digits ++ [c]) = some (16 * n + d) := by
  unfold hexNumber? at h ⊢
  simp [List.foldlM_append, h, hc]

namespace Scanner

/-- A text that ends inside a string: what it spells, the quote, the pieces that were read, and what
stands after the last of them. -/
def Opens (cs : List Char) (tokens : List Token) (read : List StringPiece) (tail : List Char) :
    Prop :=
  ∃ before ws, cs = before ++ '"' :: (piecesText ws ++ tail) ∧ Spells tokens.reverse before ∧
    read.reverse = ws.map WrittenPiece.piece

/-- What the text that was read looks like, if the finished tokens are no bare words. -/
def Explains (cs : List Char) (s : Scanner) : Prop :=
  (∀ word, .bare word ∉ s.tokens) →
    match s.mode with
    | .between => Spells s.tokens.reverse cs
    | .bare _ => True
    | .string read => Opens cs s.tokens read []
    | .escaped read => Opens cs s.tokens read ['\\']
    | .hex read count value => ∃ digits, Opens cs s.tokens read ('\\' :: 'u' :: digits) ∧
        digits.length = count ∧ count < 4 ∧ hexNumber? digits = some value

/-- Reading a character between tokens keeps the finished ones. -/
theorem mem_tokens_enter {tokens : List Token} (h : t ∈ tokens) : t ∈ (enter tokens c).tokens := by
  unfold enter
  split
  · exact h
  · split
    · exact h
    · split
      · exact List.mem_cons_of_mem _ h
      · exact h

theorem explains_enter {tokens : List Token} (h : Spells tokens.reverse cs) (c : Char) :
    Explains (cs ++ [c]) (enter tokens c) := by
  intro _
  unfold enter
  by_cases hseparator : isSeparator c = true
  · simpa [hseparator] using h.separator hseparator
  · by_cases hquote : c = '"'
    · subst hquote
      exact ⟨cs, [], rfl, h, rfl⟩
    · rw [if_neg hseparator, if_neg hquote]
      cases hmark : Punctuation.ofChar? c with
      | none => trivial
      | some p =>
        show Spells (.mark p :: tokens).reverse (cs ++ [c])
        rw [List.reverse_cons, Punctuation.eq_char hmark]
        exact h.token (.mark p)

variable {s s' : Scanner} {tokens : List Token} {read : List StringPiece} {tail : List Char}

/-- A piece is finished where its last character is read. -/
theorem Opens.piece {w : WrittenPiece} (h : Opens cs tokens read tail)
    (htext : tail ++ [c] = w.text) : Opens (cs ++ [c]) tokens (w.piece :: read) [] := by
  obtain ⟨before, ws, rfl, hbefore, hread⟩ := h
  refine ⟨before, ws ++ [w], ?_, hbefore, by simp [hread]⟩
  simp [piecesText, ← htext]

/-- A piece goes on. -/
theorem Opens.more (h : Opens cs tokens read tail) (c : Char) :
    Opens (cs ++ [c]) tokens read (tail ++ [c]) := by
  obtain ⟨before, ws, rfl, hbefore, hread⟩ := h
  exact ⟨before, ws, by simp, hbefore, hread⟩

/-- A string is finished where its last quote is read. -/
theorem Opens.close (h : Opens cs tokens read []) :
    Spells (.string read.reverse :: tokens).reverse (cs ++ ['"']) := by
  obtain ⟨before, ws, rfl, hbefore, hread⟩ := h
  have hstring := hbefore.token (.string ws)
  rw [List.reverse_cons, hread]
  simpa using hstring

/-- What the text looks like stays true with each character. -/
theorem explains_step (h : Explains cs s) (hs : s.step c = some s') :
    Explains (cs ++ [c]) s' := by
  obtain ⟨mode, tokens⟩ := s
  cases mode with
  | between =>
    obtain rfl := Option.some.inj hs
    intro hbare
    by_cases hall : ∀ word, .bare word ∉ tokens
    · exact explains_enter (h hall) c hbare
    · obtain ⟨word, hword⟩ := not_forall_not.1 hall
      exact absurd (mem_tokens_enter hword) (hbare word)
  | bare read =>
    -- where the word ends it becomes a token, and nothing was claimed of texts with such tokens
    intro hbare
    simp only [step] at hs
    split at hs
    · obtain rfl := Option.some.inj hs
      exact absurd (mem_tokens_enter List.mem_cons_self) (hbare read.reverse)
    · obtain rfl := Option.some.inj hs
      trivial
  | string read =>
    simp only [step] at hs
    split at hs
    · next hquote =>
      obtain rfl := Option.some.inj hs
      subst hquote
      intro hbare
      exact (h fun word hword => hbare word (List.mem_cons_of_mem _ hword)).close
    · next hquote =>
      split at hs
      · next hbackslash =>
        obtain rfl := Option.some.inj hs
        subst hbackslash
        exact fun hbare => (h hbare).more _
      · next hbackslash =>
        split at hs
        · cases hs
        · next hcontrol =>
          obtain rfl := Option.some.inj hs
          exact fun hbare =>
            (h hbare).piece (w := .plain c hquote hbackslash (Nat.not_lt.1 hcontrol)) rfl
  | escaped read =>
    simp only [step] at hs
    split at hs
    · next hu =>
      obtain rfl := Option.some.inj hs
      subst hu
      exact fun hbare => ⟨[], (h hbare).more _, rfl, by omega, rfl⟩
    · obtain ⟨e, he, rfl⟩ := Option.map_eq_some_iff.1 hs
      exact fun hbare => (h hbare).piece (w := .named c e he) rfl
  | hex read count value =>
    simp only [step] at hs
    obtain ⟨d, hd, rfl⟩ := Option.map_eq_some_iff.1 hs
    split
    · next hcount =>
      intro hbare
      obtain ⟨digits, hopens, hlength, -, hnumber⟩ := h hbare
      refine ⟨digits ++ [c], by simpa using hopens.more c, by simp [hlength], by omega, ?_⟩
      exact hexNumber?_append hnumber hd
    · next hcount =>
      intro hbare
      obtain ⟨digits, hopens, hlength, hlt, hnumber⟩ := h hbare
      have hunit : hexUnit? (digits ++ [c]) = some (16 * value + d) :=
        hexUnit?_of_hexNumber? (by simp; omega) (hexNumber?_append hnumber hd)
      exact hopens.piece (w := .unit ⟨digits ++ [c], _, hunit⟩) rfl

theorem explains_scan (cs : List Char) (s : Scanner) (hs : start.scan cs = some s) :
    Explains cs s := by
  induction cs using List.reverseRecOn generalizing s with
  | nil =>
    obtain rfl := Option.some.inj hs
    exact fun _ => by simp [start, Spells]
  | append_singleton cs c ih =>
    rw [scan_append, Option.bind_eq_some_iff] at hs
    obtain ⟨s₁, hs₁, hs⟩ := hs
    rw [scan_cons, Option.bind_eq_some_iff] at hs
    obtain ⟨s₂, hstep, hs⟩ := hs
    obtain rfl := Option.some.inj hs
    exact explains_step (ih s₁ hs₁) hstep

end Scanner

/-- A text whose tokens are strings and punctuation spells them. -/
theorem spells_of_tokens? (h : tokens? cs = some ts) (hbare : ∀ word, .bare word ∉ ts) :
    Spells ts cs := by
  obtain ⟨s, hscan, hfinish⟩ := Option.bind_eq_some_iff.1 h
  have hexplains := Scanner.explains_scan cs s hscan
  obtain ⟨mode, tokens⟩ := s
  cases mode with
  | between =>
    obtain rfl := Option.some.inj hfinish
    exact hexplains fun word hword => hbare word (List.mem_reverse.2 hword)
  | bare read =>
    obtain rfl := Option.some.inj hfinish
    exact absurd (by simp) (hbare read.reverse)
  | string | escaped | hex => cases hfinish

end ApiCatalog.Json
