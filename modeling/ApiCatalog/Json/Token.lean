import ApiCatalog.Number.Numeral

/-!
# Tokens of JSON texts

A text is read one character at a time by a machine that is between tokens, in a bare word, or
somewhere in a string. Punctuation stands alone, blanks only separate, and a bare word is a
maximal run of any other characters outside strings; which bare words mean something is decided by
the reader of documents. Reading a text in two parts is reading the whole, because the machine
steps by character (`scan_append`).

A string is kept as written up to its escapes: plain characters and 16-bit units. Whether its
units pair up is decided where the string is used.
-/

namespace ApiCatalog.Json

/-- A character of a string: written plainly or by a named escape, or given as a 16-bit unit. -/
inductive StringPiece where
  | char (c : Char)
  | unit (n : Nat)
deriving Repr, DecidableEq

/-- The punctuation of JSON. -/
inductive Punctuation where
  | openArray
  | closeArray
  | openObject
  | closeObject
  | comma
  | colon
deriving Repr, DecidableEq

/-- The punctuation that a character is, if any. -/
def Punctuation.ofChar? (c : Char) : Option Punctuation :=
  if c = '[' then some .openArray
  else if c = ']' then some .closeArray
  else if c = '{' then some .openObject
  else if c = '}' then some .closeObject
  else if c = ',' then some .comma
  else if c = ':' then some .colon
  else none

/-- A token: punctuation, a string, or a bare word such as `true` or `12`. -/
inductive Token where
  | mark (p : Punctuation)
  | string (pieces : List StringPiece)
  | bare (word : List Char)
deriving Repr, DecidableEq

/-- The blanks that may separate tokens: space, tab, line feed and carriage return. -/
def isSeparator (c : Char) : Bool := c = ' ' || c = '\t' || c = '\n' || c = '\r'

/-- What the machine is in the middle of. Parts read so far come most recent first. -/
inductive Scanner.Mode where
  | between
  | bare (read : List Char)
  | string (read : List StringPiece)
  /-- After a backslash inside a string. -/
  | escaped (read : List StringPiece)
  /-- Inside the four hexadecimal digits of a unit, of which `count` were read. -/
  | hex (read : List StringPiece) (count : Nat) (value : Nat)
deriving Repr, DecidableEq

/-- The machine: its mode and the finished tokens, most recent first. -/
structure Scanner where
  mode : Scanner.Mode
  tokens : List Token
deriving Repr, DecidableEq

namespace Scanner

/-- The machine before the first character. -/
def start : Scanner := ⟨.between, []⟩

/-- Reads a character that stands between tokens. -/
def enter (tokens : List Token) (c : Char) : Scanner :=
  if isSeparator c then ⟨.between, tokens⟩
  else if c = '"' then ⟨.string [], tokens⟩
  else match Punctuation.ofChar? c with
    | some p => ⟨.between, .mark p :: tokens⟩
    | none => ⟨.bare [c], tokens⟩

/-- Whether a character ends a bare word. -/
def endsBare (c : Char) : Bool := isSeparator c || c = '"' || (Punctuation.ofChar? c).isSome

/-- The character that a one-letter escape stands for. -/
def escapeOf? (c : Char) : Option Char :=
  if c = '"' || c = '\\' || c = '/' then some c
  else if c = 'b' then some (Char.ofNat 8)
  else if c = 'f' then some (Char.ofNat 12)
  else if c = 'n' then some '\n'
  else if c = 'r' then some '\r'
  else if c = 't' then some '\t'
  else none

/-- The value of a hexadecimal digit of either case. -/
def hexValue? (c : Char) : Option Nat :=
  if '0' ≤ c ∧ c ≤ '9' then some (c.toNat - 48)
  else if 'a' ≤ c ∧ c ≤ 'f' then some (c.toNat - 87)
  else if 'A' ≤ c ∧ c ≤ 'F' then some (c.toNat - 55)
  else none

/-- Reads one character; `none` if no token can go on with it. -/
def step (s : Scanner) (c : Char) : Option Scanner :=
  match s.mode with
  | .between => some (enter s.tokens c)
  | .bare read =>
    if endsBare c then some (enter (.bare read.reverse :: s.tokens) c)
    else some ⟨.bare (c :: read), s.tokens⟩
  | .string read =>
    if c = '"' then some ⟨.between, .string read.reverse :: s.tokens⟩
    else if c = '\\' then some ⟨.escaped read, s.tokens⟩
    else if c.toNat < 32 then none
    else some ⟨.string (.char c :: read), s.tokens⟩
  | .escaped read =>
    if c = 'u' then some ⟨.hex read 0 0, s.tokens⟩
    else (escapeOf? c).map fun e => ⟨.string (.char e :: read), s.tokens⟩
  | .hex read count value =>
    (hexValue? c).map fun d =>
      if count < 3 then ⟨.hex read (count + 1) (16 * value + d), s.tokens⟩
      else ⟨.string (.unit (16 * value + d) :: read), s.tokens⟩

/-- Reads a stretch of text. -/
def scan (s : Scanner) (cs : List Char) : Option Scanner := cs.foldlM step s

/-- The tokens at the end of the text, in order; `none` inside a string. -/
def finish? (s : Scanner) : Option (List Token) :=
  match s.mode with
  | .between => some s.tokens.reverse
  | .bare read => some (.bare read.reverse :: s.tokens).reverse
  | _ => none

@[simp] theorem scan_nil (s : Scanner) : s.scan [] = some s := rfl

@[simp] theorem scan_cons (s : Scanner) (c : Char) (cs : List Char) :
    s.scan (c :: cs) = (s.step c).bind fun t => t.scan cs := rfl

/-- A text may be read in parts. -/
theorem scan_append (s : Scanner) (cs ds : List Char) :
    s.scan (cs ++ ds) = (s.scan cs).bind fun t => t.scan ds := by
  simp only [scan, List.foldlM_append]
  rfl

end Scanner

/-- The tokens of a text, if it is made of tokens. -/
def tokens? (cs : List Char) : Option (List Token) := (Scanner.start.scan cs).bind Scanner.finish?

end ApiCatalog.Json
