import Mathlib.Data.Prod.Lex
import ApiCatalog.Proofs.Pattern.ByteSearch
import ApiCatalog.Proofs.Quoting.Regions
import ApiCatalog.Quoting.Substitution

/-!
# Substitution turn by turn

`substituteM` counts places in characters, so it cannot cut a character in two, and it is defined
only because its loops end. Here the two loops run turn by turn on offsets in bytes (`Loop.turn`),
and nothing is taken for granted: a turn fails if it searches beyond the end of a text, cuts a text
within a character or beyond its end, or takes a stretch that ends before it starts.

From a state whose offsets are boundaries in order, no turn fails (`proceeds_turn`). It leads to
another such state from which less is left to do and the same is written in the end, or it ends with
what was to be written.
-/

namespace ApiCatalog.Quoting

open Text (IsBoundary byteLength cutAt? cutAt?_offsetOf firstSize isBoundary_iff
  isBoundary_offsetOf offsetOf offsetOf_le_byteLength_iff offsetOf_strictMono offsetOf_take placeOf
  placeOf_offsetOf)

/-! ## The loops -/

/-- The stretch of a text between two offsets. -/
def stretch? (text : List Char) (start stop : Nat) : Option (List Char) := do
  let (before, _) ← cutAt? text stop
  let (_, part) ← cutAt? before start
  some part

/-- The offset after the character at an offset; at the end of the text, one byte further on. -/
def nextOffset? (text : List Char) (offset : Nat) : Option Nat := do
  let (_, rest) ← cutAt? text offset
  some (offset + firstSize rest)

/-- The offset of the last character of a text, or the given one if there is no character. -/
def lastOffset (start : Nat) : List Char → Nat
  | [] => start
  | c :: cs => byteLength (c :: cs).dropLast

/-- A search that fails if it is to start beyond the end of the text. -/
def search? (engine : ByteSearcher) (text : List Char) (offset : Nat) : Option (Option Match) :=
  if offset ≤ byteLength text then some (engine.find? text offset) else none

/-- Where the search goes on after a replaced match. -/
def resumeOffset? (text : List Char) (m : Match) : Option Nat :=
  if m.start < m.stop then some m.stop else nextOffset? text m.stop

/-- Where the two loops are between two turns. What was written so far stands for the text before
`last`. -/
inductive Loop (n : Type → Type) where
  /-- A match is to be searched for from an offset on. -/
  | searching (last offset : Nat) (written : n (List Char))
  /-- The match found at `start` ends inside quotes at `stop`, and the text is to be shortened. -/
  | retreating (last start stop : Nat) (written : n (List Char))
  /-- A match at `start` is to be searched for in the first `size` bytes of the text. -/
  | probing (last start size : Nat) (written : n (List Char))

/-- What comes of a turn. -/
inductive Turn (n : Type → Type) where
  | goesOn (next : Loop n)
  | ends (written : n (List Char))

section Turns

variable {n : Type → Type} [Monad n]

/-- What was written, and then more. -/
def andThen (written more : n (List Char)) : n (List Char) := do
  let before ← written
  let rest ← more
  pure (before ++ rest)

/-- There is no further match, and the rest of the text is copied. -/
def finish? (text : List Char) (last : Nat) (written : n (List Char)) : Option (Turn n) := do
  let (_, rest) ← cutAt? text last
  some (.ends (andThen written (pure rest)))

/-- The match at `start` is passed over. -/
def pass? (text : List Char) (last start : Nat) (written : n (List Char)) : Option (Turn n) := do
  let offset ← nextOffset? text start
  some (.goesOn (.searching last offset written))

/-- A match that was found in `head`, a first part of the text, is replaced. -/
def replace? (replacer : Replacer n) (text head : List Char) (last : Nat) (m : Match)
    (written : n (List Char)) : Option (Turn n) := do
  let copied ← stretch? text last m.start
  let offset ← resumeOffset? text m
  let found := m.recounted (placeOf head)
  some (.goesOn (.searching m.stop offset (andThen written do
    let replaced ← replacer found (found.captures text)
    pure (copied ++ replaced))))

/-- What the outer loop does about a match. -/
def meet? (replacer : Replacer n) (text : List Char) (last : Nat) (m : Match)
    (written : n (List Char)) : Option (Turn n) :=
  if isUnquotedByte text m.start then
    if isUnquotedByte text m.stop then replace? replacer text text last m written
    else some (.goesOn (.retreating last m.start m.stop written))
  else pass? text last m.start written

/-- What the inner loop does about a match in the shortened text `head`. -/
def reconsider? (replacer : Replacer n) (text head : List Char) (last start : Nat) (m : Match)
    (written : n (List Char)) : Option (Turn n) :=
  if m.start = start then
    if isUnquotedByte text m.stop then replace? replacer text head last m written
    else some (.goesOn (.retreating last start m.stop written))
  else pass? text last start written

/-- One turn of the loop that is running. -/
def Loop.turn (engine : ByteSearcher) (replacer : Replacer n) (text : List Char) :
    Loop n → Option (Turn n)
  | .searching last offset written =>
    if offset ≤ byteLength text then do
      match ← search? engine text offset with
      | none => finish? text last written
      | some m => meet? replacer text last m written
    else finish? text last written
  | .retreating last start stop written =>
    if start < stop then do
      let (head, _) ← cutAt? text stop
      some (.goesOn (.probing last start (lastOffset start head) written))
    else pass? text last start written
  | .probing last start size written => do
    let (head, _) ← cutAt? text size
    match ← search? engine head start with
    | none => pass? text last start written
    | some m => reconsider? replacer text head last start m written

/-- The offsets of a state are boundaries of the text, in order. Only the search that is not made
any more is due one byte beyond the end. -/
def Loop.InBounds (text : List Char) : Loop n → Prop
  | .searching last offset _ =>
    last ≤ offset ∧ IsBoundary text last ∧
      (IsBoundary text offset ∨ offset = byteLength text + 1)
  | .retreating last start stop _ =>
    last ≤ start ∧ start ≤ stop ∧ IsBoundary text last ∧ IsBoundary text start ∧
      IsBoundary text stop
  | .probing last start size _ =>
    last ≤ start ∧ start ≤ size ∧ IsBoundary text last ∧ IsBoundary text start ∧
      IsBoundary text size

/-- What is left to do: first by how far the search has come, then by how much of the text a retreat
still looks at. -/
def Loop.left (text : List Char) : Loop n → Nat ×ₗ Nat
  | .searching _ offset _ => toLex (byteLength text + 2 - offset, 0)
  | .retreating _ start stop _ => toLex (byteLength text + 1 - start, 2 * stop + 2)
  | .probing _ start size _ => toLex (byteLength text + 1 - start, 2 * size + 3)

/-! ## What is written in the end -/

/-- What is written from `last` on once the search has settled on a match at `start`, or on none. -/
def settledM (searcher : Searcher) (replacer : Replacer n) (text : List Char) (last start : Nat) :
    Option Match → n (List Char)
  | none => substituteFromM searcher replacer text last (start + 1)
  | some m =>
    andThen (do
      let replaced ← replacer m (m.captures text)
      pure (slice text last m.start ++ replaced))
      (substituteFromM searcher replacer text m.stop (resume m))

/-- What a retreat settles on that is to search the first `size` characters. -/
def probe? (searcher : Searcher) (text : List Char) (start size : Nat) : Option Match :=
  match searcher.find? (text.take size) start with
  | none => none
  | some m =>
    if m.start = start then
      if isUnquoted text m.stop then some m else retreat? searcher text start m.stop
    else none

/-- All that is written in the end, by the substitution that counts in characters. -/
def Loop.outcome (searcher : Searcher) (replacer : Replacer n) (text : List Char) :
    Loop n → n (List Char)
  | .searching last offset written =>
    andThen written
      (substituteFromM searcher replacer text (placeOf text last) (placeOf text offset))
  | .retreating last start stop written =>
    andThen written (settledM searcher replacer text (placeOf text last) (placeOf text start)
      (retreat? searcher text (placeOf text start) (placeOf text stop)))
  | .probing last start size written =>
    andThen written (settledM searcher replacer text (placeOf text last) (placeOf text start)
      (probe? searcher text (placeOf text start) (placeOf text size)))

/-- A turn that does not fail. It leads to a state in bounds from which less is left to do and the
same is written in the end, or it ends with what was to be written. -/
inductive Proceeds (searcher : Searcher) (replacer : Replacer n) (text : List Char) (s : Loop n) :
    Option (Turn n) → Prop where
  | goesOn {next : Loop n} (hbounds : next.InBounds text) (hleft : next.left text < s.left text)
      (houtcome : s.outcome searcher replacer text = next.outcome searcher replacer text) :
      Proceeds searcher replacer text s (some (.goesOn next))
  | ends {written : n (List Char)} (houtcome : s.outcome searcher replacer text = written) :
      Proceeds searcher replacer text s (some (.ends written))

variable {engine : ByteSearcher} {searcher : Searcher} {replacer : Replacer n}
variable {text head : List Char} {last place start stop size : Nat} {m found : Match}
variable {written : n (List Char)} {s : Loop n}

theorem outcome_searching (written : n (List Char)) :
    (Loop.searching (offsetOf text last) (offsetOf text place) written).outcome searcher replacer
        text =
      andThen written (substituteFromM searcher replacer text last place) := by
  rw [Loop.outcome, placeOf_offsetOf, placeOf_offsetOf]

theorem outcome_retreating (written : n (List Char)) :
    (Loop.retreating (offsetOf text last) (offsetOf text start) (offsetOf text stop)
        written).outcome searcher replacer text =
      andThen written (settledM searcher replacer text last start
        (retreat? searcher text start stop)) := by
  rw [Loop.outcome, placeOf_offsetOf, placeOf_offsetOf, placeOf_offsetOf]

theorem outcome_probing (written : n (List Char)) :
    (Loop.probing (offsetOf text last) (offsetOf text start) (offsetOf text size)
        written).outcome searcher replacer text =
      andThen written (settledM searcher replacer text last start
        (probe? searcher text start size)) := by
  rw [Loop.outcome, placeOf_offsetOf, placeOf_offsetOf, placeOf_offsetOf]

theorem retreat?_of_lt (h : start < stop) :
    retreat? searcher text start stop = probe? searcher text start (stop - 1) := by
  rw [retreat?, if_pos h, probe?]
  cases searcher.find? (text.take (stop - 1)) start <;> rfl

theorem retreat?_of_le (h : stop ≤ start) : retreat? searcher text start stop = none := by
  rw [retreat?, if_neg (Nat.not_lt.2 h)]

/-! ## Accesses at boundaries -/

theorem isUnquotedByte_offsetOf (text : List Char) (place : Nat) :
    isUnquotedByte text (offsetOf text place) = isUnquoted text place := by
  rcases Nat.lt_or_ge place text.length with hplace | hend
  · have hcut : text = text.take place ++ text[place] :: text.drop (place + 1) := by
      rw [List.getElem_cons_drop, List.take_append_drop]
    have hlength : (text.take place).length = place := List.length_take_of_le (Nat.le_of_lt hplace)
    have hbyte := @isUnquotedByte_eq text[place] (text.take place) (text.drop (place + 1)) 0
      (by rw [String.length_utf8EncodeChar]; exact Char.utf8Size_pos _)
    rw [← hcut, hlength, Nat.add_zero] at hbyte
    rw [← hbyte, ← Text.byteLength_take (Nat.le_of_lt hplace)]
    rfl
  · have hle := (offsetOf_strictMono text).monotone hend
    rw [Text.offsetOf_length] at hle
    rw [isUnquoted_of_length_le hend]
    exact isUnquotedByte_of_length_le hle

theorem nextOffset?_offsetOf (h : place ≤ text.length) :
    nextOffset? text (offsetOf text place) = some (offsetOf text (place + 1)) := by
  rw [nextOffset?, cutAt?_offsetOf h, Text.offsetOf_succ]
  rfl

theorem stretch?_offsetOf (hle : start ≤ stop) (h : stop ≤ text.length) :
    stretch? text (offsetOf text start) (offsetOf text stop) = some (slice text start stop) := by
  have hhead : start ≤ (text.take stop).length := by rwa [List.length_take_of_le h]
  rw [stretch?, cutAt?_offsetOf h]
  show (do let (_, part) ← cutAt? (text.take stop) (offsetOf text start); some part) = _
  rw [← offsetOf_take hle, cutAt?_offsetOf hhead]
  rfl

theorem lastOffset_take (hlt : place < stop) (h : stop ≤ text.length) (start : Nat) :
    lastOffset start (text.take stop) = offsetOf text (stop - 1) := by
  have hlength : (text.take stop).length = stop := List.length_take_of_le h
  have hdrop : (text.take stop).dropLast = text.take (stop - 1) := by
    rw [List.dropLast_eq_take, hlength, List.take_take, Nat.min_eq_left (Nat.sub_le _ _)]
  rw [← Text.byteLength_take (Nat.le_trans (Nat.sub_le _ _) h), ← hdrop]
  cases htake : text.take stop with
  | nil =>
    rw [htake, List.length_nil] at hlength
    omega
  | cons c cs => rfl

theorem resumeOffset?_eq (hstart : m.start = offsetOf text found.start)
    (hstop : m.stop = offsetOf text found.stop) (h : found.stop ≤ text.length) :
    resumeOffset? text m = some (offsetOf text (resume found)) := by
  rw [resumeOffset?, resume, hstart, hstop]
  by_cases hlt : found.start < found.stop
  · rw [if_pos hlt, if_pos (offsetOf_strictMono text hlt)]
  · have hle := (offsetOf_strictMono text).monotone (Nat.not_lt.1 hlt)
    rw [if_neg hlt, if_neg (Nat.not_lt.2 hle), nextOffset?_offsetOf h]

theorem search?_offsetOf (h : place ≤ text.length) :
    search? engine text (offsetOf text place) = some (engine.find? text (offsetOf text place)) :=
  if_pos (offsetOf_le_byteLength_iff.2 h)

/-! ## What a turn leads to -/

theorem proceeds_finish (hlast : last ≤ text.length)
    (houtcome : s.outcome searcher replacer text = andThen written (pure (text.drop last))) :
    Proceeds searcher replacer text s (finish? text (offsetOf text last) written) := by
  rw [finish?, cutAt?_offsetOf hlast]
  exact .ends houtcome

/-- The search goes on at a later place, which may be the one beyond the end. -/
theorem proceeds_searching (hlast : last ≤ place) (htext : last ≤ text.length)
    (hstart : start < place) (hplace : place ≤ text.length + 1)
    (hleft : toLex (byteLength text + 1 - offsetOf text start, 0) < s.left text)
    (houtcome : s.outcome searcher replacer text =
      andThen written (substituteFromM searcher replacer text last place)) :
    Proceeds searcher replacer text s
      (some (.goesOn (.searching (offsetOf text last) (offsetOf text place) written))) := by
  have hlater : offsetOf text start < offsetOf text place := offsetOf_strictMono text hstart
  refine .goesOn ⟨?_, ?_, ?_⟩ ?_ (houtcome.trans (outcome_searching written).symm)
  · exact (offsetOf_strictMono text).monotone hlast
  · exact isBoundary_offsetOf htext
  · rcases Nat.lt_or_eq_of_le hplace with hlt | rfl
    · exact .inl (isBoundary_offsetOf (Nat.le_of_lt_succ hlt))
    · exact .inr (Text.offsetOf_length_succ text)
  · refine lt_of_le_of_lt ?_ hleft
    rw [Loop.left, Prod.Lex.toLex_le_toLex]
    omega

theorem proceeds_pass (hlast : last ≤ start) (hstart : start ≤ text.length)
    (hleft : toLex (byteLength text + 1 - offsetOf text start, 0) < s.left text)
    (houtcome : s.outcome searcher replacer text =
      andThen written (settledM searcher replacer text last start none)) :
    Proceeds searcher replacer text s
      (pass? text (offsetOf text last) (offsetOf text start) written) := by
  rw [pass?, nextOffset?_offsetOf hstart]
  exact proceeds_searching (Nat.le_succ_of_le hlast) (Nat.le_trans hlast hstart)
    (Nat.lt_succ_self start) (Nat.succ_le_succ hstart) hleft houtcome

/-- The match that was found ends inside quotes. -/
theorem proceeds_retreating (hlast : last ≤ start) (horder : start ≤ stop)
    (htext : stop ≤ text.length)
    (hleft : toLex (byteLength text + 1 - offsetOf text start, 2 * offsetOf text stop + 2) <
      s.left text)
    (houtcome : s.outcome searcher replacer text =
      andThen written (settledM searcher replacer text last start
        (retreat? searcher text start stop))) :
    Proceeds searcher replacer text s (some (.goesOn
      (.retreating (offsetOf text last) (offsetOf text start) (offsetOf text stop) written))) := by
  have hmono := (offsetOf_strictMono text).monotone
  have hstart := Nat.le_trans horder htext
  exact .goesOn
    ⟨hmono hlast, hmono horder, isBoundary_offsetOf (Nat.le_trans hlast hstart),
      isBoundary_offsetOf hstart, isBoundary_offsetOf htext⟩
    hleft (houtcome.trans (outcome_retreating written).symm)

/-- The text is shortened by one character, which the match still holds. -/
theorem proceeds_probing (hlast : last ≤ start) (hlt : start < stop) (htext : stop ≤ text.length)
    (hleft : s.left text =
      toLex (byteLength text + 1 - offsetOf text start, 2 * offsetOf text stop + 2))
    (houtcome : s.outcome searcher replacer text =
      andThen written (settledM searcher replacer text last start
        (retreat? searcher text start stop))) :
    Proceeds searcher replacer text s (some (.goesOn (.probing (offsetOf text last)
      (offsetOf text start) (offsetOf text (stop - 1)) written))) := by
  have hmono := (offsetOf_strictMono text).monotone
  have hshorter : offsetOf text (stop - 1) < offsetOf text stop :=
    offsetOf_strictMono text (by omega)
  rw [retreat?_of_lt hlt] at houtcome
  refine .goesOn ⟨hmono hlast, hmono (by omega), ?_, ?_, ?_⟩ ?_
    (houtcome.trans (outcome_probing written).symm)
  · exact isBoundary_offsetOf (by omega)
  · exact isBoundary_offsetOf (by omega)
  · exact isBoundary_offsetOf (by omega)
  · rw [hleft, Loop.left, Prod.Lex.toLex_lt_toLex]
    omega

theorem proceeds_turn_retreating (hlast : last ≤ start) (horder : start ≤ stop)
    (htext : stop ≤ text.length)
    (hs : s = .retreating (offsetOf text last) (offsetOf text start) (offsetOf text stop) written) :
    Proceeds engine.searcher replacer text s (s.turn engine replacer text) := by
  have houtcome : s.outcome engine.searcher replacer text =
      andThen written (settledM engine.searcher replacer text last start
        (retreat? engine.searcher text start stop)) := by
    rw [hs, outcome_retreating]
  have hleft : s.left text =
      toLex (byteLength text + 1 - offsetOf text start, 2 * offsetOf text stop + 2) := by
    rw [hs, Loop.left]
  have hturn := congrArg (Loop.turn engine replacer text) hs
  rw [hturn, Loop.turn]
  rcases Nat.lt_or_eq_of_le horder with hlt | rfl
  · have hlastChar := lastOffset_take hlt htext (offsetOf text start)
    rw [if_pos (offsetOf_strictMono text hlt), cutAt?_offsetOf htext]
    show Proceeds _ _ _ _ (some (.goesOn (.probing _ _ (lastOffset _ (text.take stop)) _)))
    rw [hlastChar]
    exact proceeds_probing hlast hlt htext hleft houtcome
  · rw [retreat?_of_le (Nat.le_refl _)] at houtcome
    rw [if_neg (Nat.lt_irrefl _)]
    refine proceeds_pass hlast htext ?_ houtcome
    rw [hleft, Prod.Lex.toLex_lt_toLex]
    omega

section Lawful

variable [LawfulMonad n]

theorem andThen_pure_nil (more : n (List Char)) : andThen (pure []) more = more := by
  simp [andThen]

theorem andThen_assoc (written more rest : n (List Char)) :
    andThen (andThen written more) rest = andThen written (andThen more rest) := by
  simp only [andThen, bind_assoc, pure_bind, List.append_assoc]

theorem substituteFromM_of_find (hplace : place ≤ text.length)
    (h : searcher.find? text place = some found) :
    substituteFromM searcher replacer text last place =
      settledM searcher replacer text last found.start (settle? searcher text found) := by
  cases hs : settle? searcher text found with
  | none => rw [substituteFromM_of_settle_none hplace h hs, settledM]
  | some m =>
    rw [substituteFromM_of_settle_some hplace h hs]
    simp only [settledM, andThen, bind_assoc, pure_bind]

/-- A match is replaced, whether it was found in the text or in a first part of it. -/
theorem proceeds_replace (hfound : m.recounted (placeOf head) = found)
    (hstart : m.start = offsetOf text found.start) (hstop : m.stop = offsetOf text found.stop)
    (hlast : last ≤ found.start) (horder : found.start ≤ found.stop)
    (htext : found.stop ≤ text.length)
    (hleft : toLex (byteLength text + 1 - offsetOf text found.start, 0) < s.left text)
    (houtcome : s.outcome searcher replacer text =
      andThen written (settledM searcher replacer text last start (some found))) :
    Proceeds searcher replacer text s
      (replace? replacer text head (offsetOf text last) m written) := by
  have hresume : found.start < resume found ∧ found.stop ≤ resume found ∧
      resume found ≤ text.length + 1 := by
    rw [resume]
    split <;> omega
  have hcopied : stretch? text (offsetOf text last) m.start =
      some (slice text last found.start) := by
    rw [hstart, stretch?_offsetOf hlast (Nat.le_trans horder htext)]
  rw [settledM, ← andThen_assoc] at houtcome
  rw [replace?, hcopied, resumeOffset?_eq hstart hstop htext, hfound, hstop]
  exact proceeds_searching hresume.2.1 htext hresume.1 hresume.2.2 hleft houtcome

/-- A match that the outer loop found is replaced, tried again on a shorter text or passed over. -/
theorem proceeds_meet (hlast : last ≤ place) (hplace : place ≤ text.length)
    (hm : engine.find? text (offsetOf text place) = some m)
    (hleft : s.left text = toLex (byteLength text + 2 - offsetOf text place, 0))
    (houtcome : s.outcome engine.searcher replacer text =
      andThen written (substituteFromM engine.searcher replacer text last place)) :
    Proceeds engine.searcher replacer text s
      (meet? replacer text (offsetOf text last) m written) := by
  obtain ⟨found, hfound⟩ : ∃ found, m.recounted (placeOf text) = found := ⟨_, rfl⟩
  obtain ⟨hstart, hstop, hoffset, horder, hlength⟩ :=
    ByteSearcher.places_of_find? List.take_length (Nat.le_refl _) hm hfound
  have hfind : engine.searcher.find? text place = some found := by
    rw [ByteSearcher.find?_searcher, hm, Option.map_some, hfound]
  have hlater : place ≤ found.start := (offsetOf_strictMono text).le_iff_le.1 hoffset
  -- the match lies at or after the place of the search, so what it leads to is closer to the end
  have hless : ∀ room, toLex (byteLength text + 1 - offsetOf text found.start, room) <
      s.left text := fun room => by
    have hin := offsetOf_le_byteLength_iff.2 hplace
    rw [hleft, Prod.Lex.toLex_lt_toLex]
    omega
  rw [substituteFromM_of_find hplace hfind, settle?] at houtcome
  rw [meet?, hstart, hstop, isUnquotedByte_offsetOf, isUnquotedByte_offsetOf]
  by_cases hopen : isUnquoted text found.start = true
  · rw [if_pos hopen] at houtcome ⊢
    by_cases hclose : isUnquoted text found.stop = true
    · rw [if_pos hclose] at houtcome ⊢
      exact proceeds_replace hfound hstart hstop (by omega) horder hlength (hless 0) houtcome
    · rw [if_neg hclose] at houtcome ⊢
      exact proceeds_retreating (by omega) horder hlength (hless _) houtcome
  · rw [if_neg hopen] at houtcome ⊢
    exact proceeds_pass (by omega) (by omega) (hless 0) houtcome

/-- A match that the inner loop found is replaced, tried again on a text that is shorter still or
given up. -/
theorem proceeds_reconsider (hlast : last ≤ start) (horder : start ≤ size)
    (htext : size ≤ text.length)
    (hm : engine.find? (text.take size) (offsetOf text start) = some m)
    (hleft : s.left text =
      toLex (byteLength text + 1 - offsetOf text start, 2 * offsetOf text size + 3))
    (houtcome : s.outcome engine.searcher replacer text =
      andThen written (settledM engine.searcher replacer text last start
        (probe? engine.searcher text start size))) :
    Proceeds engine.searcher replacer text s
      (reconsider? replacer text (text.take size) (offsetOf text last) (offsetOf text start) m
        written) := by
  obtain ⟨found, hfound⟩ : ∃ found, m.recounted (placeOf (text.take size)) = found := ⟨_, rfl⟩
  obtain ⟨hstart, hstop, -, hfoundOrder, hlength⟩ :=
    ByteSearcher.places_of_find? rfl htext hm hfound
  have hfind : engine.searcher.find? (text.take size) start = some found := by
    rw [ByteSearcher.find?_searcher, offsetOf_take horder, hm, Option.map_some, hfound]
  -- the match ends in the shortened text, so a further retreat has less room
  have hless : ∀ room ≤ 2 * offsetOf text size + 2,
      toLex (byteLength text + 1 - offsetOf text start, room) < s.left text := fun room hroom => by
    rw [hleft, Prod.Lex.toLex_lt_toLex]
    omega
  have hshorter := (offsetOf_strictMono text).monotone hlength
  simp only [probe?, hfind] at houtcome
  rw [reconsider?, hstart, hstop, isUnquotedByte_offsetOf]
  by_cases hhere : found.start = start
  · subst hhere
    rw [if_pos rfl] at houtcome ⊢
    by_cases hclose : isUnquoted text found.stop = true
    · rw [if_pos hclose] at houtcome ⊢
      exact proceeds_replace hfound hstart hstop hlast hfoundOrder (by omega)
        (hless 0 (Nat.zero_le _)) houtcome
    · rw [if_neg hclose] at houtcome ⊢
      exact proceeds_retreating hlast hfoundOrder (by omega) (hless _ (by omega)) houtcome
  · rw [if_neg hhere] at houtcome
    rw [if_neg fun hsame => hhere ((offsetOf_strictMono text).injective hsame)]
    exact proceeds_pass hlast (by omega) (hless 0 (Nat.zero_le _)) houtcome

theorem proceeds_turn_searching (hlast : last ≤ place) (htext : last ≤ text.length)
    (hs : s = .searching (offsetOf text last) (offsetOf text place) written) :
    Proceeds engine.searcher replacer text s (s.turn engine replacer text) := by
  have houtcome : s.outcome engine.searcher replacer text =
      andThen written (substituteFromM engine.searcher replacer text last place) := by
    rw [hs, outcome_searching]
  have hturn := congrArg (Loop.turn engine replacer text) hs
  rw [hturn, Loop.turn]
  by_cases hin : place ≤ text.length
  · rw [if_pos (offsetOf_le_byteLength_iff.2 hin), search?_offsetOf hin]
    cases hm : engine.find? text (offsetOf text place) with
    | none =>
      have hfind : engine.searcher.find? text place = none := by
        rw [ByteSearcher.find?_searcher, hm, Option.map_none]
      rw [substituteFromM_of_find_none hfind] at houtcome
      exact proceeds_finish htext houtcome
    | some m => exact proceeds_meet hlast hin hm (by rw [hs, Loop.left]) houtcome
  · rw [if_neg fun h => hin (offsetOf_le_byteLength_iff.1 h)]
    rw [substituteFromM_of_beyond (Nat.lt_of_not_le hin)] at houtcome
    exact proceeds_finish htext houtcome

theorem proceeds_turn_probing (hlast : last ≤ start) (horder : start ≤ size)
    (htext : size ≤ text.length)
    (hs : s = .probing (offsetOf text last) (offsetOf text start) (offsetOf text size) written) :
    Proceeds engine.searcher replacer text s (s.turn engine replacer text) := by
  have houtcome : s.outcome engine.searcher replacer text =
      andThen written (settledM engine.searcher replacer text last start
        (probe? engine.searcher text start size)) := by
    rw [hs, outcome_probing]
  have hleft : s.left text =
      toLex (byteLength text + 1 - offsetOf text start, 2 * offsetOf text size + 3) := by
    rw [hs, Loop.left]
  have hsearch : search? engine (text.take size) (offsetOf text start) =
      some (engine.find? (text.take size) (offsetOf text start)) := by
    rw [← offsetOf_take horder]
    exact search?_offsetOf (by rwa [List.length_take_of_le htext])
  have hturn := congrArg (Loop.turn engine replacer text) hs
  rw [hturn, Loop.turn, cutAt?_offsetOf htext]
  simp only [Option.bind_eq_bind, Option.bind_some, hsearch]
  cases hm : engine.find? (text.take size) (offsetOf text start) with
  | none =>
    have hfind : engine.searcher.find? (text.take size) start = none := by
      rw [ByteSearcher.find?_searcher, offsetOf_take horder, hm, Option.map_none]
    rw [probe?, hfind] at houtcome
    refine proceeds_pass hlast (Nat.le_trans horder htext) ?_ houtcome
    rw [hleft, Prod.Lex.toLex_lt_toLex]
    omega
  | some m => exact proceeds_reconsider hlast horder htext hm hleft houtcome

/-- No turn from a state in bounds fails. -/
theorem proceeds_turn (engine : ByteSearcher) (replacer : Replacer n) (h : s.InBounds text) :
    Proceeds engine.searcher replacer text s (s.turn engine replacer text) := by
  have hmono := offsetOf_strictMono text
  cases s with
  | searching last offset written =>
    obtain ⟨horder, hlast, hoffset⟩ := h
    obtain ⟨last, htext, rfl⟩ := isBoundary_iff.1 hlast
    obtain ⟨place, rfl⟩ : ∃ place, offset = offsetOf text place := by
      rcases hoffset with hoffset | rfl
      · obtain ⟨place, -, hplace⟩ := isBoundary_iff.1 hoffset
        exact ⟨place, hplace⟩
      · exact ⟨text.length + 1, (Text.offsetOf_length_succ text).symm⟩
    exact proceeds_turn_searching (hmono.le_iff_le.1 horder) htext rfl
  | retreating last start stop written =>
    obtain ⟨hlast, horder, hbefore, hstart, hstop⟩ := h
    obtain ⟨last, -, rfl⟩ := isBoundary_iff.1 hbefore
    obtain ⟨start, -, rfl⟩ := isBoundary_iff.1 hstart
    obtain ⟨stop, htext, rfl⟩ := isBoundary_iff.1 hstop
    exact proceeds_turn_retreating (hmono.le_iff_le.1 hlast) (hmono.le_iff_le.1 horder) htext rfl
  | probing last start size written =>
    obtain ⟨hlast, horder, hbefore, hstart, hsize⟩ := h
    obtain ⟨last, -, rfl⟩ := isBoundary_iff.1 hbefore
    obtain ⟨start, -, rfl⟩ := isBoundary_iff.1 hstart
    obtain ⟨size, htext, rfl⟩ := isBoundary_iff.1 hsize
    exact proceeds_turn_probing (hmono.le_iff_le.1 hlast) (hmono.le_iff_le.1 horder) htext rfl

end Lawful

end Turns

end ApiCatalog.Quoting
