import ApiCatalog.Pattern.Search
import ApiCatalog.Quoting.Basic

/-!
# Substitution outside quotes

`substitute` replaces the matches of a searcher that start and end outside quotes. A match that
starts inside quotes is passed over, and the search goes on at the next character. A match that
starts outside but ends inside is tried again on a text cut off before its last character, until
it ends outside, so a greedy pattern settles on the longest match that does. Empty matches are
replaced too, and each is followed by a step to the next character.

What stands for a match is written by a replacer, match by match; it may keep a state between the
matches. `substituteM` is the substitution for any replacer, `substitute` the one for a replacement
that is a function of what a match captured.

Both loops end because every match lies inside the text that was searched: `retreat?` shortens the
text each time, and `substituteFromM` searches from a later place each time.
-/

namespace ApiCatalog.Quoting

/-- What stands for a match, as a function of what it captured. -/
abbrev Replacement := Captures → List Char

/-- What writes the text that stands for a match, given the match and what it captured. -/
abbrev Replacer (n : Type → Type) := Match → Captures → n (List Char)

/-- The replacer that writes a replacement. -/
def Replacement.replacer (replacement : Replacement) : Replacer Id :=
  fun _ captures => pure (replacement captures)

/-- The match at `start` that ends outside quotes, searched for in the text cut off before `stop`,
then before the end of each match that ends inside. -/
def retreat? (searcher : Searcher) (text : List Char) (start stop : Nat) : Option Match :=
  if start < stop then
    match _h : searcher.find? (text.take (stop - 1)) start with
    | none => none
    | some m =>
      if m.start = start then
        if isUnquoted text m.stop then some m else retreat? searcher text start m.stop
      else none
  else none
termination_by stop
decreasing_by
  have := (searcher.inside _h).2.2
  simp only [List.length_take] at this
  omega

/-- The match to be replaced where `found` starts, if there is one: `found` itself if it ends
outside quotes, else what a retreat settles on. -/
def settle? (searcher : Searcher) (text : List Char) (found : Match) : Option Match :=
  if isUnquoted text found.start then
    if isUnquoted text found.stop then some found
    else retreat? searcher text found.start found.stop
  else none

theorem retreat?_inside {searcher : Searcher} {text : List Char} {start stop : Nat} {m : Match}
    (h : retreat? searcher text start stop = some m) :
    m.start = start ∧ m.start ≤ m.stop ∧ m.stop < stop ∧ m.stop ≤ text.length := by
  induction stop using Nat.strongRecOn with
  | ind stop ih =>
    rw [retreat?] at h
    split at h
    · rename_i hlt
      split at h
      · simp at h
      · rename_i found hfind
        have hin := searcher.inside hfind
        simp only [List.length_take] at hin
        split at h
        · rename_i hstart
          split at h
          · simp only [Option.some.injEq] at h
            subst h
            omega
          · have := ih found.stop (by omega) h
            omega
        · simp at h
    · simp at h

/-- What is settled on starts where the match was found, and lies inside the text. -/
theorem settle?_inside {searcher : Searcher} {text : List Char} {found m : Match}
    (hfound : found.start ≤ found.stop ∧ found.stop ≤ text.length)
    (h : settle? searcher text found = some m) :
    m.start = found.start ∧ m.start ≤ m.stop ∧ m.stop ≤ text.length := by
  simp only [settle?] at h
  split at h
  · split at h
    · simp only [Option.some.injEq] at h
      subst h
      omega
    · have := retreat?_inside h
      omega
  · simp at h

/-- Where the search goes on after a replaced match: at its end, or one character later if it is
empty. -/
def resume (m : Match) : Nat := if m.start < m.stop then m.stop else m.stop + 1

section Replacing

variable {n : Type → Type} [Monad n]

/-- The text from `last` on with the matches at or after `place` replaced. -/
def substituteFromM (searcher : Searcher) (replacer : Replacer n) (text : List Char)
    (last place : Nat) : n (List Char) :=
  if place ≤ text.length then
    match _h : searcher.find? text place with
    | none => pure (text.drop last)
    | some found =>
      match _hs : settle? searcher text found with
      | none => substituteFromM searcher replacer text last (found.start + 1)
      | some m => do
        let written ← replacer m (m.captures text)
        let rest ← substituteFromM searcher replacer text m.stop (resume m)
        pure (slice text last m.start ++ written ++ rest)
  else pure (text.drop last)
termination_by text.length + 1 - place
decreasing_by
  · have := searcher.inside _h
    omega
  · have hin := searcher.inside _h
    have hs := settle?_inside hin.2 _hs
    simp only [resume]
    split <;> omega

/-- The text with the matches outside quotes replaced by what the replacer writes. -/
def substituteM (searcher : Searcher) (replacer : Replacer n) (text : List Char) : n (List Char) :=
  substituteFromM searcher replacer text 0 0

/-! ## One step of the substitution -/

variable {searcher : Searcher} {replacer : Replacer n} {text : List Char} {last place : Nat}
variable {found m : Match}

theorem substituteFromM_of_beyond (h : text.length < place) :
    substituteFromM searcher replacer text last place = pure (text.drop last) := by
  rw [substituteFromM, if_neg (by omega)]

theorem substituteFromM_of_find_none (h : searcher.find? text place = none) :
    substituteFromM searcher replacer text last place = pure (text.drop last) := by
  rw [substituteFromM]
  split
  · split
    · rfl
    · simp_all
  · rfl

theorem substituteFromM_of_settle_none (hplace : place ≤ text.length)
    (h : searcher.find? text place = some found) (hs : settle? searcher text found = none) :
    substituteFromM searcher replacer text last place =
      substituteFromM searcher replacer text last (found.start + 1) := by
  rw [substituteFromM, if_pos hplace]
  split
  · simp_all
  · rename_i found' hfound
    obtain rfl := Option.some.inj (h.symm.trans hfound)
    split
    · rfl
    · simp_all

theorem substituteFromM_of_settle_some (hplace : place ≤ text.length)
    (h : searcher.find? text place = some found) (hs : settle? searcher text found = some m) :
    substituteFromM searcher replacer text last place =
      (do
        let written ← replacer m (m.captures text)
        let rest ← substituteFromM searcher replacer text m.stop (resume m)
        pure (slice text last m.start ++ written ++ rest)) := by
  rw [substituteFromM, if_pos hplace]
  split
  · simp_all
  · rename_i found' hfound
    obtain rfl := Option.some.inj (h.symm.trans hfound)
    split
    · simp_all
    · rename_i m' hm'
      obtain rfl := Option.some.inj (hs.symm.trans hm')
      rfl

end Replacing

/-! ## Replacements -/

/-- The text from `last` on with the matches at or after `place` replaced. -/
def substituteFrom (searcher : Searcher) (replacement : Replacement) (text : List Char)
    (last place : Nat) : List Char :=
  (substituteFromM searcher replacement.replacer text last place).run

/-- The text with the matches outside quotes replaced. -/
def substitute (searcher : Searcher) (replacement : Replacement) (text : List Char) : List Char :=
  substituteFrom searcher replacement text 0 0

end ApiCatalog.Quoting
