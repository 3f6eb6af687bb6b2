import ApiCatalog.Proofs.Pattern.Longest
import ApiCatalog.Proofs.Quoting.Rewriting
import ApiCatalog.Proofs.Quoting.Spans

/-!
# The longest match that ends outside quotes

A substitution looks for the end of a replaced match by searching the text again and again, each
time cut off before the end of the match found last. For a pattern that prefers the longest match no
end is skipped: what it settles on ends at the last place outside quotes where a match can end, and
it settles on nothing only if there is no such place (`retreatHere?_longest`, by induction on the
place where the text is cut off).

`Scan` says what a whole run does without reference to the search: which matches it comes upon, and
which stretch it replaces at each (`scan_of_replaces`).
-/

namespace ApiCatalog.Quoting

/-! ## Stretches of a text -/

section Places

variable (fits : List Char → Prop) (text : List Char)

/-- The stretch from `start` up to `stop` matches. -/
structure MatchesAt (start stop : Nat) : Prop where
  le : start ≤ stop
  inside : stop ≤ text.length
  matched : fits (slice text start stop)

/-- The first place at or after `place` where a stretch starts that matches. -/
structure FirstStart (place start : Nat) : Prop where
  le : place ≤ start
  starts : ∃ stop, MatchesAt fits text start stop
  first : ∀ earlier, place ≤ earlier → earlier < start → ∀ stop, ¬ MatchesAt fits text earlier stop

/-- The stretch matches and ends outside quotes. -/
structure Replaceable (start stop : Nat) : Prop extends MatchesAt fits text start stop where
  unquoted : isUnquoted text stop = true

/-- The longest stretch from `start` that matches and ends outside quotes. -/
structure Longest (start stop : Nat) : Prop extends Replaceable fits text start stop where
  longest : ∀ other, Replaceable fits text start other → other ≤ stop

/-- The matches that a run replaces from a place on. -/
inductive Scan : Nat → List Match → Prop where
  /-- No stretch matches from the place on. -/
  | done {place : Nat} (h : ∀ start, place ≤ start → ∀ stop, ¬ MatchesAt fits text start stop) :
      Scan place []
  /-- The first match starts inside quotes: the run goes on at the next character. -/
  | quoted {place start : Nat} {ms : List Match} (hfirst : FirstStart fits text place start)
      (hstart : isUnquoted text start = false) (rest : Scan (start + 1) ms) : Scan place ms
  /-- No stretch that starts there ends outside quotes: the run goes on at the next character. -/
  | passed {place start : Nat} {ms : List Match} (hfirst : FirstStart fits text place start)
      (hstart : isUnquoted text start = true) (hnone : ∀ stop, ¬ Replaceable fits text start stop)
      (rest : Scan (start + 1) ms) : Scan place ms
  /-- The longest stretch that ends outside quotes is replaced: the run goes on behind it. -/
  | replaced {place : Nat} {m : Match} {ms : List Match} (hfirst : FirstStart fits text place m.start)
      (hstart : isUnquoted text m.start = true) (hlongest : Longest fits text m.start m.stop)
      (rest : Scan m.stop ms) : Scan place (m :: ms)

/-- The step of the loop where it comes upon a match outside quotes. It replaces the longest stretch
from there that ends outside quotes and goes on behind it; if there is none, it replaces nothing and
goes on at the next character. -/
def LongestStep (searcher : Searcher) (place start : Nat) : Prop :=
  (∃ m : Match, m.start = start ∧ Longest fits text start m.stop ∧
    ∀ (n : Type → Type) [Monad n] (replacer : Replacer n) (last : Nat),
      substituteFromM searcher replacer text last place = (do
        let written ← replacer m (m.captures text)
        let rest ← substituteFromM searcher replacer text m.stop m.stop
        pure (slice text last start ++ written ++ rest))) ∨
  (∀ stop, ¬ Replaceable fits text start stop) ∧
    ∀ (n : Type → Type) [Monad n] (replacer : Replacer n) (last : Nat),
      substituteFromM searcher replacer text last place =
        substituteFromM searcher replacer text last (start + 1)

end Places

theorem FirstStart.unique {fits : List Char → Prop} {text : List Char} {place a b : Nat}
    (ha : FirstStart fits text place a) (hb : FirstStart fits text place b) : a = b := by
  obtain ⟨stopA, hstopA⟩ := ha.starts
  obtain ⟨stopB, hstopB⟩ := hb.starts
  rcases Nat.lt_trichotomy a b with h | h | h
  · exact absurd hstopA (hb.first a ha.le h stopA)
  · exact h
  · exact absurd hstopB (ha.first b hb.le h stopB)

/-! ## What is settled on at the start of a text -/

/-- What is settled on has the last of some ends, and there is none only if nothing is. -/
def Settles (ends : Nat → Prop) : Option Match → Prop
  | none => ∀ stop, ¬ ends stop
  | some m => ends m.stop ∧ ∀ stop, ends stop → stop ≤ m.stop

theorem Settles.congr {ends ends' : Nat → Prop} {settled : Option Match}
    (h : Settles ends settled) (hends : ∀ stop, ends stop ↔ ends' stop) : Settles ends' settled := by
  rwa [← funext fun stop => propext (hends stop)]

/-- The match is found further on, and so are the ends. -/
theorem Settles.moved {ends : Nat → Prop} {settled : Option Match} {distance : Nat}
    (h : Settles (fun stop => ends (distance + stop)) settled)
    (hends : ∀ stop, ends stop → distance ≤ stop) :
    Settles ends (settled.map (Match.moved distance)) := by
  cases settled with
  | none =>
    intro stop hstop
    obtain ⟨count, rfl⟩ := Nat.exists_eq_add_of_le (hends stop hstop)
    exact h count hstop
  | some m =>
    refine ⟨h.1, fun stop hstop => ?_⟩
    obtain ⟨count, rfl⟩ := Nat.exists_eq_add_of_le (hends stop hstop)
    exact Nat.add_le_add_left (h.2 count hstop) distance

/-- A match of the pattern at the start of the text can end there, outside quotes. -/
structure EndsAt (p : Pattern) (escaped : Bool) (text : List Char) (stop : Nat) : Prop where
  inside : stop ≤ text.length
  matched : p.Fits (text.take stop)
  outside : outsideAt escaped text stop = true

variable {p : Pattern} {escaped : Bool} {text : List Char} {m found : Match}
variable {place start stop : Nat}

/-- A retreat settles on the last end before the place where it begins. -/
theorem retreatHere?_longest (hp : p.unanchored = true) (hlongest : p.LongestFirst) (stop : Nat) :
    Settles (fun count => count < stop ∧ EndsAt p escaped text count)
      (retreatHere? p escaped text stop) := by
  induction stop using Nat.strongRecOn with
  | ind stop ih =>
    rcases Nat.eq_zero_or_pos stop with rfl | hpos
    · rw [retreatHere?]
      exact fun count hcount => absurd hcount.1 (Nat.not_lt_zero count)
    have hcut : ∀ count, count < stop → count ≤ text.length →
        count ≤ (text.take (stop - 1)).length ∧
          (text.take (stop - 1)).take count = text.take count := by
      intro count hlt hle
      rw [List.length_take, List.take_take]
      exact ⟨by omega, by rw [Nat.min_eq_left (by omega)]⟩
    cases hfound : p.matchHere? (text.take (stop - 1)) 0 with
    | none =>
      rw [retreatHere?_of_none hfound]
      rintro count ⟨hlt, hends⟩
      obtain ⟨hle, htake⟩ := hcut count hlt hends.inside
      exact (Pattern.matchHere?_eq_none_iff hp).1 hfound count hle (htake ▸ hends.matched)
    | some m =>
      rw [retreatHere?_of_some hpos hfound]
      obtain ⟨hinside, hfits⟩ := Pattern.fits_of_matchHere? hp hfound
      rw [List.length_take] at hinside
      have hlast : ∀ count, count < stop ∧ EndsAt p escaped text count → count ≤ m.stop := by
        rintro count ⟨hlt, hends⟩
        obtain ⟨hle, htake⟩ := hcut count hlt hends.inside
        exact Pattern.matchHere?_longest hp hlongest hfound hle (htake ▸ hends.matched)
      have hstop : m.stop < stop ∧ m.stop ≤ text.length := by omega
      rw [(hcut m.stop hstop.1 hstop.2).2] at hfits
      split
      · rename_i houtside
        exact ⟨⟨hstop.1, hstop.2, hfits, houtside⟩, hlast⟩
      · -- no end lies between the end of this match and the place of the cut
        rename_i hinner
        refine (ih m.stop hstop.1).congr fun count => ⟨fun h => ⟨by omega, h.2⟩, fun h => ?_⟩
        have hne : count ≠ m.stop := by
          rintro rfl
          exact hinner h.2.outside
        have hle := hlast count h
        exact ⟨by omega, h.2⟩

/-- Outside quotes the last of all ends is settled on. -/
theorem settleHere?_longest (hp : p.unanchored = true) (hlongest : p.LongestFirst)
    (hstart : pairsUp escaped text = true) :
    Settles (EndsAt p escaped text) (settleHere? p escaped text) := by
  rw [settleHere?, if_pos hstart]
  cases hfound : p.matchHere? text 0 with
  | none =>
    intro count hends
    exact (Pattern.matchHere?_eq_none_iff hp).1 hfound count hends.inside hends.matched
  | some m =>
    obtain ⟨hinside, hfits⟩ := Pattern.fits_of_matchHere? hp hfound
    have hlast : ∀ count, EndsAt p escaped text count → count ≤ m.stop := fun count hends =>
      Pattern.matchHere?_longest hp hlongest hfound hends.inside hends.matched
    simp only
    split
    · rename_i houtside
      exact ⟨⟨hinside, hfits, houtside⟩, hlast⟩
    · rename_i hinner
      refine (retreatHere?_longest hp hlongest m.stop).congr fun count =>
        ⟨fun h => h.2, fun h => ⟨?_, h⟩⟩
      have hne : count ≠ m.stop := by
        rintro rfl
        exact hinner h.outside
      have hle := hlast count h
      omega

/-! ## What is settled on inside a text -/

variable {before : List Char}

theorem matchesAt_append_iff {fits : List Char → Prop} :
    MatchesAt fits (before ++ text) before.length (before.length + stop) ↔
      stop ≤ text.length ∧ fits (text.take stop) := by
  have hslice : slice (before ++ text) before.length (before.length + stop) = text.take stop := by
    have hmoved := slice_append_right before text 0 stop
    rwa [Nat.add_zero] at hmoved
  constructor
  · rintro ⟨-, hinside, hmatched⟩
    rw [List.length_append] at hinside
    exact ⟨by omega, hslice ▸ hmatched⟩
  · rintro ⟨hinside, hmatched⟩
    exact ⟨by omega, by rw [List.length_append]; omega, hslice.symm ▸ hmatched⟩

theorem replaceable_append_iff :
    Replaceable p.Fits (before ++ text) before.length (before.length + stop) ↔
      EndsAt p (escapedAfter false before) text stop := by
  constructor
  · rintro ⟨hmatches, hunquoted⟩
    obtain ⟨hinside, hmatched⟩ := matchesAt_append_iff.1 hmatches
    rw [isUnquoted_append_add hinside] at hunquoted
    exact ⟨hinside, hmatched, hunquoted⟩
  · rintro ⟨hinside, hmatched, houtside⟩
    refine ⟨matchesAt_append_iff.2 ⟨hinside, hmatched⟩, ?_⟩
    rwa [isUnquoted_append_add hinside]

/-- A match at a place is one at the start of what follows. -/
theorem matchHere?_drop_eq_none_iff (hp : p.unanchored = true) (hstart : start ≤ text.length) :
    p.matchHere? (text.drop start) 0 = none ↔ ∀ stop, ¬ MatchesAt p.Fits text start stop := by
  have hlength : (text.take start).length = start := List.length_take_of_le hstart
  have happend : ∀ stop, MatchesAt p.Fits text start (start + stop) ↔
      stop ≤ (text.drop start).length ∧ p.Fits ((text.drop start).take stop) := fun stop => by
    have hiff : MatchesAt p.Fits (text.take start ++ text.drop start) (text.take start).length
        ((text.take start).length + stop) ↔ _ := matchesAt_append_iff
    rwa [List.take_append_drop, hlength] at hiff
  rw [Pattern.matchHere?_eq_none_iff hp]
  constructor
  · intro hnone stop hmatches
    obtain ⟨count, rfl⟩ := Nat.exists_eq_add_of_le hmatches.le
    obtain ⟨hinside, hmatched⟩ := (happend count).1 hmatches
    exact hnone count hinside hmatched
  · intro hnone stop hinside hmatched
    exact hnone (start + stop) ((happend stop).2 ⟨hinside, hmatched⟩)

/-- A search finds nothing only if no stretch matches. -/
theorem not_matchesAt_of_find?_eq_none (hp : p.unanchored = true)
    (h : place ≤ text.length → p.searcher.find? text place = none) (hplace : place ≤ start) :
    ¬ MatchesAt p.Fits text start stop := by
  intro hmatches
  have hstart : start ≤ text.length := Nat.le_trans hmatches.le hmatches.inside
  have hnone := h (Nat.le_trans hplace hstart)
  have hfind : p.find? text place = none := hnone
  rw [Pattern.find?, if_pos (Nat.le_trans hplace hstart)] at hfind
  have hhere := Pattern.searchFrom?_eq_none hfind (start - place) (by
    rw [List.length_drop]
    omega)
  rw [List.drop_drop, Nat.add_sub_cancel' hplace] at hhere
  exact (matchHere?_drop_eq_none_iff hp hstart).1 hhere stop hmatches

/-- A search finds the first place where a stretch matches, and a match there. -/
theorem firstStart_of_find?_eq_some (hp : p.unanchored = true)
    (h : p.searcher.find? text place = some found) :
    FirstStart p.Fits text place found.start ∧
      ∃ before rest m, text = before ++ rest ∧ p.matchHere? rest 0 = some m ∧
        found = m.moved before.length := by
  have hplace : place ≤ text.length := by
    have hin := p.searcher.inside h
    omega
  have hfind : p.find? text place = some found := h
  rw [Pattern.find?, if_pos hplace] at hfind
  obtain ⟨count, m, hcount, hm, rfl, hbefore⟩ := Pattern.searchFrom?_eq_some hfind
  rw [List.length_drop] at hcount
  rw [List.drop_drop] at hm
  have hstart : (m.moved (place + count)).start = place + count := by
    simp [Match.moved, (Pattern.matchHere?_inside hm).1]
  have hle : place + count ≤ text.length := by omega
  have hlength : (text.take (place + count)).length = place + count := List.length_take_of_le hle
  rw [hstart]
  refine ⟨⟨Nat.le_add_right _ _, ?_, ?_⟩, text.take (place + count), text.drop (place + count), m,
    (List.take_append_drop _ _).symm, hm, by rw [hlength]⟩
  · by_cases hnone : ∀ stop, ¬ MatchesAt p.Fits text (place + count) stop
    · rw [(matchHere?_drop_eq_none_iff hp hle).2 hnone] at hm
      exact absurd hm (by simp)
    · simpa using hnone
  · intro earlier hearlier hlt
    obtain ⟨skipped, rfl⟩ := Nat.exists_eq_add_of_le hearlier
    have hnone := hbefore skipped (by omega)
    rw [List.drop_drop] at hnone
    exact (matchHere?_drop_eq_none_iff hp (by omega)).1 hnone

/-- Outside quotes the longest of all stretches is settled on that can be replaced. -/
theorem settle?_longest (hp : p.unanchored = true) (hlongest : p.LongestFirst)
    (hfind : p.searcher.find? text place = some found)
    (hstart : isUnquoted text found.start = true) :
    Settles (Replaceable p.Fits text found.start) (settle? p.searcher text found) := by
  obtain ⟨-, before, rest, m, rfl, hm, rfl⟩ := firstStart_of_find?_eq_some hp hfind
  have hmoved : (m.moved before.length).start = before.length := by
    simp [Match.moved, (Pattern.matchHere?_inside hm).1]
  rw [hmoved, isUnquoted_append] at hstart
  rw [hmoved, settle?_eq hm]
  refine Settles.moved ?_ fun stop hstop => hstop.le
  exact (settleHere?_longest hp hlongest hstart).congr fun stop => replaceable_append_iff.symm

/-! ## The run -/

/-- What consumes something does not match an empty stretch. -/
theorem MatchesAt.lt (hconsumes : p.consumes = true) (h : MatchesAt p.Fits text start stop) :
    start < stop := by
  obtain ⟨t, ht, hrest⟩ := h.matched
  have hlt := Pattern.lt_of_mem_runs hconsumes ht
  obtain ⟨between, hslice, hposition⟩ := Pattern.reaches_of_mem_runs ht
  have hlength := congrArg List.length hslice
  simp only [slice, List.length_drop, List.length_take, List.length_append, hrest,
    List.length_nil] at hlength hlt hposition
  omega

theorem start_of_settle? (hfind : p.searcher.find? text place = some found)
    (hsettle : settle? p.searcher text found = some m) :
    m.start = found.start ∧ isUnquoted text found.start = true := by
  refine ⟨(settle?_inside (p.searcher.inside hfind).2 hsettle).1, ?_⟩
  rw [settle?] at hsettle
  split at hsettle
  · assumption
  · simp at hsettle

/-- A run of the loop for a pattern that prefers the longest match, and consumes something, replaces
the longest stretches. -/
theorem scan_of_replaces (hp : p.unanchored = true) (hlongest : p.LongestFirst)
    (hconsumes : p.consumes = true) {ms : List Match} (h : Replaces p.searcher text place ms) :
    Scan p.Fits text place ms := by
  induction h with
  | done h => exact .done fun start hplace stop => not_matchesAt_of_find?_eq_none hp h hplace
  | @passed place found ms hplace hfind hsettle _ ih =>
    obtain ⟨hfirst, -⟩ := firstStart_of_find?_eq_some hp hfind
    cases hstart : isUnquoted text found.start with
    | false => exact .quoted hfirst hstart ih
    | true =>
      have hnone := settle?_longest hp hlongest hfind hstart
      rw [hsettle] at hnone
      exact .passed hfirst hstart hnone ih
  | @replaced place found m ms hplace hfind hsettle _ ih =>
    obtain ⟨hfirst, -⟩ := firstStart_of_find?_eq_some hp hfind
    obtain ⟨hsame, hstart⟩ := start_of_settle? hfind hsettle
    obtain ⟨hreplaceable, hlast⟩ : Settles _ (some m) :=
      hsettle ▸ settle?_longest hp hlongest hfind hstart
    rw [← hsame] at hfirst hstart hreplaceable hlast
    have hresume : resume m = m.stop := if_pos (hreplaceable.lt hconsumes)
    rw [hresume] at ih
    exact .replaced hfirst hstart ⟨hreplaceable, hlast⟩ ih

/-! ## One step of the loop -/

/-- A search finds a match at the first place where one starts. -/
theorem FirstStart.exists_find? (hp : p.unanchored = true)
    (h : FirstStart p.Fits text place start) :
    place ≤ text.length ∧ ∃ found, p.searcher.find? text place = some found ∧
      found.start = start := by
  obtain ⟨stop, hstop⟩ := h.starts
  refine ⟨Nat.le_trans h.le (Nat.le_trans hstop.le hstop.inside), ?_⟩
  cases hfind : p.searcher.find? text place with
  | none => exact absurd hstop (not_matchesAt_of_find?_eq_none hp (fun _ => hfind) h.le)
  | some found => exact ⟨found, rfl, (firstStart_of_find?_eq_some hp hfind).1.unique h⟩

/-- The loop of a pattern that prefers the longest match, and consumes something, takes such
steps. -/
theorem longestStep (hp : p.unanchored = true) (hlongest : p.LongestFirst)
    (hconsumes : p.consumes = true) (hfirst : FirstStart p.Fits text place start)
    (hstart : isUnquoted text start = true) :
    LongestStep p.Fits text p.searcher place start := by
  obtain ⟨hplace, found, hfind, rfl⟩ := hfirst.exists_find? hp
  have hsettles := settle?_longest hp hlongest hfind hstart
  cases hsettle : settle? p.searcher text found with
  | none =>
    rw [hsettle] at hsettles
    refine .inr ⟨hsettles, fun n _ replacer last => ?_⟩
    exact substituteFromM_of_settle_none hplace hfind hsettle
  | some m =>
    rw [hsettle] at hsettles
    obtain ⟨hsame, -⟩ := start_of_settle? hfind hsettle
    have hresume : resume m = m.stop := if_pos (hsame ▸ hsettles.1.lt hconsumes)
    refine .inl ⟨m, hsame, ⟨hsettles.1, hsettles.2⟩, fun n _ replacer last => ?_⟩
    rw [substituteFromM_of_settle_some hplace hfind hsettle, hresume, hsame]

end ApiCatalog.Quoting
