import ApiCatalog.Proofs.Quoting.Longest
import ApiCatalog.Proofs.Response.Matches

/-!
# Stretches between brackets

The pattern of a typed object is one of a family: something opens the stretch, any characters of the
line follow, and one character closes it. Such a pattern prefers the longest match
(`longestFirst_bracketed`), so a substitution replaces the longest stretches that end outside quotes
(`substitute_longest`).
-/

namespace ApiCatalog.Response

open ApiCatalog.Pattern
open ApiCatalog.Quoting
open ApiCatalog.Text (isBlank ne_of_isBlank)

/-- What opens a stretch: the colons and the brace of a typed object, or one character. -/
inductive Opening where
  | typedObject
  | char (c : Char)
deriving Repr, DecidableEq

/-- The patterns of the opening. -/
def Opening.parts : Opening → List Pattern
  | .typedObject => [.literal [':', ':'], blanks, .only '{']
  | .char c => [.only c]

/-- The opening, any characters of the line, and the character that closes the stretch. -/
def bracketed (opening : Opening) (close : Char) : Pattern :=
  .chain (opening.parts ++ [.group 1 (.many (· ≠ '\n')), .only close])

theorem typedObject_eq_bracketed : typedObject = bracketed .typedObject '}' := rfl

/-- What the opening is. -/
def Opening.Opens : Opening → List Char → Prop
  | .typedObject, a => ∃ gap, IsGap gap ∧ a = "::".toList ++ (gap ++ ['{'])
  | .char c, a => a = [c]

/-- A stretch that is opened and closed, on one line but for the opening. -/
def IsBracketed (opening : Opening) (close : Char) (stretch : List Char) : Prop :=
  ∃ a body, stretch = a ++ (body ++ [close]) ∧ opening.Opens a ∧ '\n' ∉ body

variable {opening : Opening} {close : Char} {stretch : List Char}

/-! ## What the patterns match -/

/-- The body and what closes it. -/
def closing (close : Char) : Pattern := .seq (.group 1 (.many (· ≠ '\n'))) (.only close)

theorem mem_runs_closing {t : Cursor} {i : Nat} {r : List Char} {g : List (Nat × Nat × Nat)} :
    t ∈ runs (closing close) ⟨i, r, g⟩ ↔ ∃ body v, r = body ++ close :: v ∧ '\n' ∉ body ∧
      t = ⟨i + body.length + 1, v, (1, i, i + body.length) :: g⟩ := by
  rw [closing, mem_runs_seq]
  constructor
  · rintro ⟨u, hu, ht⟩
    obtain ⟨_, hbody, rfl⟩ := mem_runs_group.1 hu
    obtain ⟨body, _, rfl, hline, rfl⟩ := mem_runs_many.1 hbody
    obtain ⟨v, rfl, rfl⟩ := mem_runs_only.1 ht
    exact ⟨body, v, rfl, fun h => by simpa using hline _ h, rfl⟩
  · rintro ⟨body, v, rfl, hline, rfl⟩
    refine ⟨⟨i + body.length, close :: v, (1, i, i + body.length) :: g⟩, ?_, ?_⟩
    · refine mem_runs_group.2 ⟨_, mem_runs_many.2 ⟨body, close :: v, rfl, ?_, rfl⟩, rfl⟩
      intro c hc
      simpa using fun h : c = '\n' => hline (h ▸ hc)
    · exact mem_runs_only.2 ⟨v, rfl, rfl⟩

theorem bracketed_eq (opening : Opening) (close : Char) :
    bracketed opening close = match opening with
      | .typedObject =>
        .seq (.literal [':', ':']) (.seq blanks (.seq (.only '{') (closing close)))
      | .char c => .seq (.only c) (closing close) := by
  cases opening <;> rfl

/-- The pattern matches a stretch exactly if it is opened and closed. -/
theorem fits_bracketed_iff : (bracketed opening close).Fits stretch ↔
    IsBracketed opening close stretch := by
  rw [Fits, bracketed_eq]
  cases opening with
  | typedObject =>
    constructor
    · rintro ⟨t, ht, hrest⟩
      obtain ⟨_, h, ht⟩ := mem_runs_seq.1 ht
      obtain ⟨_, rfl, rfl⟩ := mem_runs_literal.1 h
      obtain ⟨_, h, ht⟩ := mem_runs_seq.1 ht
      obtain ⟨gap, _, rfl, hgap, rfl⟩ := mem_runs_blanks.1 h
      obtain ⟨_, h, ht⟩ := mem_runs_seq.1 ht
      obtain ⟨_, rfl, rfl⟩ := mem_runs_only.1 h
      obtain ⟨body, v, rfl, hline, rfl⟩ := mem_runs_closing.1 ht
      obtain rfl : v = [] := hrest
      exact ⟨_, body, by simp, ⟨gap, hgap, rfl⟩, hline⟩
    · rintro ⟨_, body, rfl, ⟨gap, hgap, rfl⟩, hline⟩
      refine ⟨_, mem_runs_seq.2 ⟨_, mem_runs_literal.2 ⟨_, List.append_assoc _ _ _, rfl⟩,
        mem_runs_seq.2 ⟨_, mem_runs_blanks.2 ⟨gap, _, List.append_assoc _ _ _, hgap, rfl⟩,
          mem_runs_seq.2 ⟨_, mem_runs_only.2 ⟨_, rfl, rfl⟩,
            mem_runs_closing.2 ⟨body, [], rfl, hline, rfl⟩⟩⟩⟩, rfl⟩
  | char c =>
    constructor
    · rintro ⟨t, ht, hrest⟩
      obtain ⟨_, h, ht⟩ := mem_runs_seq.1 ht
      obtain ⟨_, rfl, rfl⟩ := mem_runs_only.1 h
      obtain ⟨body, v, rfl, hline, rfl⟩ := mem_runs_closing.1 ht
      obtain rfl : v = [] := hrest
      exact ⟨[c], body, rfl, rfl, hline⟩
    · rintro ⟨_, body, rfl, rfl, hline⟩
      exact ⟨_, mem_runs_seq.2 ⟨_, mem_runs_only.2 ⟨_, rfl, rfl⟩,
        mem_runs_closing.2 ⟨body, [], rfl, hline, rfl⟩⟩, rfl⟩

/-! ## What the patterns prefer -/

theorem longestFirst_closing (close : Char) : (closing close).LongestFirst :=
  ((longestFirst_many _).group 1).seq_only close

theorem longestFirst_bracketed (opening : Opening) (close : Char) :
    (bracketed opening close).LongestFirst := by
  rw [bracketed_eq]
  cases opening with
  | typedObject =>
    -- the blanks leave no choice because a brace follows them
    have hblank : isBlank '{' = false := by decide
    refine (unforked_literal _).seq_longestFirst fun s => ?_
    rw [runs_seq_assoc]
    exact (unforked_many_only hblank).seq_longestFirst (longestFirst_closing close) s
  | char c => exact (unforked_only c).seq_longestFirst (longestFirst_closing close)

theorem unanchored_bracketed (opening : Opening) (close : Char) :
    (bracketed opening close).unanchored = true := by
  cases opening <;> rfl

theorem consumes_bracketed (opening : Opening) (close : Char) :
    (bracketed opening close).consumes = true := by
  cases opening <;> rfl

/-! ## What a substitution replaces -/

/-- Where a substitution of bracketed stretches comes upon one outside quotes, it replaces the
longest stretch from there that ends outside quotes, or nothing if there is none. So a whole
substitution is a scan that replaces the longest stretches. -/
theorem substitute_longest (opening : Opening) (close : Char) (text : List Char) :
    (∀ place start, FirstStart (IsBracketed opening close) text place start →
      isUnquoted text start = true →
      LongestStep (IsBracketed opening close) text (bracketed opening close).searcher place start) ∧
    ∃ ms, Scan (IsBracketed opening close) text 0 ms ∧
      ∀ (n : Type → Type) [Monad n] [LawfulMonad n] (replacer : Replacer n),
        substituteM (bracketed opening close).searcher replacer text =
          (fun written => splice text 0 (ms.zip written)) <$>
            ms.mapM fun m => replacer m (m.captures text) := by
  have hfits : IsBracketed opening close = (bracketed opening close).Fits :=
    funext fun stretch => propext fits_bracketed_iff.symm
  have hplain := unanchored_bracketed opening close
  have hlongest := longestFirst_bracketed opening close
  have hconsumes := consumes_bracketed opening close
  rw [hfits]
  refine ⟨fun place start => longestStep hplain hlongest hconsumes, ?_⟩
  obtain ⟨ms, hms⟩ := exists_replaces (bracketed opening close).searcher text 0
  refine ⟨ms, scan_of_replaces hplain hlongest hconsumes hms, fun n _ _ replacer => ?_⟩
  exact hms.substituteFromM_eq replacer

/-- The second `>` is quoted: from the first `<` the longest stretch ends at the first `>`, and from
the second `<` there is none. -/
theorem substitute_longest_angles :
    let text := "<a> <b, \">\" c".toList
    let fits := IsBracketed (.char '<') '>'
    let searcher := (bracketed (.char '<') '>').searcher
    FirstStart fits text 0 0 ∧ isUnquoted text 0 = true ∧
    FirstStart fits text 3 4 ∧ isUnquoted text 4 = true ∧
    ∀ (n : Type → Type) [Monad n] (replacer : Replacer n),
      (∃ m : Match, m.start = 0 ∧ m.stop = 3 ∧
        substituteFromM searcher replacer text 0 0 = (do
          let written ← replacer m (m.captures text)
          let rest ← substituteFromM searcher replacer text 3 3
          pure (slice text 0 0 ++ written ++ rest))) ∧
      substituteFromM searcher replacer text 3 3 = substituteFromM searcher replacer text 3 5 := by
  intro text fits searcher
  have hstretches : ∀ start ≤ 4, ∀ stop ≤ text.length,
      (bracketed (.char '<') '>').Fits (slice text start stop) ↔
        (start, stop) ∈ [(0, 3), (0, 10), (4, 10)] := by decide
  have hmatches : ∀ start ≤ 4, ∀ stop, MatchesAt fits text start stop ↔
      (start, stop) ∈ [(0, 3), (0, 10), (4, 10)] := by
    intro start hstart stop
    constructor
    · rintro ⟨-, hinside, hmatched⟩
      exact (hstretches start hstart stop hinside).1 (fits_bracketed_iff.2 hmatched)
    · intro hmem
      have hbounds : start ≤ stop ∧ stop ≤ text.length := by
        have hlength : text.length = 13 := by decide
        simp only [List.mem_cons, Prod.mk.injEq, List.not_mem_nil, or_false] at hmem
        omega
      exact ⟨hbounds.1, hbounds.2,
        fits_bracketed_iff.1 ((hstretches start hstart stop hbounds.2).2 hmem)⟩
  have hfirst : FirstStart fits text 0 0 :=
    ⟨Nat.le_refl 0, ⟨3, (hmatches 0 (by decide) 3).2 (by decide)⟩, by omega⟩
  have hsecond : FirstStart fits text 3 4 := by
    refine ⟨by decide, ⟨10, (hmatches 4 (by decide) 10).2 (by decide)⟩, ?_⟩
    intro earlier hle hlt stop hstop
    obtain rfl : earlier = 3 := by omega
    simpa using (hmatches 3 (by decide) stop).1 hstop
  have hopen : isUnquoted text 0 = true := by decide
  have hopen' : isUnquoted text 4 = true := by decide
  have hquoted : isUnquoted text 10 = false := by decide
  refine ⟨hfirst, hopen, hsecond, hopen', fun n _ replacer => ⟨?_, ?_⟩⟩
  · have hthree : Replaceable fits text 0 3 :=
      ⟨(hmatches 0 (by decide) 3).2 (by decide), by decide⟩
    rcases (substitute_longest (.char '<') '>' text).1 0 0 hfirst hopen with
      ⟨m, hm, hlongest, hstep⟩ | ⟨hnone, -⟩
    · have hstop : m.stop = 3 := by
        have hends := (hmatches 0 (by decide) m.stop).1 hlongest.toMatchesAt
        simp only [List.mem_cons, Prod.mk.injEq, List.not_mem_nil, or_false] at hends
        have hne : m.stop ≠ 10 := fun h => by
          have hunquoted := hlongest.unquoted
          rw [h, hquoted] at hunquoted
          exact absurd hunquoted (by decide)
        omega
      rw [hstop] at hstep
      exact ⟨m, hm, hstop, hstep n replacer 0⟩
    · exact absurd hthree (hnone 3)
  · rcases (substitute_longest (.char '<') '>' text).1 3 4 hsecond hopen' with
      ⟨m, -, hlongest, -⟩ | ⟨-, hstep⟩
    · have hends := (hmatches 4 (by decide) m.stop).1 hlongest.toMatchesAt
      simp only [List.mem_cons, Prod.mk.injEq, List.not_mem_nil, or_false] at hends
      have hten : m.stop = 10 := by omega
      have hunquoted := hlongest.unquoted
      rw [hten, hquoted] at hunquoted
      exact absurd hunquoted (by decide)
    · exact hstep n replacer 3

end ApiCatalog.Response
