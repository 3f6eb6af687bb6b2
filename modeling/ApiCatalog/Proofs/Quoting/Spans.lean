import ApiCatalog.Proofs.Pattern.Splicing
import ApiCatalog.Proofs.Quoting.Literals
import ApiCatalog.Quoting.Substitution

/-!
# What a substitution touches

Whatever the searcher, a substitution replaces whole matches that start and end outside quotes, and
copies what stands between them (`substitute_splices`). A match that ends outside quotes cannot end
inside a quoted stretch, so each of those lies inside one match or is copied with its quotes.

`Replaces` is the run of the loop, step by step: at the end of the search, after a match that is
passed over, and after a match that is replaced. What the loop does is shown by induction on it.
-/

namespace ApiCatalog.Quoting

/-! ## The matches that are replaced -/

/-- A match in the text or in a part of it up to some place, with both ends outside quotes. -/
structure Eligible (searcher : Searcher) (text : List Char) (m : Match) : Prop where
  found : ∃ size place, m.stop ≤ size ∧ searcher.find? (text.take size) place = some m
  start : isUnquoted text m.start = true
  stop : isUnquoted text m.stop = true

/-- The matches that are replaced from a place on. -/
inductive Replaces (searcher : Searcher) (text : List Char) : Nat → List Match → Prop where
  /-- The place is beyond the text, or there is no further match. -/
  | done {place : Nat} (h : place ≤ text.length → searcher.find? text place = none) :
      Replaces searcher text place []
  /-- A match is passed over. -/
  | passed {place : Nat} {found : Match} {ms : List Match} (hplace : place ≤ text.length)
      (hfind : searcher.find? text place = some found) (hsettle : settle? searcher text found = none)
      (rest : Replaces searcher text (found.start + 1) ms) : Replaces searcher text place ms
  /-- A match is replaced. -/
  | replaced {place : Nat} {found m : Match} {ms : List Match} (hplace : place ≤ text.length)
      (hfind : searcher.find? text place = some found)
      (hsettle : settle? searcher text found = some m)
      (rest : Replaces searcher text (resume m) ms) : Replaces searcher text place (m :: ms)

variable {searcher : Searcher} {text : List Char} {m : Match} {ms : List Match}
variable {start stop last place : Nat}

theorem lt_resume (h : m.start ≤ m.stop) : m.stop ≤ resume m ∧ m.start < resume m := by
  simp only [resume]
  split <;> omega

/-- From every place some matches are replaced: each step searches from a later place. -/
theorem exists_replaces (searcher : Searcher) (text : List Char) (place : Nat) :
    ∃ ms, Replaces searcher text place ms := by
  induction hleft : text.length + 1 - place using Nat.strongRecOn generalizing place with
  | ind left ih =>
    by_cases hplace : place ≤ text.length
    · cases hfind : searcher.find? text place with
      | none => exact ⟨[], .done fun _ => hfind⟩
      | some found =>
        have hin := searcher.inside hfind
        cases hsettle : settle? searcher text found with
        | none =>
          obtain ⟨ms, hms⟩ := ih _ (by omega) (found.start + 1) rfl
          exact ⟨ms, .passed hplace hfind hsettle hms⟩
        | some m =>
          have hm := settle?_inside hin.2 hsettle
          have hresume := lt_resume hm.2.1
          obtain ⟨ms, hms⟩ := ih _ (by omega) (resume m) rfl
          exact ⟨m :: ms, .replaced hplace hfind hsettle hms⟩
    · exact ⟨[], .done fun h => absurd h hplace⟩

/-- A retreat settles on a match in a part of the text. -/
theorem eligible_of_retreat? (hstart : isUnquoted text start = true)
    (h : retreat? searcher text start stop = some m) : Eligible searcher text m := by
  induction stop using Nat.strongRecOn with
  | ind stop ih =>
    rw [retreat?] at h
    split at h
    · split at h
      · simp at h
      · rename_i found hfind
        have hin := searcher.inside hfind
        simp only [List.length_take] at hin
        split at h
        · rename_i hfound
          split at h
          · rename_i hstop
            obtain rfl := Option.some.inj h
            exact ⟨⟨stop - 1, start, by omega, hfind⟩, hfound ▸ hstart, hstop⟩
          · exact ih found.stop (by omega) h
        · simp at h
    · simp at h

theorem eligible_of_settle? {found : Match} (hfind : searcher.find? text place = some found)
    (h : settle? searcher text found = some m) : Eligible searcher text m := by
  rw [settle?] at h
  split at h
  · rename_i hstart
    split at h
    · rename_i hstop
      obtain rfl := Option.some.inj h
      refine ⟨⟨text.length, place, (searcher.inside hfind).2.2, ?_⟩, hstart, hstop⟩
      rw [List.take_length]
      exact hfind
    · exact eligible_of_retreat? hstart h
  · simp at h

namespace Replaces

theorem eligible (h : Replaces searcher text place ms) : ∀ m ∈ ms, Eligible searcher text m := by
  induction h with
  | done => simp
  | passed _ _ _ _ ih => exact ih
  | replaced _ hfind hsettle _ ih =>
    intro m hm
    rcases List.mem_cons.1 hm with rfl | hm
    · exact eligible_of_settle? hfind hsettle
    · exact ih m hm

/-- The matches do not overlap: the search goes on behind each one. -/
theorem inOrder (h : Replaces searcher text place ms) (hlast : last ≤ place)
    (htext : last ≤ text.length) : InOrder text.length last ms := by
  induction h generalizing last with
  | done => exact htext
  | passed _ hfind _ _ ih =>
    have hin := searcher.inside hfind
    exact ih (by omega) htext
  | replaced _ hfind hsettle _ ih =>
    have hin := searcher.inside hfind
    have hm := settle?_inside hin.2 hsettle
    exact ⟨by omega, hm.2.1, ih (lt_resume hm.2.1).1 hm.2.2⟩

/-- The substitution writes for each match what the replacer makes of it, match by match, and
copies what stands between. -/
theorem substituteFromM_eq {n : Type → Type} [Monad n] [LawfulMonad n] (replacer : Replacer n)
    (h : Replaces searcher text place ms) :
    substituteFromM searcher replacer text last place =
      (fun written => splice text last (ms.zip written)) <$>
        ms.mapM fun m => replacer m (m.captures text) := by
  induction h generalizing last with
  | @done place hnone =>
    have hdone : substituteFromM searcher replacer text last place = pure (text.drop last) := by
      rcases Nat.lt_or_ge text.length place with hbeyond | hplace
      · exact substituteFromM_of_beyond hbeyond
      · exact substituteFromM_of_find_none (hnone hplace)
    simp [hdone, splice]
  | passed hplace hfind hsettle _ ih =>
    rw [substituteFromM_of_settle_none hplace hfind hsettle, ih]
  | replaced hplace hfind hsettle _ ih =>
    rw [substituteFromM_of_settle_some hplace hfind hsettle]
    simp [ih, splice]

theorem substitute_eq (h : Replaces searcher text 0 ms) (replacement : Replacement) :
    substitute searcher replacement text =
      splice text 0 (ms.map fun m => (m, replacement (m.captures text))) := by
  have hzip : ms.map (fun m => (m, replacement (m.captures text))) =
      ms.zip (ms.map fun m => replacement (m.captures text)) := List.map_prod_left_eq_zip
  rw [substitute, substituteFrom, h.substituteFromM_eq replacement.replacer, hzip]
  simp [Replacement.replacer]

end Replaces

/-! ## Quoted stretches -/

/-- A quoted stretch `l` of a text, from the quote that opens it to the one that closes it: the real
quotes before it pair up, and those in it are its first and last character. -/
structure IsSpan (text before l after : List Char) : Prop where
  cut : text = before ++ (l ++ after)
  paired : pairsUp false before = true
  unescaped : escapedAfter false before = false
  literal : IsLiteral l

/-- The stretch after `before` is spared: whatever is written for the matches, the stretch stands as
it is between what is made of the text before it and of the text after it. -/
def Spares (ms : List Match) (text before l : List Char) : Prop :=
  ∃ ms₁ ms₂, ms = ms₁ ++ ms₂ ∧
    ∀ rows₁ rows₂ : List (Match × List Char), rows₁.map Prod.fst = ms₁ → rows₂.map Prod.fst = ms₂ →
      splice text 0 (rows₁ ++ rows₂) =
        splice before 0 rows₁ ++ l ++ splice text (before.length + l.length) rows₂

variable {before l after : List Char}

/-- Between the quotes of a quoted stretch every place is quoted. -/
theorem IsSpan.quoted_inside (h : IsSpan text before l after) (htext : isUnquoted text 0 = true)
    (hstart : before.length < place) (hstop : place < before.length + l.length) :
    isUnquoted text place = false := by
  obtain ⟨rfl, hpaired, hunescaped, hl⟩ := h
  have hafter : pairsUp false after = true := by
    rw [isUnquoted_zero, pairsUp_append, hpaired, hunescaped, pairsUp_append, hl.pairsUp,
      hl.escapedAfter] at htext
    simpa using htext
  obtain ⟨count, rfl⟩ := Nat.exists_eq_add_of_lt hstart
  have hlen : (before ++ l.take (count + 1)).length = before.length + count + 1 := by
    rw [List.length_append, List.length_take_of_le (by omega)]
    omega
  have hcut : before ++ (l ++ after) =
      (before ++ l.take (count + 1)) ++ (l.drop (count + 1) ++ after) := by
    rw [List.append_assoc, ← List.append_assoc (l.take _), List.take_append_drop]
  have hpart : IsLiteral (l.take (count + 1) ++ l.drop (count + 1)) := by
    rwa [List.take_append_drop]
  rw [hcut, ← hlen, isUnquoted_append, escapedAfter_append, hunescaped]
  refine hpart.not_pairsUp_inside ?_ ?_ hafter
  · rw [← List.length_pos_iff, List.length_take]
    omega
  · rw [← List.length_pos_iff, List.length_drop]
    omega

/-- Matches whose ends are outside quotes spare a quoted stretch, unless one of them contains it. -/
theorem IsSpan.inside_or_spared (h : IsSpan text before l after) (htext : isUnquoted text 0 = true)
    (horder : InOrder text.length 0 ms) (hms : ∀ m ∈ ms, Eligible searcher text m) :
    (∃ m ∈ ms, m.start ≤ before.length ∧ before.length + l.length ≤ m.stop) ∨
      Spares ms text before l := by
  have hbeside : ∀ place, isUnquoted text place = true →
      place ≤ before.length ∨ before.length + l.length ≤ place := by
    intro place hplace
    rcases Nat.lt_or_ge before.length place with hlt | hle
    · refine .inr (Nat.not_lt.1 fun hinside => ?_)
      rw [h.quoted_inside htext hlt hinside] at hplace
      exact absurd hplace (by decide)
    · exact .inl hle
  have hstop : before.length + l.length ≤ text.length := by
    rw [h.cut, List.length_append, List.length_append]
    omega
  rcases horder.split (Nat.zero_le before.length) hstop fun m hm =>
      ⟨hbeside _ (hms m hm).start, hbeside _ (hms m hm).stop⟩ with hin | hsides
  · exact .inl hin
  · obtain ⟨ms₁, ms₂, rfl, h₁, h₂⟩ := hsides
    refine .inr ⟨ms₁, ms₂, rfl, ?_⟩
    rintro rows₁ rows₂ rfl rfl
    have htake : text.take before.length = before := by rw [h.cut, List.take_left]
    have hslice : slice text before.length (before.length + l.length) = l := by
      rw [h.cut, slice_middle]
    rw [splice_append h₁ (h₂.of_le (Nat.le_add_right _ _)), htake,
      splice_of_le (Nat.le_add_right _ _) h₂, hslice, List.append_assoc]

/-- The matches that a search comes upon and a substitution settles on, one after the other, do not
overlap, have both ends outside quotes and are found in the text or in a part of it that contains
them. What the substitution returns is the text with those matches replaced by what the replacer
writes. Where the real quotes of the text pair up, each quoted stretch lies inside one of the matches
or is spared. -/
theorem substitute_splices (searcher : Searcher) (text : List Char) :
    ∃ ms : List Match,
      Replaces searcher text 0 ms ∧
      InOrder text.length 0 ms ∧
      (∀ m ∈ ms, Eligible searcher text m) ∧
      splice text 0 (ms.map fun m => (m, slice text m.start m.stop)) = text ∧
      (∀ (n : Type → Type) [Monad n] [LawfulMonad n] (replacer : Replacer n),
        substituteM searcher replacer text =
          (fun written => splice text 0 (ms.zip written)) <$>
            ms.mapM fun m => replacer m (m.captures text)) ∧
      (∀ replacement : Replacement,
        substitute searcher replacement text =
          splice text 0 (ms.map fun m => (m, replacement (m.captures text)))) ∧
      (isUnquoted text 0 = true → ∀ before l after, IsSpan text before l after →
        (∃ m ∈ ms, m.start ≤ before.length ∧ before.length + l.length ≤ m.stop) ∨
          Spares ms text before l) := by
  obtain ⟨ms, hms⟩ := exists_replaces searcher text 0
  have horder := hms.inOrder (Nat.le_refl 0) (Nat.zero_le text.length)
  refine ⟨ms, hms, horder, hms.eligible, splice_slices horder, ?_, hms.substitute_eq, ?_⟩
  · intro n _ _ replacer
    exact hms.substituteFromM_eq replacer
  · intro htext before l after hspan
    exact hspan.inside_or_spared htext horder hms.eligible

/-- Words are replaced around a quoted stretch with an escaped quote, by a numbering replacer. -/
theorem substitute_splices_words :
    let text := "key \"a \\\" b\" end".toList
    let words := (Pattern.atLeastOne Char.isAlpha).searcher
    isUnquoted text 0 = true ∧
      IsSpan text "key ".toList "\"a \\\" b\"".toList " end".toList ∧
      ∃ ms : List Match,
        (∀ replacer : Replacer (StateM Nat),
          substituteM words replacer text =
            (fun written => splice text 0 (ms.zip written)) <$>
              ms.mapM fun m => replacer m (m.captures text)) ∧
        ((∃ m ∈ ms, m.start ≤ 4 ∧ 12 ≤ m.stop) ∨
          Spares ms text "key ".toList "\"a \\\" b\"".toList) := by
  intro text words
  have htext : isUnquoted text 0 = true := by decide
  have hspan : IsSpan text "key ".toList "\"a \\\" b\"".toList " end".toList :=
    ⟨by decide, by decide, by decide, "a \\\" b".toList, by decide, by decide, by decide⟩
  obtain ⟨ms, -, -, -, -, hwritten, -, hspans⟩ := substitute_splices words text
  exact ⟨htext, hspan, ms, hwritten (StateM Nat), hspans htext _ _ _ hspan⟩

end ApiCatalog.Quoting
