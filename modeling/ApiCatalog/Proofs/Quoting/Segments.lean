import ApiCatalog.Proofs.Pattern.Cut
import ApiCatalog.Proofs.Pattern.Runs
import ApiCatalog.Proofs.Quoting.Rewriting
import ApiCatalog.Proofs.Quoting.Spans

/-!
# Substitution between the literals

A text whose real quotes pair up is made of its literals and of segments without real quotes between
them (`Segments`). If the matches of a pattern are never empty and hold no quote, the substitution
replaces the matches of each segment as if there were nothing else, and copies the literals
(`substitute_joined`).

Two things make it so. A match in a segment ends before the quote that follows the segment, and is
therefore found in the segment alone. None starts at a quote, so none runs into a literal, and none
that starts inside a literal is replaced.
-/

namespace ApiCatalog.Quoting

/-! ## Segments -/

/-- The text `o ++ l₁ ++ o₁ ++ l₂ ++ o₂ ++ …` of the parts `(l₁, o₁), (l₂, o₂), …`. -/
def joined (o : List Char) (parts : List (List Char × List Char)) : List Char :=
  o ++ parts.flatMap fun part => part.1 ++ part.2

/-- `o` and the second components of the parts are segments without real quotes, and the first
components are the literals between them. -/
inductive Segments : List Char → List (List Char × List Char) → Prop where
  | last {o : List Char} (ho : ∀ mark ∈ marks o, mark = false) : Segments o []
  | literal {o l next : List Char} {parts : List (List Char × List Char)} (ho : IsBody o)
      (hl : IsLiteral l) (rest : Segments next parts) : Segments o ((l, next) :: parts)

variable {o l next : List Char} {parts : List (List Char × List Char)}

theorem joined_cons : joined o ((l, next) :: parts) = o ++ (l ++ joined next parts) := by
  simp [joined]

/-- A text whose real quotes pair up is cut at its first literal, and so on. -/
theorem exists_segments {text : List Char} (h : pairsUp false text = true) :
    ∃ o parts, Segments o parts ∧ text = joined o parts := by
  rcases exists_first_quote false text with hnone | hfirst
  · exact ⟨text, [], .last hnone, by simp [joined]⟩
  · obtain ⟨o, rest, htext, hm, he⟩ := hfirst
    have hodd : pairsUp false rest = false := by
      rw [htext, pairsUp_append, pairsUp_of_no_quotes hm, he, pairsUp_cons] at h
      simpa using h
    obtain ⟨body, after, hclose, hmbody, hebody, hafter⟩ := exists_closing_quote hodd
    obtain ⟨next, parts, hparts, hjoined⟩ := exists_segments hafter
    refine ⟨o, ('"' :: (body ++ ['"']), next) :: parts, ?_, ?_⟩
    · exact .literal ⟨hm, he⟩ ⟨body, rfl, hmbody, hebody⟩ hparts
    · rw [joined_cons, ← hjoined, htext, hclose]
      simp
termination_by text.length
decreasing_by
  rw [htext, hclose]
  simp
  omega

/-- No literal is found before the first real quote. -/
theorem literalsFrom_no_quotes {escaped : Bool}
    (ho : ∀ mark ∈ marksAfter escaped o, mark = false) (rest : List (Char × Bool)) :
    literalsFrom none (o.zip (marksAfter escaped o) ++ rest) = literalsFrom none rest := by
  induction o generalizing escaped with
  | nil => rfl
  | cons c cs ih =>
    simp only [marksAfter, List.mem_cons, forall_eq_or_imp] at ho
    simp [marksAfter, ho.1, literalsFrom, ih ho.2]

namespace Segments

theorem pairsUp (h : Segments o parts) : Quoting.pairsUp false (joined o parts) = true := by
  induction h with
  | last ho => simpa [joined] using pairsUp_of_no_quotes ho
  | literal ho hl _ ih =>
    rw [joined_cons, pairsUp_append, pairsUp_append, pairsUp_of_no_quotes ho.1, ho.2, hl.pairsUp,
      hl.escapedAfter, ih]
    rfl

theorem no_quotes (h : Segments o parts) : ∀ mark ∈ marks o, mark = false := by
  cases h with
  | last ho => exact ho
  | literal ho => exact ho.1

theorem no_quotes_of_mem (h : Segments o parts) {part : List Char × List Char}
    (hpart : part ∈ parts) : ∀ mark ∈ marks part.2, mark = false := by
  induction h with
  | last => simp at hpart
  | literal _ _ hrest ih =>
    rcases List.mem_cons.1 hpart with rfl | hpart
    · exact hrest.no_quotes
    · exact ih hpart

/-- The literals between the segments are those that are found in the text. -/
theorem literals_eq (h : Segments o parts) : literals (joined o parts) = parts.map Prod.fst := by
  induction h with
  | last ho =>
    have hnone := literalsFrom_no_quotes ho []
    simpa [joined, literals, marks, literalsFrom] using hnone
  | @literal o l next parts ho hl _ ih =>
    rw [joined_cons, literals, Parted.zip_marks_append, marks, literalsFrom_no_quotes ho.1, ho.2]
    exact (Parted.literals_append_of_isLiteral hl _).trans (by rw [ih]; rfl)

end Segments

/-! ## Matches without quotes -/

/-- The matches of a pattern are never empty and have no quote in them. -/
def QuoteFree (p : Pattern) : Prop :=
  ∀ text place m, p.find? text place = some m →
    m.start < m.stop ∧ '"' ∉ slice text m.start m.stop

variable {p : Pattern} {replacement : Replacement} {escaped : Bool} {rest text : List Char}
variable {m : Match}

/-- That the matches of a pattern have no quote in them is read off the classes of its characters. -/
theorem quoteFree_of_classes (hp : p.consumes = true)
    (hquote : ∀ member ∈ p.classes, member '"' = false) : QuoteFree p := by
  intro text place m h
  rw [Pattern.find?] at h
  split at h
  · rename_i hplace
    obtain ⟨before, after, htext, hm⟩ := Pattern.exists_matchHere?_of_searchFrom? h
    obtain ⟨t, ht, rfl⟩ := Pattern.exists_run_of_matchHere? hm
    obtain ⟨between, hafter, hposition, hclasses⟩ := Pattern.consumed_of_mem_runs ht
    refine ⟨Pattern.lt_of_mem_runs hp ht, fun hmem => ?_⟩
    have hparts : text = (text.take place ++ before) ++ (between ++ t.rest) := by
      rw [List.append_assoc, ← hafter, ← htext, List.take_append_drop]
    have hlen : (text.take place ++ before).length = place + before.length := by
      rw [List.length_append, List.length_take_of_le hplace]
    have hslice : slice text (place + before.length) t.position = between := by
      have hmiddle := slice_middle (text.take place ++ before) between t.rest
      rwa [← hparts, hlen, ← hposition] at hmiddle
    rw [hslice] at hmem
    obtain ⟨member, hmember, htrue⟩ := hclasses '"' hmem
    rw [hquote member hmember] at htrue
    exact absurd htrue (by decide)
  · simp at h

theorem QuoteFree.of_matchHere? (hp : QuoteFree p) (h : p.matchHere? text 0 = some m) :
    m.stop ≠ 0 ∧ '"' ∉ text.take m.stop := by
  have hstart := (Pattern.matchHere?_inside h).1
  have hfind : p.find? ([] ++ text) 0 = some (m.moved 0) := find?_of_some h
  obtain ⟨hlt, hquote⟩ := hp text 0 _ hfind
  simp only [Match.moved, hstart, slice] at hlt hquote
  refine ⟨by omega, ?_⟩
  simpa using hquote

/-- No match starts at a quote. -/
theorem QuoteFree.matchHere?_quote (hp : QuoteFree p) :
    p.matchHere? ('"' :: text) 0 = none := by
  refine Option.eq_none_iff_forall_ne_some.2 fun m hm => ?_
  obtain ⟨hne, hquote⟩ := hp.of_matchHere? hm
  obtain ⟨k, hk⟩ := Nat.exists_eq_succ_of_ne_zero hne
  exact hquote (by simp [hk])

/-- A match of a text that goes on with a quote ends before that quote. -/
theorem QuoteFree.stop_le (hp : QuoteFree p) (hrest : rest = [] ∨ ∃ more, rest = '"' :: more)
    (h : p.matchHere? (o ++ rest) 0 = some m) : m.stop ≤ o.length := by
  rcases hrest with rfl | ⟨more, rfl⟩
  · have := Pattern.matchHere?_inside h
    simp only [List.append_nil] at this
    omega
  · refine Nat.not_lt.1 fun hlt => (hp.of_matchHere? h).2 ?_
    obtain ⟨k, hk⟩ := Nat.exists_eq_add_of_lt hlt
    rw [show m.stop = o.length + (k + 1) by omega, List.take_length_add_append]
    simp

/-- A stretch without real quotes has none behind any of its places. -/
theorem no_quotes_drop (ho : ∀ mark ∈ marksAfter escaped o, mark = false) (count : Nat) :
    ∀ mark ∈ marksAfter (escapedAfter escaped (o.take count)) (o.drop count), mark = false := by
  intro mark hmark
  refine ho mark ?_
  rw [← List.take_append_drop count o, marksAfter_append]
  exact List.mem_append_right _ hmark

/-- What is replaced at the start of a segment, whatever literals follow. -/
theorem settleHere?_segment (hp : QuoteFree p) (hcut : p.unanchored = true)
    (ho : ∀ mark ∈ marksAfter escaped o, mark = false)
    (hrest : rest = [] ∨ ∃ more, rest = '"' :: more)
    (hpairs : pairsUp (escapedAfter escaped o) rest = true) :
    settleHere? p escaped (o ++ rest) = p.matchHere? o 0 := by
  have hstart : pairsUp escaped (o ++ rest) = true := by
    rw [pairsUp_append, pairsUp_of_no_quotes ho, hpairs]
    rfl
  rw [settleHere?, if_pos hstart,
    Pattern.matchHere?_append hcut fun m hm => hp.stop_le hrest hm]
  cases hm : p.matchHere? o 0 with
  | none => rfl
  | some m =>
    have hin := Pattern.matchHere?_inside hm
    have hend : outsideAt escaped (o ++ rest) m.stop = true := by
      rw [outsideAt, List.take_append_of_le_length (by omega),
        List.drop_append_of_le_length (by omega), pairsUp_append, ← escapedAfter_append,
        List.take_append_drop, hpairs, pairsUp_of_no_quotes (no_quotes_drop ho m.stop)]
      rfl
    exact if_pos hend

/-- The start of a text is rewritten as it would be on its own if it is a segment. -/
theorem rewrite_segment (hp : QuoteFree p) (hcut : p.unanchored = true)
    (ho : ∀ mark ∈ marksAfter escaped o, mark = false)
    (hrest : rest = [] ∨ ∃ more, rest = '"' :: more)
    (hpairs : pairsUp (escapedAfter escaped o) rest = true) :
    rewrite p replacement escaped (o ++ rest) =
      rewrite p replacement escaped o ++ rewrite p replacement (escapedAfter escaped o) rest := by
  induction hlen : o.length using Nat.strongRecOn generalizing o escaped with
  | ind len ih =>
    have hwhole := settleHere?_segment hp hcut ho hrest hpairs
    have halone : settleHere? p escaped o = p.matchHere? o 0 := by
      have := settleHere?_segment hp hcut ho (.inl rfl) (pairsUp_nil _)
      rwa [List.append_nil] at this
    cases hm : p.matchHere? o 0 with
    | none =>
      rw [hm] at hwhole halone
      cases o with
      | nil => rw [rewrite_nil_of_none halone, List.nil_append, List.nil_append, escapedAfter_nil]
      | cons c cs =>
        simp only [marksAfter, List.mem_cons, forall_eq_or_imp] at ho
        rw [List.length_cons] at hlen
        have hcs := ih cs.length (by omega) ho.2 hpairs rfl
        rw [List.cons_append] at hwhole ⊢
        rw [rewrite_of_none hwhole, rewrite_of_none halone, hcs, List.cons_append,
          escapedAfter_cons]
    | some m =>
      rw [hm] at hwhole halone
      have hne := (hp.of_matchHere? hm).1
      have hin := Pattern.matchHere?_inside hm
      have hle : m.stop ≤ o.length := by omega
      have hescaped : escapedAfter (escapedAfter escaped (o.take m.stop)) (o.drop m.stop) =
          escapedAfter escaped o := by rw [← escapedAfter_append, List.take_append_drop]
      have hafter := ih (o.drop m.stop).length (by rw [List.length_drop]; omega)
        (no_quotes_drop ho m.stop) (by rwa [hescaped]) rfl
      rw [rewrite_of_some hwhole hne, rewrite_of_some halone hne, captures_append hm,
        List.take_append_of_le_length hle, List.drop_append_of_le_length hle, hafter, hescaped,
        List.append_assoc]

/-- Segment by segment: the literals between the segments are copied. -/
theorem rewrite_joined (hp : QuoteFree p) (hcut : p.unanchored = true) (h : Segments o parts) :
    rewrite p replacement false (joined o parts) =
      rewrite p replacement false o ++
        parts.flatMap fun part => part.1 ++ rewrite p replacement false part.2 := by
  induction h with
  | last => simp [joined]
  | @literal o l next parts ho hl hrest ih =>
    have hpairs : pairsUp false (l ++ joined next parts) = true := by
      rw [pairsUp_append, hl.pairsUp, hl.escapedAfter, hrest.pairsUp]
      rfl
    have hquote : ∃ more, l ++ joined next parts = '"' :: more := by
      obtain ⟨body, rfl, -⟩ := hl
      exact ⟨_, rfl⟩
    have hopen : settleHere? p false (l ++ joined next parts) = none := by
      obtain ⟨more, hmore⟩ := hquote
      rw [hmore]
      exact settleHere?_of_none hp.matchHere?_quote
    rw [joined_cons, rewrite_segment hp hcut ho.1 (.inr hquote) (by rwa [ho.2]), ho.2,
      rewrite_literal_of_none hl hrest.pairsUp hopen, ih]
    simp

/-! ## Replacing everything -/

/-- Where every place is outside quotes and no match is empty, the matches that are replaced are all
that are found from left to right. -/
theorem Replaces.eq_matchesFrom {searcher : Searcher} {ms : List Match} {place : Nat}
    (h : Replaces searcher text place ms) (hplaces : ∀ place, isUnquoted text place = true)
    (hmatches : ∀ place m, searcher.find? text place = some m → m.start < m.stop)
    (previous : Option Nat) : matchesFrom searcher text previous place = ms := by
  induction h generalizing previous with
  | done hnone => exact matchesFrom_of_none hnone
  | passed _ _ hsettle => simp [settle?, hplaces] at hsettle
  | @replaced place found m ms hplace hfind hsettle _ ih =>
    obtain rfl : found = m := by simpa [settle?, hplaces] using hsettle
    have hlt := hmatches place found hfind
    have hresume : resume found = found.stop := if_pos hlt
    rw [hresume] at ih
    rw [matchesFrom_of_some hfind hplace hlt, ih]

/-- Without real quotes every place of a text is outside quotes. -/
theorem isUnquoted_of_no_quotes (h : ∀ mark ∈ marks text, mark = false) (place : Nat) :
    isUnquoted text place = true := by
  have hcount : ((marks text).drop place).count true = 0 :=
    List.count_eq_zero.2 fun hmem => absurd (h true (List.mem_of_mem_drop hmem)) (by decide)
  rw [isUnquoted, quotesFrom, hcount]
  rfl

/-- In a text without real quotes the substitution replaces all matches. -/
theorem substitute_eq_replaceAll {searcher : Searcher} (h : ∀ mark ∈ marks text, mark = false)
    (hmatches : ∀ place m, searcher.find? text place = some m → m.start < m.stop) :
    substitute searcher replacement text = replaceAll searcher replacement text := by
  obtain ⟨ms, hms⟩ := exists_replaces searcher text 0
  rw [hms.substitute_eq, replaceAll, hms.eq_matchesFrom (isUnquoted_of_no_quotes h) hmatches none]

/-- A substitution whose matches are never empty and have no quote in them replaces all matches of
each segment and copies the literals between them. -/
theorem substitute_joined (hp : QuoteFree p) (hcut : p.unanchored = true) (h : Segments o parts) :
    substitute p.searcher replacement (joined o parts) =
      replaceAll p.searcher replacement o ++
        parts.flatMap fun part => part.1 ++ replaceAll p.searcher replacement part.2 := by
  have hsegment : ∀ o, (∀ mark ∈ marks o, mark = false) →
      rewrite p replacement false o = replaceAll p.searcher replacement o := by
    intro o ho
    rw [← substitute_eq_rewrite]
    exact substitute_eq_replaceAll ho fun place m hm => (hp o place m hm).1
  have hparts : ∀ part ∈ parts, part.1 ++ rewrite p replacement false part.2 =
      part.1 ++ replaceAll p.searcher replacement part.2 := by
    intro part hpart
    rw [hsegment part.2 (h.no_quotes_of_mem hpart)]
  rw [substitute_eq_rewrite, rewrite_joined hp hcut h, hsegment o h.no_quotes,
    flatMap_congr hparts]

end ApiCatalog.Quoting
