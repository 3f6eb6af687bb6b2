import Mathlib.Data.List.Chain
import Mathlib.Logic.Relation
import ApiCatalog.Proofs.Quoting.Turns

/-!
# Substitution within bounds

Whatever the text, the searcher and the replacer, the loops of a substitution never access a text
out of bounds, the search moves on, a retreat looks at ever shorter texts, and the loops end with
what the substitution that counts in characters returns (`loops_in_bounds`).

What one turn keeps is `Loop.Goes.keeps`. What a run keeps follows by induction on the run, and that
it ends by induction on what is left to do.
-/

namespace ApiCatalog.Quoting

open Relation (ReflTransGen TransGen)
open Text (IsBoundary byteLength placeOf placeOf_offsetOf)

variable {n : Type → Type} {text : List Char} {s t : Loop n}

namespace Loop

/-- A later search is from a later offset. A later probe is for a later match, or for the same match
in a shorter text. -/
def Before : Loop n → Loop n → Prop
  | .searching _ offset _, .searching _ later _ => offset < later
  | .probing _ start size _, .probing _ later shorter _ =>
    start < later ∨ start = later ∧ shorter < size
  | _, _ => True

/-- Of two states in bounds, the one from which less is left to do comes later. -/
theorem before_of_left_lt (hs : s.InBounds text) (ht : t.InBounds text)
    (h : t.left text < s.left text) : s.Before t := by
  cases s with
  | searching last offset written =>
    cases t with
    | searching last' later written' =>
      rw [left, left, Prod.Lex.toLex_lt_toLex] at h
      show offset < later
      omega
    | retreating | probing => trivial
  | retreating => cases t <;> trivial
  | probing last start size written =>
    cases t with
    | probing last' later shorter written' =>
      obtain ⟨-, -, -, hstart, -⟩ := hs
      obtain ⟨-, -, -, hlater, -⟩ := ht
      have hstartEnd := hstart.le
      have hlaterEnd := hlater.le
      rw [left, left, Prod.Lex.toLex_lt_toLex] at h
      show start < later ∨ start = later ∧ shorter < size
      omega
    | searching | retreating => trivial

/-! ## Runs -/

variable [Monad n] {engine : ByteSearcher} {replacer : Replacer n}

/-- Before the first turn. -/
def initial : Loop n := .searching 0 0 (pure [])

/-- A turn leads from one state to another. -/
def Goes (engine : ByteSearcher) (replacer : Replacer n) (text : List Char) (s t : Loop n) : Prop :=
  s.turn engine replacer text = some (.goesOn t)

theorem inBounds_initial (text : List Char) : (initial : Loop n).InBounds text := by
  have hzero : IsBoundary text 0 := ⟨[], text, rfl, rfl⟩
  exact ⟨Nat.le_refl 0, hzero, .inl hzero⟩

variable [LawfulMonad n]

theorem outcome_initial (searcher : Searcher) (replacer : Replacer n) (text : List Char) :
    initial.outcome searcher replacer text = substituteM searcher replacer text := by
  have hzero := placeOf_offsetOf text 0
  rw [Text.offsetOf_zero] at hzero
  rw [initial, outcome, andThen_pure_nil, hzero, substituteM]

/-- What a turn keeps, and what it makes less. -/
theorem Goes.keeps (hgoes : s.Goes engine replacer text t) (h : s.InBounds text) :
    t.InBounds text ∧ t.left text < s.left text ∧
      s.outcome engine.searcher replacer text = t.outcome engine.searcher replacer text := by
  have hturn := proceeds_turn engine replacer h
  rw [hgoes] at hturn
  cases hturn with
  | goesOn hbounds hleft houtcome => exact ⟨hbounds, hleft, houtcome⟩

theorem goes_or_ends (engine : ByteSearcher) (replacer : Replacer n) (h : s.InBounds text) :
    (∃ t, s.Goes engine replacer text t) ∨
      s.turn engine replacer text = some (.ends (s.outcome engine.searcher replacer text)) := by
  have hturn := proceeds_turn engine replacer h
  generalize hresult : s.turn engine replacer text = result at hturn
  cases hturn with
  | goesOn => exact .inl ⟨_, hresult⟩
  | ends houtcome => exact .inr (by rw [houtcome])

/-- What a run keeps. -/
theorem keeps_of_reflTransGen (hrun : ReflTransGen (Goes engine replacer text) s t)
    (h : s.InBounds text) :
    t.InBounds text ∧ t.left text ≤ s.left text ∧
      s.outcome engine.searcher replacer text = t.outcome engine.searcher replacer text := by
  induction hrun with
  | refl => exact ⟨h, le_refl _, rfl⟩
  | tail _ hgoes ih =>
    obtain ⟨hbounds, hleft, houtcome⟩ := hgoes.keeps ih.1
    exact ⟨hbounds, hleft.le.trans ih.2.1, ih.2.2.trans houtcome⟩

/-- After at least one turn there is less left to do. -/
theorem left_lt_of_transGen (hrun : TransGen (Goes engine replacer text) s t)
    (h : s.InBounds text) : t.left text < s.left text := by
  obtain ⟨next, hgoes, hrest⟩ := TransGen.head'_iff.1 hrun
  obtain ⟨hbounds, hleft, -⟩ := hgoes.keeps h
  exact (keeps_of_reflTransGen hrest hbounds).2.1.trans_lt hleft

/-- Every run comes to an end. -/
theorem exists_end (engine : ByteSearcher) (replacer : Replacer n) (h : s.InBounds text) :
    ∃ t, ReflTransGen (Goes engine replacer text) s t ∧
      t.turn engine replacer text = some (.ends (s.outcome engine.searcher replacer text)) := by
  induction hleft : s.left text using WellFoundedLT.induction generalizing s with
  | ind left ih =>
    rcases goes_or_ends engine replacer h with ⟨next, hgoes⟩ | hends
    · obtain ⟨hbounds, hless, houtcome⟩ := hgoes.keeps h
      obtain ⟨t, hrun, hends⟩ := ih _ (hleft ▸ hless) hbounds rfl
      exact ⟨t, .head hgoes hrun, houtcome ▸ hends⟩
    · exact ⟨s, .refl, hends⟩

end Loop

/-- The loops of a substitution never access a text out of bounds, and they come to an end. In every
state that they reach, the offsets are boundaries in order, and the turn from there does not fail:
it leads on, or it ends with what the substitution returns. After further turns the search is at a
later offset, and a retreat in a shorter text. -/
theorem loops_in_bounds [Monad n] [LawfulMonad n] (engine : ByteSearcher) (replacer : Replacer n)
    (text : List Char) :
    (∀ s : Loop n, ReflTransGen (Loop.Goes engine replacer text) Loop.initial s →
      s.InBounds text ∧
      ((∃ t, s.Goes engine replacer text t) ∨
        s.turn engine replacer text =
          some (.ends (substituteM engine.searcher replacer text))) ∧
      ∀ t, TransGen (Loop.Goes engine replacer text) s t → s.Before t) ∧
    ∃ s : Loop n, ReflTransGen (Loop.Goes engine replacer text) Loop.initial s ∧
      s.turn engine replacer text =
        some (.ends (substituteM engine.searcher replacer text)) := by
  have hinitial : (Loop.initial : Loop n).InBounds text := Loop.inBounds_initial text
  have hresult := Loop.outcome_initial engine.searcher replacer text
  constructor
  · intro s hrun
    obtain ⟨hbounds, -, houtcome⟩ := Loop.keeps_of_reflTransGen hrun hinitial
    rw [← hresult, houtcome]
    refine ⟨hbounds, Loop.goes_or_ends engine replacer hbounds, fun t hlater => ?_⟩
    have ht := (Loop.keeps_of_reflTransGen (hrun.trans hlater.to_reflTransGen) hinitial).1
    exact Loop.before_of_left_lt hbounds ht (Loop.left_lt_of_transGen hlater hbounds)
  · rw [← hresult]
    exact Loop.exists_end engine replacer hinitial

/-- A character of two bytes is replaced, then the empty match after it, which a retreat falls back
to. The quoted text is passed over, and the last match is the empty one at the end. -/
theorem loops_in_bounds_wideChars :
    let text := "é\"ü\"".toList
    let searcher := (Pattern.many (· != 'ü')).searcher
    let bracketed : Replacement := fun captures => '<' :: captures.text 0 ++ ['>']
    let goes := Loop.Goes searcher.inBytes bracketed.replacer text
    let later : List (Loop Id) :=
      [.retreating 0 0 3 [], .probing 0 0 2 [], .searching 2 2 "<é>".toList,
        .retreating 2 2 3 "<é>".toList, .probing 2 2 2 "<é>".toList,
        .searching 2 3 "<é><>".toList, .searching 2 5 "<é><>".toList,
        .searching 2 6 "<é><>".toList, .searching 6 7 "<é><>\"ü\"<>".toList]
    (Loop.initial :: later).IsChain goes ∧ (∀ s ∈ later, s.InBounds text) ∧
      substitute searcher bracketed text = "<é><>\"ü\"<>".toList := by
  intro text searcher bracketed goes later
  obtain ⟨hreached, -⟩ := loops_in_bounds searcher.inBytes bracketed.replacer text
  have hrun : (Loop.initial :: later).IsChain goes := by
    subst later goes bracketed searcher text
    exact .cons_cons rfl (.cons_cons rfl (.cons_cons rfl (.cons_cons rfl (.cons_cons rfl
      (.cons_cons rfl (.cons_cons rfl (.cons_cons rfl (.cons_cons rfl (.singleton _)))))))))
  have hends : Loop.turn searcher.inBytes bracketed.replacer text
      (.searching 6 7 "<é><>\"ü\"<>".toList) = some (.ends "<é><>\"ü\"<>".toList) := by
    subst later goes bracketed searcher text
    rfl
  have hlater : ∀ s ∈ later, ReflTransGen goes Loop.initial s := fun s =>
    List.rel_of_pairwise_cons (hrun.imp fun _ _ => ReflTransGen.single).pairwise
  refine ⟨hrun, fun s hs => (hreached s (hlater s hs)).1, ?_⟩
  have hlast : .searching 6 7 "<é><>\"ü\"<>".toList ∈ later := by simp [later]
  rcases (hreached _ (hlater _ hlast)).2.1 with ⟨t, hgoes⟩ | hresult
  · rw [Loop.Goes, hends] at hgoes
    cases hgoes
  · rw [hends, Searcher.searcher_inBytes] at hresult
    exact (Turn.ends.inj (Option.some.inj hresult)).symm

end ApiCatalog.Quoting
