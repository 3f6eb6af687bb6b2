import ApiCatalog.Proofs.Response.Stages

/-!
# Typed objects and their braces

The pattern of a typed object does not count braces. It takes the first two colons that a brace
follows and all the text from there to the last closing brace that is no part of a literal, so of
several typed objects only the first is expanded, and it ends where the last object of the text
does (`Layout.expandTypedObjects`). A text without typed objects is kept.
-/

namespace ApiCatalog.Response

open ApiCatalog.Json (Punctuation)
open ApiCatalog.Pattern
open ApiCatalog.Quoting
open ApiCatalog.Text

/-! ## The greedy match -/

/-- What the pattern of a typed object has after two colons and blanks: braces. -/
def braced : Pattern := .seq (.only '\x7b') (.seq (.group 1 (.many (· ≠ '\n'))) (.only '\x7d'))

theorem refuses_braced {c : Char} {cs : List Char} (h : c ≠ '\x7b') : Refuses braced (c :: cs) := by
  intro i g next
  rw [braced, first, first_only_cons, if_neg h]

section Greedy

variable {b body tail v : List Char}

/-- A text in which a typed object opens is matched up to its last closing brace. -/
theorem matchHere?_typedObject (hb : Gap isSpace b) (hbody : ∀ c ∈ body, c ≠ '\n')
    (hlast : '\x7d' ∉ tail) :
    typedObject.matchHere? ("::".toList ++ (b ++ ('\x7b' :: (body ++ '\x7d' :: tail)))) 0 =
      some (typedObjectMatch b body) := by
  rw [matchHere?]
  show first (.seq (literal "::".toList) (.seq blanks braced)) _ _ = _
  rw [first, first_literal, first_blanks hb.isGap (stops_cons.2 (by decide))
    fun i c cs hc => refuses_braced (ne_of_isBlank hc (by decide)) _ _ _,
    braced, first, first_only_cons, if_pos rfl, first, first]
  refine first_many_of_last (by simpa using hbody) ?_ ?_
  · intro a w haw hne j
    -- the last brace is behind, so no other one follows
    have hw : ∀ d ∈ w.head?, d ≠ '\x7d' := by
      rintro d hd rfl
      obtain ⟨ds, rfl⟩ : ∃ ds, w = '\x7d' :: ds := by
        cases w with
        | nil => simp at hd
        | cons e ds => exact ⟨ds, by simpa using hd⟩
      cases a with
      | nil => exact hne rfl
      | cons e a =>
        obtain ⟨rfl, rfl⟩ := List.cons.inj haw
        exact hlast (by simp)
    cases w with
    | nil => rfl
    | cons d ds => exact (first_only_cons _ _ _).trans (if_neg (hw d rfl))
  · simp [first_only_cons, Cursor.remember, typedObjectMatch]

/-- A text in which a typed object opens, up to a closing brace and what follows it. -/
def openedText (b body tail : List Char) : List Char :=
  "::".toList ++ (b ++ ('\x7b' :: (body ++ '\x7d' :: tail)))

theorem openedText_cut (b body tail : List Char) :
    openedText b body tail = ("::".toList ++ (b ++ '\x7b' :: body)) ++ '\x7d' :: tail := by
  simp [openedText]

theorem openedText_append (b body a v : List Char) :
    openedText b body (a ++ '\x7d' :: v) = openedText b (body ++ '\x7d' :: a) v := by
  rw [openedText_cut, openedText_cut]
  simp

theorem openedText_eq (b body tail : List Char) :
    openedText b body tail = openedText b body [] ++ tail := by
  rw [openedText_cut b body tail, openedText_cut b body [], List.append_assoc _ ['\x7d'] tail]
  rfl

theorem length_openedText (b body : List Char) :
    (typedObjectMatch b body).stop = (openedText b body []).length := by
  rw [openedText_cut]
  simp [typedObjectMatch]
  omega

theorem escapedAfter_openedText (b body : List Char) :
    escapedAfter false (openedText b body []) = false := by
  rw [openedText_cut, escapedAfter_append]
  rfl

/-- Whether a place after a closing brace is outside quotes depends on what follows only. -/
theorem outsideAt_openedText (b body tail : List Char) :
    outsideAt false (openedText b body tail) (typedObjectMatch b body).stop =
      pairsUp false tail := by
  rw [outsideAt, length_openedText, openedText_eq b body tail, List.take_left, List.drop_left,
    escapedAfter_openedText]

theorem take_openedText {n : Nat} (hn : (typedObjectMatch b body).stop ≤ n) :
    (openedText b body tail).take n =
      openedText b body (tail.take (n - (typedObjectMatch b body).stop)) := by
  rw [openedText_eq b body tail, openedText_eq b body (tail.take _), List.take_append,
    List.take_of_length_le (length_openedText b body ▸ hn), length_openedText]

/-- Every `d` of the text stands inside a literal. -/
def Enclosed (d : Char) (text : List Char) : Prop :=
  ∀ a v, text = a ++ d :: v → pairsUp false v = false

theorem exists_last_brace (h : '\x7d' ∈ v) :
    ∃ a w, v = a ++ '\x7d' :: w ∧ '\x7d' ∉ w := by
  induction v with
  | nil => simp at h
  | cons c v ih =>
    by_cases hlater : '\x7d' ∈ v
    · obtain ⟨a, w, rfl, hw⟩ := ih hlater
      exact ⟨c :: a, w, rfl, hw⟩
    · obtain rfl : '\x7d' = c := (List.mem_cons.1 h).resolve_right hlater
      exact ⟨[], v, rfl, hlater⟩

/-- From any place behind it, a retreat ends at the last closing brace that is in no literal. -/
theorem retreatHere?_typedObject (hb : Gap isSpace b) (hbody : ∀ c ∈ body, c ≠ '\n')
    (hlines : ∀ c ∈ tail, c ≠ '\n') (htail : pairsUp false tail = true)
    (henclosed : Enclosed '\x7d' tail) {stop : Nat} (hstop : (typedObjectMatch b body).stop < stop) :
    retreatHere? typedObject false (openedText b body tail) stop =
      some (typedObjectMatch b body) := by
  induction stop using Nat.strongRecOn with
  | ind stop ih =>
    have htake : (openedText b body tail).take (stop - 1) = openedText b body
        (tail.take (stop - 1 - (typedObjectMatch b body).stop)) :=
      take_openedText (Nat.le_sub_one_of_lt hstop)
    by_cases hlast : '\x7d' ∈ tail.take (stop - 1 - (typedObjectMatch b body).stop)
    · -- the match ends at a brace inside a literal, and the retreat goes on before it
      obtain ⟨a, w, hcut, hw⟩ := exists_last_brace hlast
      have htext :
          tail = a ++ '\x7d' :: (w ++ tail.drop (stop - 1 - (typedObjectMatch b body).stop)) := by
        rw [← List.cons_append, ← List.append_assoc, ← hcut, List.take_append_drop]
      have ha : ∀ c ∈ body ++ '\x7d' :: a, c ≠ '\n' := by
        intro c hc
        rcases List.mem_append.1 hc with hc | hc
        · exact hbody c hc
        · rcases List.mem_cons.1 hc with rfl | hc
          · decide
          · exact hlines c (by rw [htext]; simp [hc])
      have hmatch : typedObject.matchHere? ((openedText b body tail).take (stop - 1)) 0 =
          some (typedObjectMatch b (body ++ '\x7d' :: a)) := by
        rw [htake, hcut, openedText_append]
        exact matchHere?_typedObject hb ha hw
      have hinside : outsideAt false (openedText b body tail)
          (typedObjectMatch b (body ++ '\x7d' :: a)).stop = false := by
        rw [htext, openedText_append, outsideAt_openedText]
        exact henclosed a _ htext
      have hle := (Pattern.matchHere?_inside hmatch).2.2
      rw [List.length_take] at hle
      have hgrow :
          (typedObjectMatch b body).stop < (typedObjectMatch b (body ++ '\x7d' :: a)).stop := by
        simp [typedObjectMatch]
      rw [retreatHere?_of_some (by omega) hmatch, hinside]
      exact ih _ (by omega) hgrow
    · have hmatch : typedObject.matchHere? ((openedText b body tail).take (stop - 1)) 0 =
          some (typedObjectMatch b body) := by
        rw [htake]
        exact matchHere?_typedObject hb hbody hlast
      have houtside :
          outsideAt false (openedText b body tail) (typedObjectMatch b body).stop = true := by
        rw [outsideAt_openedText, htail]
      rw [retreatHere?_of_some (by omega) hmatch, if_pos houtside]

/-- What is settled on is what a retreat from behind the text would find. -/
theorem settleHere?_eq_retreatHere? {p : Pattern} {escaped : Bool} {text : List Char}
    (h : pairsUp escaped text = true) :
    settleHere? p escaped text = retreatHere? p escaped text (text.length + 1) := by
  rw [settleHere?, if_pos h]
  have htake : text.take (text.length + 1 - 1) = text := List.take_length
  cases hm : p.matchHere? text 0 with
  | none => rw [retreatHere?_of_none (by rw [htake, hm])]
  | some m => rw [retreatHere?_of_some (by omega) (by rw [htake, hm])]

theorem settleHere?_typedObject (hb : Gap isSpace b) (hbody : ∀ c ∈ body, c ≠ '\n')
    (hlines : ∀ c ∈ tail, c ≠ '\n') (hpaired : pairsUp false (openedText b body tail) = true)
    (htail : pairsUp false tail = true) (henclosed : Enclosed '\x7d' tail) :
    settleHere? typedObject false (openedText b body tail) = some (typedObjectMatch b body) := by
  rw [settleHere?_eq_retreatHere? hpaired]
  refine retreatHere?_typedObject hb hbody hlines htail henclosed ?_
  rw [openedText_eq, List.length_append, length_openedText]
  omega

end Greedy

/-! ## Text that is kept -/

section Kept

variable {l : Phrase} {ls : List Phrase} {b s t u v w text : List Char}

theorem typedObject_none_of_char {c : Char} {cs : List Char} (h : c ≠ ':') :
    typedObject.matchHere? (c :: cs) 0 = none := by
  rw [matchHere?]
  show first (.seq (literal (':' :: [':'])) _) _ _ = _
  rw [first, first_literal_of_ne h]

theorem typedObject_none_of_colon (h : NoColon v) :
    typedObject.matchHere? (':' :: v) 0 = none := by
  cases hm : typedObject.matchHere? (':' :: v) 0 with
  | none => rfl
  | some m =>
    obtain ⟨b, body, v', htext, -⟩ := typedObject_matches hm
    obtain ⟨-, rfl⟩ := List.cons.inj htext
    exact absurd rfl (noColon_cons.1 h)

/-- Two colons before a word open no object. -/
theorem typedObject_none_of_word (hb : Gap isSpace b) (hw : IsWord w) :
    typedObject.matchHere? ("::".toList ++ (b ++ (w ++ v))) 0 = none := by
  obtain ⟨c, cs, rfl⟩ := List.exists_cons_of_ne_nil hw.1
  have hc : isWordChar c = true := hw.2 c (by simp)
  rw [matchHere?]
  show first (.seq (literal "::".toList) (.seq blanks braced)) _ _ = _
  rw [List.cons_append, first, first_literal, first_blanks hb.isGap
    (stops_isBlank_of_isWordChar hc) fun i d ds hd =>
      refuses_braced (ne_of_isBlank hd (by decide)) _ _ _]
  exact refuses_braced (ne_of_isWordChar hc (by decide)) _ _ _

theorem rewrite_typedObject_copy (hu : ∀ c ∈ u, IsPlain c) (hcolon : ∀ c ∈ u, c ≠ ':') :
    rewrite typedObject typedObjectText false (u ++ v) =
      u ++ rewrite typedObject typedObjectText false v :=
  rewrite_copy_of_refused hu fun c hc _ => typedObject_none_of_char (hcolon c hc)

theorem rewrite_typedObject_word (hw : IsWord w) (v : List Char) :
    rewrite typedObject typedObjectText false (w ++ v) =
      w ++ rewrite typedObject typedObjectText false v :=
  rewrite_typedObject_copy hw.isPlain fun c hc => ne_of_isWordChar (hw.2 c hc) (by decide)

theorem rewrite_typedObject_gap (hb : Gap isSpace b) (v : List Char) :
    rewrite typedObject typedObjectText false (b ++ v) =
      b ++ rewrite typedObject typedObjectText false v :=
  rewrite_typedObject_copy hb.isPlain fun c hc => ne_of_isBlank (hb.isGap c hc) (by decide)

theorem rewrite_typedObject_phrase (hu : l.Writes isSpace u) (hl : l.spelled = true)
    (hne : l ≠ .typedOpen) (hcolon : l.endsInColon = true → NoColon text)
    (htext : pairsUp false text = true) :
    rewrite typedObject typedObjectText false (u ++ text) =
      u ++ rewrite typedObject typedObjectText false text := by
  cases hu with
  | mark p =>
    refine rewrite_char (isPlain_markChar p).2 ?_
    by_cases hp : p = .colon
    · subst hp
      exact typedObject_none_of_colon (hcolon rfl)
    · refine typedObject_none_of_char ?_
      cases p <;> first | exact absurd rfl hp | decide
  | word w => exact rewrite_typedObject_word w.isWord text
  | negative w =>
    rw [List.cons_append, rewrite_char (by decide) (typedObject_none_of_char (by decide)),
      rewrite_typedObject_word w.isWord]
    rfl
  | literal l =>
    exact rewrite_literal l.isLiteral (fun t => typedObject_none_of_char (by decide)) htext
  | @namedType t b hb =>
    have hnocolon : NoColon (b ++ (t.chars ++ text)) := by
      obtain ⟨c, cs, hcs⟩ := List.exists_cons_of_ne_nil t.isWord.1
      refine hb.noColon ?_
      rw [hcs]
      exact noColon_of_isWordChar (t.isWord.2 c (by simp [hcs]))
    simp only [List.append_assoc]
    show rewrite typedObject typedObjectText false (':' :: ':' :: (b ++ (t.chars ++ text))) = _
    have hfirst : typedObject.matchHere? (':' :: ':' :: (b ++ (t.chars ++ text))) 0 = none :=
      typedObject_none_of_word hb t.isWord
    rw [rewrite_char (by decide) hfirst,
      rewrite_char (by decide) (typedObject_none_of_colon hnocolon), rewrite_typedObject_gap hb,
      rewrite_typedObject_word t.isWord]
    rfl
  | typedOpen hb => exact absurd rfl hne
  | _ => exact absurd hl (by simp [Phrase.spelled])

/-- A row in which no typed object opens is kept. -/
theorem Layout.copy (h : Layout isSpace ls s) (hspelled : ∀ l ∈ ls, l.spelled = true)
    (hopen : .typedOpen ∉ ls) (hcolon : ∀ l ∈ ls.getLast?, l.endsInColon = true → NoColon t)
    (ht : Quoting.pairsUp false t = true) :
    Quoting.rewrite typedObject typedObjectText false (s ++ t) =
      s ++ Quoting.rewrite typedObject typedObjectText false t := by
  induction h with
  | nil hb => exact rewrite_typedObject_gap hb t
  | @cons l ls b u s hb hu hl rest ih =>
    have hpaired : Quoting.pairsUp false (s ++ t) = true := by
      obtain ⟨ks, hks⟩ := rest.parted
      rw [pairsUp_append, hks.pairsUp, hks.escapedAfter, ht]
      rfl
    have hnext : l.endsInColon = true → NoColon (s ++ t) := by
      intro hend
      refine (hl hend).append ?_
      intro hs
      subst hs
      obtain rfl := rest.eq_nil
      exact hcolon l (by simp) hend
    rw [List.append_assoc, List.append_assoc, rewrite_typedObject_gap hb,
      rewrite_typedObject_phrase hu (hspelled l (by simp)) (fun h => hopen (by simp [h])) hnext
        hpaired,
      ih (fun k hk => hspelled k (by simp [hk])) (fun h => hopen (by simp [h])) fun k hk => hcolon k ?_,
      List.append_assoc, List.append_assoc]
    rw [List.getLast?_cons, Option.mem_def.1 hk]
    rfl

theorem Layout.rewrite_typedObject_self (h : Layout isSpace ls text)
    (hspelled : ∀ l ∈ ls, l.spelled = true) (hopen : .typedOpen ∉ ls) :
    Quoting.rewrite typedObject typedObjectText false text = text := by
  have hnil : Quoting.rewrite typedObject typedObjectText false [] = [] :=
    rewrite_nil_of_none (settleHere?_of_none rfl)
  have := h.copy (t := []) hspelled hopen (fun _ _ _ => noColon_nil) rfl
  rwa [hnil, List.append_nil] at this

/-! ## Closing braces in literals -/

theorem Literal.solid_or_space (l : Literal) : ∀ c ∈ l.text, c ≠ '\n' := by
  intro c hc
  rcases List.mem_cons.1 hc with rfl | hc
  · decide
  · rcases List.mem_append.1 hc with hc | hc
    · intro heq
      subst heq
      exact absurd (l.tidy.spaces _ hc (by decide)) (by decide)
    · rw [List.mem_singleton.1 hc]
      decide

/-- The text of a row lies on one line. -/
theorem Layout.oneLine (h : Layout isSpace ls text) : ∀ c ∈ text, c ≠ '\n' := by
  have hgap : ∀ {b}, Gap isSpace b → ∀ c ∈ b, c ≠ '\n' := by
    intro b hb c hc
    rw [eq_of_beq (hb c hc)]
    decide
  have hword : ∀ w : Word, ∀ c ∈ w.chars, c ≠ '\n' := fun w c hc =>
    ne_of_isWordChar (w.isWord.2 c hc) (by decide)
  have happend : ∀ {a v : List Char}, (∀ c ∈ a, c ≠ '\n') → (∀ c ∈ v, c ≠ '\n') →
      ∀ c ∈ a ++ v, c ≠ '\n' := fun ha hv c hc => (List.mem_append.1 hc).elim (ha c) (hv c)
  induction h with
  | nil hb => exact hgap hb
  | cons hb hu _ _ ih =>
    refine happend (hgap hb) (happend ?_ ih)
    have hcolons : ∀ c ∈ "::".toList, c ≠ '\n' := by simp
    cases hu with
    | mark p => cases p <;> simp [markChar]
    | word w => exact hword w
    | negative w => exact happend (a := ['-']) (by simp) (hword w)
    | literal l => exact l.solid_or_space
    | listType t => exact happend (hword t) (by simp)
    | key n hb => exact happend (hword n) (happend (hgap hb) (by simp))
    | typedField n t hb hb' =>
      exact happend (hword n) (happend (hgap hb) (happend hcolons (happend (hgap hb') (hword t))))
    | namedType t hb => exact happend hcolons (happend (hgap hb) (hword t))
    | typedOpen hb => exact happend hcolons (happend (hgap hb) (by simp))

theorem enclosed_append_of_not_mem {d : Char} (hu : d ∉ u) (h : Enclosed d v) :
    Enclosed d (u ++ v) := by
  induction u with
  | nil => exact h
  | cons c u ih =>
    intro a w haw
    cases a with
    | nil => exact absurd (List.cons.inj haw).1 (fun hcd => hu (by simp [hcd]))
    | cons e a => exact ih (fun hd => hu (by simp [hd])) a w (List.cons.inj haw).2

/-- What a literal holds between its quotes is enclosed. -/
theorem enclosed_literal_append {d : Char} (hl : IsLiteral u) (hd : IsPlain d)
    (hv : pairsUp false v = true) (h : Enclosed d v) : Enclosed d (u ++ v) := by
  intro a w haw
  rcases List.append_eq_append_iff.1 haw with ⟨a', rfl, hv'⟩ | ⟨v', rfl, hw⟩
  · exact h a' w hv'
  · cases v' with
    | nil => exact h [] w (by simpa using hw.symm)
    | cons c v' =>
      obtain ⟨rfl, rfl⟩ := List.cons.inj hw
      -- the literal ends in a quote, so something follows `d` inside it
      have hne : v' ≠ [] := by
        intro heq
        subst heq
        obtain ⟨body, hbody, -⟩ := hl
        have hlast := congrArg List.getLast? hbody
        rw [List.getLast?_concat, ← List.cons_append, List.getLast?_concat] at hlast
        exact hd.1 (Option.some.inj hlast)
      have hcut : IsLiteral ((a ++ [d]) ++ v') := by
        rwa [List.append_assoc]
      have hinside := hcut.not_pairsUp_inside (by simp) hne hv
      have hescaped : escapedAfter (escapedAfter false a) [d] = false := by
        simp [beq_false_of_ne hd.2]
      rwa [escapedAfter_append, hescaped] at hinside

theorem Layout.enclosed (h : Layout isSpace ls text) (hspelled : ∀ l ∈ ls, l.spelled = true)
    (hclose : .mark .closeObject ∉ ls) : Enclosed '\x7d' text := by
  have hgap : ∀ {b}, Gap isSpace b → '\x7d' ∉ b := by
    intro b hb hc
    exact absurd (hb _ hc) (by decide)
  have hword : ∀ w : Word, '\x7d' ∉ w.chars := fun w hc =>
    absurd (w.isWord.2 _ hc) (by decide)
  induction h with
  | nil hb => exact fun a v hav => absurd (hav ▸ by simp : '\x7d' ∈ _) (hgap hb)
  | @cons l ls b u text hb hu _ rest ih =>
    have hrest := ih (fun k hk => hspelled k (by simp [hk])) fun hk => hclose (by simp [hk])
    refine enclosed_append_of_not_mem (hgap hb) ?_
    cases hu with
    | mark p =>
      refine enclosed_append_of_not_mem ?_ hrest
      intro hmem
      cases p <;> simp [markChar] at hmem hclose
    | word w => exact enclosed_append_of_not_mem (hword w) hrest
    | negative w => exact enclosed_append_of_not_mem (by simpa using hword w) hrest
    | literal l => exact enclosed_literal_append l.isLiteral (by decide) rest.pairsUp hrest
    | namedType t hb =>
      exact enclosed_append_of_not_mem (by simpa using ⟨hgap hb, hword t⟩) hrest
    | typedOpen hb => exact enclosed_append_of_not_mem (by simpa using hgap hb) hrest
    | _ => exact absurd (hspelled _ List.mem_cons_self) (by simp [Phrase.spelled])

/-! ## The expansion -/

/-- What opens as a typed object is replaced up to the last closing brace in no literal. -/
theorem rewrite_openedText {body tail : List Char} (hb : Gap isSpace b)
    (hbody : ∀ c ∈ body, c ≠ '\n') (hlines : ∀ c ∈ tail, c ≠ '\n')
    (hpaired : pairsUp false (openedText b body tail) = true) (htail : pairsUp false tail = true)
    (henclosed : Enclosed '\x7d' tail) :
    rewrite typedObject typedObjectText false (openedText b body tail) =
      referenceTo ('\x7b' :: (body ++ ['\x7d'])) ++
        rewrite typedObject typedObjectText false tail := by
  have hsettle := settleHere?_typedObject hb hbody hlines hpaired htail henclosed
  have hstop : (typedObjectMatch b body).stop ≠ 0 := by
    simp [typedObjectMatch]
  have hcaptures := typedObjectText_captures b tail body
  rw [rewrite_of_some hsettle hstop, openedText, hcaptures, ← openedText, length_openedText,
    openedText_eq _ _ tail, List.take_left, List.drop_left, escapedAfter_openedText]
  rfl

/-- The first typed object is taken to end at the last closing brace. -/
theorem Layout.expandTypedObjects {xs ys zs : List Phrase}
    (h : Layout isSpace (xs ++ .typedOpen :: (ys ++ .mark .closeObject :: zs)) text)
    (hxs : ∀ l ∈ xs, l.spelled = true) (hopen : .typedOpen ∉ xs)
    (hzs : ∀ l ∈ zs, l.spelled = true) (hlast : .typedOpen ∉ zs ∧ .mark .closeObject ∉ zs) :
    Layout isSpace
      (xs ++ (reference (.mark .openObject :: (ys ++ [.mark .closeObject])) ++ zs))
      (Quoting.rewrite typedObject typedObjectText false text) := by
  obtain ⟨s, t, rfl, hs, ht, hcolon⟩ := h.split
  cases ht with
  | @cons _ _ b u t hb hu _ ht =>
  cases hu with
  | @typedOpen b' hb' =>
  obtain ⟨body, t, rfl, hbody, ht, hbodycolon⟩ := ht.split
  cases ht with
  | @cons _ _ b'' u tail hb'' hu _ htail =>
  cases hu
  have hcut : b ++ (("::".toList ++ (b' ++ ['\x7b'])) ++
      (body ++ (b'' ++ ([markChar .closeObject] ++ tail)))) =
        b ++ openedText b' (body ++ b'') tail := by
    simp [openedText, markChar]
  have hclose : Layout isSpace [.mark .closeObject] (b'' ++ ['\x7d']) := .single hb'' (.mark _)
  have hobject : Layout isSpace (.mark .openObject :: (ys ++ [Phrase.mark .closeObject]))
      (['\x7b'] ++ (body ++ (b'' ++ ['\x7d']))) :=
    .next (.mark .openObject) (by simp [Phrase.endsInColon])
      (hbody.append hclose fun _ _ _ => hb''.noColon (noColon_cons.2 (by decide)))
  have hopened : Layout isSpace (.typedOpen :: (ys ++ Phrase.mark .closeObject :: zs))
      (b ++ openedText b' (body ++ b'') tail) := by
    have hrest := hbody.append (.cons hb'' (.mark .closeObject) (by simp [Phrase.endsInColon]) htail)
      hbodycolon
    rw [← hcut]
    exact .cons hb (.typedOpen hb') (by simp [Phrase.endsInColon]) hrest
  have hpaired : Quoting.pairsUp false (openedText b' (body ++ b'') tail) = true := by
    have hall := hopened.pairsUp
    rwa [pairsUp_append, (Parted.of_plain hb.isPlain).pairsUp,
      (Parted.of_plain hb.isPlain).escapedAfter, Bool.true_beq] at hall
  have hlines : ∀ c ∈ body ++ b'', c ≠ '\n' := by
    intro c hc
    refine hobject.oneLine c ?_
    rcases List.mem_append.1 hc with hc | hc <;> simp [hc]
  have hcolon' : ∀ l ∈ xs.getLast?, l.endsInColon = true →
      NoColon (b ++ openedText b' (body ++ b'') tail) := hcut ▸ hcolon
  have hrewrite := rewrite_openedText hb' hlines htail.oneLine hpaired htail.pairsUp
    (htail.enclosed hzs hlast.2)
  rw [htail.rewrite_typedObject_self hzs hlast.1, List.append_assoc] at hrewrite
  rw [hcut, hs.copy hxs hopen hcolon' hopened.pairsUp, rewrite_typedObject_gap hb, hrewrite,
    ← List.append_assoc b]
  refine hs.append (((layout_reference hobject).gap_append hb).append htail ?_) ?_
  · intro k hk hend
    rw [reference_ends _ k hk] at hend
    exact absurd hend (by decide)
  · intro l hl hend
    rw [List.append_assoc, referenceTo_eq]
    exact hb.noColon (noColon_cons.2 (by decide))

end Kept

end ApiCatalog.Response
