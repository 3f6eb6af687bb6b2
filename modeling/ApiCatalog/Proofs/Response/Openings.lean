import ApiCatalog.Proofs.Response.Reading

/-!
# Tokens of shapes with typed objects

In the row of a shape that holds typed objects, the first one is opened as a reference and the last
closing brace is written twice (`Shape.Cut.tokens`). Further typed objects leave two colons side by
side, which no document has (`run_colons`).
-/

namespace ApiCatalog.Response

open ApiCatalog.Json
open ApiCatalog.Json.Document (Assembly Frame)

/-! ## Braces -/

/-- Whether the phrase closes an object. -/
def Phrase.closes : Phrase → Bool
  | .mark .closeObject => true
  | _ => false

/-- Whether an object of the shape has braces. -/
def Shape.hasBrace (s : Shape) : Bool := s.phrases.any Phrase.closes

theorem any_closes_itemPhrases (ss : List Shape) :
    (itemPhrases ss).any Phrase.closes = ss.any Shape.hasBrace := by
  induction ss with
  | nil => rfl
  | cons s ss ih => simp [itemPhrases, ih, Shape.hasBrace, Phrase.closes]

theorem any_closes_itemRow (ss : List Shape) :
    (itemRow ss).any Phrase.closes = ss.any Shape.hasBrace := by
  cases ss with
  | nil => rfl
  | cons s ss => simp [itemRow, any_closes_itemPhrases, Shape.hasBrace]

theorem Shape.hasBrace_array (items : List Shape) :
    (Shape.array items).hasBrace = items.any Shape.hasBrace := by
  rw [Shape.hasBrace, Shape.phrases_array]
  simp [any_closes_itemRow, Phrase.closes]

theorem Shape.hasBrace_object (fields : List Field) : (Shape.object fields).hasBrace = true := by
  rw [Shape.hasBrace, Shape.phrases_object]
  simp [Phrase.closes]

theorem Shape.hasBrace_typed (fields : List Field) : (Shape.typed fields).hasBrace = true := by
  rw [Shape.hasBrace, Shape.phrases_typed]
  simp [Phrase.closes]

theorem Phrase.not_closes_of_braceless {l : Phrase} (h : l.braceless = true) :
    l.closes = false := by
  cases l with
  | mark p => cases p <;> simp [Phrase.braceless] at h <;> rfl
  | _ => rfl

mutual

/-- A shape without braces has neither typed objects nor fields. -/
theorem Shape.braceless (s : Shape) (h : s.hasBrace = false) :
    ∀ l ∈ s.phrases, l.braceless = true := by
  match s with
  | .null => simp [Shape.phrases, Phrase.braceless]
  | .bool b => simp [Shape.phrases, Phrase.braceless]
  | .integer n _ =>
    rw [Shape.phrases, integerPhrase]
    split <;> simp [Phrase.braceless]
  | .text l => simp [Shape.phrases, Phrase.braceless]
  | .array [] => simp [Shape.phrases, Phrase.braceless]
  | .array (s :: ss) =>
    rw [Shape.hasBrace_array, List.any_cons, Bool.or_eq_false_iff] at h
    simp only [Shape.phrases, List.forall_mem_cons, List.forall_mem_append]
    exact ⟨rfl, s.braceless h.1, braceless_items ss h.2, rfl, by simp⟩
  | .object fields =>
    rw [Shape.hasBrace_object] at h
    exact absurd h (by decide)
  | .named t => simp [Shape.phrases, Phrase.braceless]
  | .listOf t => simp [Shape.phrases, Phrase.braceless]
  | .typed fields =>
    rw [Shape.hasBrace_typed] at h
    exact absurd h (by decide)

theorem braceless_items (ss : List Shape) (h : ss.any Shape.hasBrace = false) :
    ∀ l ∈ itemPhrases ss, l.braceless = true := by
  match ss with
  | [] => simp [itemPhrases]
  | s :: ss =>
    rw [List.any_cons, Bool.or_eq_false_iff] at h
    simp only [itemPhrases, List.forall_mem_cons, List.forall_mem_append]
    exact ⟨rfl, s.braceless h.1, braceless_items ss h.2⟩

end

mutual

/-- After the last closing brace of a shape there is none of the shorthand for objects. -/
theorem Shape.exists_last_brace (s : Shape) (h : s.hasBrace = true) :
    ∃ as bs, s.phrases = as ++ .mark .closeObject :: bs ∧ ∀ l ∈ bs, l.braceless = true := by
  match s with
  | .null => exact absurd h (by decide)
  | .bool b => exact absurd h (by simp [Shape.hasBrace, Shape.phrases, Phrase.closes])
  | .integer n _ =>
    rw [Shape.hasBrace, Shape.phrases, integerPhrase] at h
    split at h <;> exact absurd h (by simp [Phrase.closes])
  | .text l => exact absurd h (by simp [Shape.hasBrace, Shape.phrases, Phrase.closes])
  | .array [] => exact absurd h (by decide)
  | .array (s :: ss) =>
    have hclose : (Phrase.mark .closeArray).braceless = true := rfl
    rw [Shape.phrases]
    cases hss : ss.any Shape.hasBrace with
    | true =>
      obtain ⟨as, bs, hcut, hbs⟩ := exists_last_brace_items ss hss
      refine ⟨.mark .openArray :: (s.phrases ++ as), bs ++ [Phrase.mark .closeArray],
        by simp [hcut], ?_⟩
      exact List.forall_mem_append.2 ⟨hbs, by simpa using hclose⟩
    | false =>
      rw [Shape.hasBrace_array, List.any_cons, hss, Bool.or_false] at h
      obtain ⟨as, bs, hcut, hbs⟩ := s.exists_last_brace h
      refine ⟨.mark .openArray :: as, bs ++ (itemPhrases ss ++ [Phrase.mark .closeArray]),
        by simp [hcut], ?_⟩
      exact List.forall_mem_append.2
        ⟨hbs, List.forall_mem_append.2 ⟨braceless_items ss hss, by simpa using hclose⟩⟩
  | .object fields =>
    exact ⟨.mark .openObject :: fieldRow fields, [], Shape.phrases_object fields, by simp⟩
  | .named t => exact absurd h (by simp [Shape.hasBrace, Shape.phrases, Phrase.closes])
  | .listOf t => exact absurd h (by simp [Shape.hasBrace, Shape.phrases, Phrase.closes])
  | .typed fields => exact ⟨.typedOpen :: fieldRow fields, [], Shape.phrases_typed fields, by simp⟩

theorem exists_last_brace_items (ss : List Shape) (h : ss.any Shape.hasBrace = true) :
    ∃ as bs, itemPhrases ss = as ++ .mark .closeObject :: bs ∧ ∀ l ∈ bs, l.braceless = true := by
  match ss with
  | [] => exact absurd h (by simp)
  | s :: ss =>
    rw [itemPhrases]
    cases hss : ss.any Shape.hasBrace with
    | true =>
      obtain ⟨as, bs, hcut, hbs⟩ := exists_last_brace_items ss hss
      exact ⟨.mark .comma :: (s.phrases ++ as), bs, by simp [hcut], hbs⟩
    | false =>
      rw [List.any_cons, hss, Bool.or_false] at h
      obtain ⟨as, bs, hcut, hbs⟩ := s.exists_last_brace h
      exact ⟨.mark .comma :: as, bs ++ itemPhrases ss, by simp [hcut],
        List.forall_mem_append.2 ⟨hbs, braceless_items ss hss⟩⟩

end

/-! ## The first typed object -/

theorem typedOpen_not_mem {ls : List Phrase} (h : ∀ l ∈ ls, l.braceless = true) :
    .typedOpen ∉ ls := fun hmem => absurd (h _ hmem) (by decide)

theorem Shape.typedObjects_eq_zero {s : Shape} (h : s.hasBrace = false) : s.typedObjects = 0 := by
  rw [← s.countP_opens]
  exact countP_opens_eq_zero.2 (typedOpen_not_mem (s.braceless h))

theorem Shape.hasBrace_of_typedObjects {s : Shape} (h : 0 < s.typedObjects) :
    s.hasBrace = true := by
  cases hb : s.hasBrace with
  | true => rfl
  | false =>
    rw [Shape.typedObjects_eq_zero hb] at h
    exact absurd h (by decide)

/-- The row of a shape with typed objects, cut where the first one opens and at the last closing
brace. -/
structure Shape.Cut (s : Shape) (xs ys zs : List Phrase) : Prop where
  row : s.phrases = xs ++ .typedOpen :: (ys ++ .mark .closeObject :: zs)
  first : .typedOpen ∉ xs
  last : ∀ l ∈ zs, l.braceless = true

theorem Shape.exists_cut {s : Shape} (h : 0 < s.typedObjects) : ∃ xs ys zs, s.Cut xs ys zs := by
  obtain ⟨as, zs, hlast, hzs⟩ := s.exists_last_brace (Shape.hasBrace_of_typedObjects h)
  -- nothing after the last closing brace opens a typed object, so all of them open before it
  have hmem : .typedOpen ∈ as := by
    rw [← s.countP_opens, countP_opens_pos, hlast] at h
    rcases List.mem_append.1 h with h | h
    · exact h
    · rcases List.mem_cons.1 h with h | h
      · exact absurd h (by simp)
      · exact absurd h (typedOpen_not_mem hzs)
  obtain ⟨xs, ys, rfl, hxs⟩ := List.eq_append_cons_of_mem hmem
  exact ⟨xs, ys, zs, by simp [hlast], hxs, hzs⟩

/-- All other typed objects open between the two places. -/
theorem Shape.Cut.typedObjects_eq {s : Shape} {xs ys zs : List Phrase} (h : s.Cut xs ys zs) :
    s.typedObjects = ys.countP Phrase.opens + 1 := by
  have hclose : ¬ (Phrase.mark .closeObject).opens = true := by decide
  rw [← s.countP_opens, h.row, List.countP_append, List.countP_cons_of_pos rfl,
    List.countP_append, List.countP_cons_of_neg hclose, countP_opens_eq_zero.2 h.first,
    countP_opens_eq_zero.2 (typedOpen_not_mem h.last), Nat.zero_add]

/-- The tokens of the opening of a reference to an object. -/
def openingTokens : List Token :=
  [.mark .openObject, .string refKey.pieces, .mark .colon, .mark .openObject]

/-- The tokens of the expanded text of a shape with typed objects. -/
theorem Shape.Cut.tokens {s : Shape} {xs ys zs : List Phrase} {text : List Char}
    (h : s.Cut xs ys zs) (hl : Layout isSpace s.phrases text) :
    tokens? (expand text) =
      some (jsonTokens xs ++ (openingTokens ++ (jsonTokens ys ++
        .mark .closeObject :: .mark .closeObject :: jsonTokens zs))) := by
  have ho := s.orderly_phrases
  rw [h.row] at hl ho
  obtain ⟨hexpand, horderly⟩ := hl.expand_typedObject ho h.first h.last
  rw [hexpand.tokens horderly]
  simp [jsonTokens, reference, Phrase.tokens, openingTokens, Literal.pieces]

/-! ## Colons side by side -/

theorem step_colon (st : Assembly) :
    (st.step (.mark .colon)).bind (fun u => u.step (.mark .colon)) = none := by
  cases st with
  | done stack result =>
    cases stack with
    | nil => rfl
    | cons frame stack => cases frame <;> rfl
  | _ => rfl

/-- No document has two colons side by side. -/
theorem run_colons (st : Assembly) (ts us : List Token) :
    st.run (ts ++ .mark .colon :: .mark .colon :: us) = none := by
  rw [Assembly.run_append]
  cases hst : st.run ts with
  | none => rfl
  | some u =>
    have hstep := step_colon u
    rw [Option.bind_some, Assembly.run_cons]
    cases hu : u.step (.mark .colon) with
    | none => rfl
    | some w =>
      rw [hu, Option.bind_some] at hstep
      rw [Option.bind_some, Assembly.run_cons, hstep]
      rfl

/-- With a second typed object the expanded text is no document. -/
theorem Shape.read?_several {s : Shape} {text : List Char} (h : 1 < s.typedObjects)
    (hl : Layout isSpace s.phrases text) : Document.read? (expand text) = none := by
  obtain ⟨xs, ys, zs, hcut⟩ := Shape.exists_cut (Nat.lt_of_succ_lt h)
  have hmem : .typedOpen ∈ ys := by
    have hcount := hcut.typedObjects_eq
    rw [← countP_opens_pos]
    omega
  -- the colons of the second typed object are still there
  obtain ⟨as, bs, rfl⟩ := List.append_of_mem hmem
  have hrun := run_colons (.value []) (jsonTokens xs ++ (openingTokens ++ jsonTokens as))
    (.mark .openObject :: (jsonTokens bs ++
      .mark .closeObject :: .mark .closeObject :: jsonTokens zs))
  rw [Document.read?, hcut.tokens hl, Option.bind_some, Document.ofTokens?]
  simp only [jsonTokens_append, jsonTokens_typedOpen, List.append_assoc, List.cons_append] at hrun ⊢
  rw [hrun]
  rfl

end ApiCatalog.Response
