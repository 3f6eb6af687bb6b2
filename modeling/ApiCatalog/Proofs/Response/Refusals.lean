import ApiCatalog.Proofs.Response.Regrouping

/-!
# Shapes that have no reading

An array cannot end, nor its next item begin, while an object is open in it (`Blocks`). So a shape
whose typed object leaves an array open, or whose text has a further closing brace after the item
that holds the typed object, is no document (`Shape.run_none_of_regrouped?`).
-/

namespace ApiCatalog.Response

open ApiCatalog.Json
open ApiCatalog.Json.Document (Assembly Frame)

/-! ## Tokens that cannot follow an open object -/

/-- Tokens that can follow neither the opening brace of an object nor one of its members. -/
def Blocks (ts : List Token) : Prop :=
  ∀ stack : List Frame, (Assembly.firstKey stack).run ts = none ∧
    ∀ members k d, (Assembly.done (.object members k :: stack) d).run ts = none

theorem blocks_closeArray (ts : List Token) : Blocks (.mark .closeArray :: ts) :=
  fun _ => ⟨rfl, fun _ _ _ => rfl⟩

/-- After a comma a key must come. -/
theorem blocks_comma {t : Token} (h : ∀ p, t ≠ .string p) (ts : List Token) :
    Blocks (.mark .comma :: t :: ts) := by
  refine fun stack => ⟨rfl, ?_⟩
  intro members k d
  rw [run_nextMember, Assembly.run_cons]
  cases t with
  | string p => exact absurd rfl (h p)
  | _ => rfl

/-- After a key a colon must come. -/
theorem blocks_key {t : Token} (h : t ≠ .mark .colon) (p : List StringPiece) (ts : List Token) :
    Blocks (.mark .comma :: .string p :: t :: ts) := by
  refine fun stack => ⟨rfl, ?_⟩
  intro members k d
  rw [run_nextMember, Assembly.run_cons]
  show (Assembly.colon stack _ p).run (t :: ts) = none
  rw [Assembly.run_cons]
  cases t with
  | mark q => cases q <;> first | exact absurd rfl h | rfl
  | _ => rfl

/-- What can be closed by a brace is an open object. -/
theorem run_none_of_closeObject {st u : Assembly} {ts : List Token}
    (h : st.step (.mark .closeObject) = some u) (hts : Blocks ts) : st.run ts = none := by
  cases st with
  | firstKey stack => exact (hts stack).1
  | done stack d =>
    cases stack with
    | nil => exact absurd h (by simp [Assembly.step, Assembly.proceed])
    | cons frame stack =>
      cases frame with
      | array items => exact absurd h (by simp [Assembly.step, Assembly.proceed])
      | object members k => exact (hts stack).2 members k d
  | _ => exact absurd h (by simp [Assembly.step, Assembly.beginValue])

/-- A phrase other than a literal that begins a shape does not begin with a string. -/
theorem exists_first_openToken {l : Phrase} (hkey : ∀ k, l ≠ .key k)
    (hfield : ∀ n t, l ≠ .typedField n t) (hliteral : ∀ k, l ≠ .literal k) (ls : List Phrase) :
    ∃ t ts, openTokens (l :: ls) = t :: ts ∧ ∀ p, t ≠ .string p := by
  cases l with
  | literal k => exact absurd rfl (hliteral k)
  | key k => exact absurd rfl (hkey k)
  | typedField n t => exact absurd rfl (hfield n t)
  | _ => exact ⟨_, _, rfl, by simp⟩

/-- A comma and a shape block whatever is open; after a shape that is a literal no colon may
follow. -/
theorem blocks_shape {l : Phrase} {ls : List Phrase} {ts : List Token} (hkey : ∀ k, l ≠ .key k)
    (hfield : ∀ n t, l ≠ .typedField n t)
    (hrest : ∀ k, l = .literal k → ∃ t us, openTokens ls ++ ts = t :: us ∧ t ≠ .mark .colon) :
    Blocks (.mark .comma :: (openTokens (l :: ls) ++ ts)) := by
  by_cases hliteral : ∃ k, l = .literal k
  · obtain ⟨k, rfl⟩ := hliteral
    obtain ⟨t, us, hfirst, ht⟩ := hrest k rfl
    have hcut :
        openTokens (.literal k :: ls) ++ ts = .string k.pieces :: (openTokens ls ++ ts) := rfl
    rw [hcut, hfirst]
    exact blocks_key ht _ _
  · obtain ⟨t, us, hfirst, ht⟩ :=
      exists_first_openToken hkey hfield (fun k hk => hliteral ⟨k, hk⟩) ls
    rw [hfirst]
    exact blocks_comma ht _

theorem blocks_itemPhrases (ss : List Shape) (ts : List Token) :
    Blocks (openTokens (itemPhrases ss) ++ .mark .closeArray :: ts) := by
  cases ss with
  | nil => exact blocks_closeArray ts
  | cons s ss =>
    obtain ⟨l, ls, hphrases, -, hkey, hfield, hliteral⟩ := s.exists_first_phrase
    rw [itemPhrases, hphrases, List.cons_append, openTokens_mark, List.cons_append]
    refine blocks_shape hkey hfield ?_
    intro k hk
    rw [hliteral k hk, List.nil_append]
    cases ss with
    | nil => exact ⟨_, _, rfl, by simp⟩
    | cons s ss => exact ⟨_, _, rfl, by simp⟩

section First

variable {l : Phrase} {ls : List Phrase}

/-- The first item of an array is read like any other value, whatever is open after it. -/
theorem run_firstItem_openTokens (h : ∀ p, l = .mark p → p = .openArray ∨ p = .openObject)
    (stack : List Frame) (ts : List Token) :
    (Assembly.firstItem stack).run (openTokens (l :: ls) ++ ts) =
      (Assembly.value (.array [] :: stack)).run (openTokens (l :: ls) ++ ts) := by
  cases l with
  | mark p =>
    rcases h p rfl with rfl | rfl
    · exact run_firstItem (by simp)
    · exact run_firstItem (by simp)
  | _ => exact run_firstItem (by simp)

theorem Phrase.not_closes_of_first (h : ∀ p, l = .mark p → p = .openArray ∨ p = .openObject) :
    l.closes = false := by
  cases l with
  | mark p => rcases h p rfl with rfl | rfl <;> rfl
  | _ => rfl

end First

/-- With braces still to come, the items after an open object block it. -/
theorem blocks_doubled {ss : List Shape} (h : ss.any Shape.hasBrace = true) (ts : List Token) :
    Blocks (openTokens (doubleLast (itemPhrases ss)) ++ ts) := by
  cases ss with
  | nil => exact absurd h (by simp)
  | cons s ss =>
    obtain ⟨l, ls, hphrases, hmark, hkey, hfield, hliteral⟩ := s.exists_first_phrase
    have hl : l.closes = false := Phrase.not_closes_of_first hmark
    have hcomma : (Phrase.mark .comma).closes = false := rfl
    rw [itemPhrases, hphrases, List.cons_append, doubleLast_cons hcomma, doubleLast_cons hl,
      openTokens_mark, List.cons_append]
    refine blocks_shape hkey hfield ?_
    intro k hk
    subst hk
    obtain rfl := hliteral k rfl
    cases ss with
    | nil =>
      rw [List.any_cons, Shape.hasBrace, hphrases] at h
      exact absurd h (by simp [Phrase.closes])
    | cons s ss =>
      rw [List.nil_append, itemPhrases, doubleLast_cons hcomma]
      exact ⟨_, _, rfl, by simp⟩

/-! ## Runs over open shapes -/

/-- After a shape that leaves an object open nothing comes that blocks the object. -/
theorem Shape.run_opened {s : Shape} {fs : List Field} (hs : s.typedObjects = 1)
    (h : s.opened? = some fs) (stack : List Frame) {ts : List Token} (hts : Blocks ts) :
    (Assembly.value stack).run (openTokens s.phrases ++ ts) = none := by
  -- closed by one more brace the shape would be an object, so an object is open after it
  obtain ⟨htokens, hcount, -⟩ := s.tokens_opened hs h
  have hobject := (Shape.object fs).run_tokens hcount stack []
  have hclosed := htokens []
  rw [fieldPhrases, jsonTokens_nil, List.nil_append, List.append_nil] at hclosed
  rw [← hclosed, List.append_nil, Assembly.run_append] at hobject
  rw [Assembly.run_append]
  cases hrun : (Assembly.value stack).run (openTokens s.phrases) with
  | none => rfl
  | some u =>
    rw [hrun, Option.bind_some, Assembly.run_cons] at hobject
    cases hstep : u.step (.mark .closeObject) with
    | none =>
      rw [hstep] at hobject
      exact absurd hobject (by simp [Assembly.run])
    | some w => exact run_none_of_closeObject hstep hts

/-- A field without typed objects is passed over, so what cannot follow it decides. -/
theorem run_none_of_laterFields {f : Field} {fs : List Field} {stack : List Frame}
    {ts : List Token} (hf : f.typedObjects = 0) (hfs : typedObjectsOfFields fs = 1)
    (hrest : ∀ members,
      (Assembly.key stack members).run (openTokens (fieldRow fs) ++ ts) = none)
    (before : List (List StringPiece × Document)) :
    (Assembly.firstKey stack).run (openTokens (fieldRow (f :: fs)) ++ ts) = none ∧
      (Assembly.key stack before).run (openTokens (fieldRow (f :: fs)) ++ ts) = none := by
  have hne : fs ≠ [] := by
    intro heq
    subst heq
    exact absurd hfs (by simp [typedObjectsOfFields])
  rw [fieldRow, fieldPhrases_eq hne, openTokens_append, openTokens_mark, Field.openTokens_eq hf,
    List.append_assoc, List.cons_append, (f.run_tokens hf stack before _).1,
    (f.run_tokens hf stack before _).2, run_nextMember, run_nextMember]
  exact ⟨hrest _, hrest _⟩

mutual

/-- What leaves an array open has no reading. -/
theorem Shape.run_none_of_opened? (s : Shape) (hs : s.typedObjects = 1) (h : s.opened? = none)
    (stack : List Frame) (ts : List Token) :
    (Assembly.value stack).run (openTokens s.phrases ++ ts) = none := by
  match s with
  | .object fields =>
    have hrun := (run_none_of_openedFields? fields hs h stack [] (.mark .closeObject :: ts)).1
    rw [Shape.phrases_object, openTokens_mark, openTokens_append, List.cons_append,
      List.append_assoc, run_openObject]
    exact hrun
  | .array [] => exact absurd hs (by simp [Shape.typedObjects, typedObjectsOfItems])
  | .array (s :: ss) =>
    have hrun := run_none_of_items (s :: ss) hs stack [] ts
    rw [Shape.phrases_array, openTokens_mark, openTokens_append, List.cons_append,
      List.append_assoc, run_openArray]
    obtain ⟨l, ls, hphrases, hmark, -⟩ := s.exists_first_phrase
    rw [itemRow, hphrases, List.cons_append] at hrun ⊢
    rw [run_firstItem_openTokens hmark]
    exact hrun
  | .typed fields => exact absurd h (by simp [Shape.opened?])
  | .null | .bool _ | .integer _ _ | .text _ | .named _ | .listOf _ =>
    exact absurd hs (by simp [Shape.typedObjects])

theorem run_none_of_openedFields? (fs : List Field) (hfs : typedObjectsOfFields fs = 1)
    (h : openedFields? fs = none) (stack : List Frame)
    (before : List (List StringPiece × Document)) (ts : List Token) :
    (Assembly.firstKey stack).run (openTokens (fieldRow fs) ++ ts) = none ∧
      (Assembly.key stack before).run (openTokens (fieldRow fs) ++ ts) = none := by
  match fs with
  | [] => exact absurd hfs (by simp [typedObjectsOfFields])
  | .member k s :: fs =>
    rw [openedFields?] at h
    have hsum : s.typedObjects + typedObjectsOfFields fs = 1 := hfs
    by_cases hs : s.typedObjects = 0
    · rw [if_pos hs, Option.map_eq_none_iff] at h
      exact run_none_of_laterFields (f := .member k s) hs (by omega)
        (fun m => (run_none_of_openedFields? fs (by omega) h stack m ts).2) before
    · rw [if_neg hs, Option.map_eq_none_iff] at h
      have hcount : s.typedObjects = 1 := by omega
      rw [fieldRow, openTokens_append, openTokens_member, jsonTokens_key]
      simp only [List.append_assoc, List.cons_append, List.nil_append]
      rw [run_firstKey, run_key]
      exact ⟨s.run_none_of_opened? hcount h _ _, s.run_none_of_opened? hcount h _ _⟩
  | .typedName n t :: fs =>
    rw [openedFields?, Option.map_eq_none_iff] at h
    have hcount : typedObjectsOfFields fs = 1 := (Nat.zero_add _).symm.trans hfs
    exact run_none_of_laterFields (f := .typedName n t) rfl hcount
      (fun m => (run_none_of_openedFields? fs hcount h stack m ts).2) before

theorem run_none_of_items (ss : List Shape) (hss : typedObjectsOfItems ss = 1)
    (stack : List Frame) (before : List Document) (ts : List Token) :
    (Assembly.value (.array before :: stack)).run
      (openTokens (itemRow ss) ++ .mark .closeArray :: ts) = none := by
  match ss with
  | [] => exact absurd hss (by simp [typedObjectsOfItems])
  | s :: ss =>
    have hsum : s.typedObjects + typedObjectsOfItems ss = 1 := hss
    rw [itemRow, openTokens_append, List.append_assoc]
    by_cases hs : s.typedObjects = 0
    · have hrest : typedObjectsOfItems ss = 1 := by omega
      have hne : ss ≠ [] := by
        intro heq
        subst heq
        exact absurd hrest (by simp [typedObjectsOfItems])
      rw [Shape.openTokens_eq hs, s.run_tokens hs, itemPhrases_eq hne, openTokens_mark,
        List.cons_append, run_nextItem]
      exact run_none_of_items ss hrest stack _ ts
    · have hcount : s.typedObjects = 1 := by omega
      cases hopened : s.opened? with
      | none => exact s.run_none_of_opened? hcount hopened _ _
      | some fs => exact s.run_opened hcount hopened _ (blocks_itemPhrases ss ts)

end

/-! ## What is not regrouped -/

mutual

/-- A shape that is not regrouped has no reading. -/
theorem Shape.run_none_of_regrouped? (s : Shape) (hs : s.typedObjects = 1)
    (h : s.regrouped? = none) (stack : List Frame) (ts : List Token) :
    (Assembly.value stack).run (openTokens (doubleLast s.phrases) ++ ts) = none := by
  match s with
  | .array [] => exact absurd hs (by simp [Shape.typedObjects, typedObjectsOfItems])
  | .array (s :: ss) =>
    rw [Shape.regrouped?, Option.map_eq_none_iff] at h
    have hrun := run_none_of_regroupedItems? (s :: ss) hs h stack [] ts
    have hclose : [Phrase.mark .closeArray].any Phrase.closes = false := rfl
    obtain ⟨l, ls, hphrases, hmark, -⟩ := s.exists_first_phrase
    rw [Shape.phrases_array, doubleLast_cons rfl, doubleLast_append_of_none hclose,
      openTokens_mark, openTokens_append, List.cons_append, List.append_assoc, run_openArray]
    rw [itemRow, hphrases, List.cons_append,
      doubleLast_cons (Phrase.not_closes_of_first hmark)] at hrun ⊢
    rw [run_firstItem_openTokens hmark]
    exact hrun
  | .object fields =>
    rw [Shape.regrouped?, Option.map_eq_none_iff] at h
    have hrun := (run_none_of_openedFields? fields hs h stack []
      (.mark .closeObject :: .mark .closeObject :: ts)).1
    rw [Shape.phrases_object, ← List.cons_append, doubleLast_closed, List.cons_append,
      openTokens_mark, openTokens_append, List.cons_append, List.append_assoc, run_openObject]
    exact hrun
  | .typed fields => exact absurd h (by simp [Shape.regrouped?])
  | .null | .bool _ | .integer _ _ | .text _ | .named _ | .listOf _ =>
    exact absurd hs (by simp [Shape.typedObjects])

theorem run_none_of_regroupedItems? (ss : List Shape) (hss : typedObjectsOfItems ss = 1)
    (h : regroupedItems? ss = none) (stack : List Frame) (before : List Document)
    (ts : List Token) :
    (Assembly.value (.array before :: stack)).run
      (openTokens (doubleLast (itemRow ss)) ++ .mark .closeArray :: ts) = none := by
  match ss with
  | [] => exact absurd hss (by simp [typedObjectsOfItems])
  | s :: ss =>
    rw [regroupedItems?] at h
    have hsum : s.typedObjects + typedObjectsOfItems ss = 1 := hss
    by_cases hs : s.typedObjects = 0
    · rw [if_pos hs, Option.map_eq_none_iff] at h
      have hrest : typedObjectsOfItems ss = 1 := by omega
      rw [doubleLast_itemRow (Nat.lt_of_lt_of_eq Nat.zero_lt_one hrest.symm), openTokens_append,
        openTokens_mark, Shape.openTokens_eq hs, List.append_assoc, s.run_tokens hs,
        List.cons_append, run_nextItem]
      exact run_none_of_regroupedItems? ss hrest h stack _ ts
    · have hcount : s.typedObjects = 1 := by omega
      rw [if_neg hs] at h
      rw [itemRow]
      cases hbrace : ss.any Shape.hasBrace with
      | true =>
        -- the last closing brace is in a later item, so this one is still open before the comma
        have hany : (itemPhrases ss).any Phrase.closes = true := by
          rw [any_closes_itemPhrases, hbrace]
        rw [doubleLast_append hany, openTokens_append, List.append_assoc]
        cases hopened : s.opened? with
        | none => exact s.run_none_of_opened? hcount hopened _ _
        | some fs => exact s.run_opened hcount hopened _ (blocks_doubled hbrace _)
      | false =>
        rw [hbrace] at h
        have hr : s.regrouped? = none := Option.map_eq_none_iff.1 h
        have hany : (itemPhrases ss).any Phrase.closes = false := by
          rw [any_closes_itemPhrases, hbrace]
        rw [doubleLast_append_of_none hany, openTokens_append, List.append_assoc]
        exact s.run_none_of_regrouped? hcount hr _ _

end

end ApiCatalog.Response
