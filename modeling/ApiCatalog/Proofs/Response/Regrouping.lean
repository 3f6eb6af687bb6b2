import ApiCatalog.Proofs.Response.Openings

/-!
# What is read of a typed object

A typed object is opened where its braces open, and it is closed at the last closing brace of the
text, which is written twice. Each closing brace in between ends one object less than it should: the
fields that follow the typed object in the object around it are read into the reference, those that
follow that object are read into it, and so on outwards. `Shape.regrouped?` is the shape that is
read, and `Shape.tokens_regrouped` says that its tokens are those of the expanded text.
-/

namespace ApiCatalog.Response

open ApiCatalog.Json
open ApiCatalog.Json.Document (Assembly Frame)

/-! ## Regrouping -/

mutual

/-- The fields of the object that is still open after the row of a shape with one typed object, if
there is no array around it. -/
def Shape.opened? : Shape → Option (List Field)
  | .object fields => openedFields? fields
  | .typed fields => some [.member (.quoted refKey) (.object fields)]
  | _ => none

/-- The same for the fields of an object: those after the typed object are read into what it left
open. -/
def openedFields? : List Field → Option (List Field)
  | [] => none
  | .member k s :: fs =>
    if s.typedObjects = 0 then (openedFields? fs).map (.member k s :: ·)
    else s.opened?.map fun inner => [.member k (.object (inner ++ fs))]
  | .typedName n t :: fs => (openedFields? fs).map (.typedName n t :: ·)

end

mutual

/-- The shape that is read in place of a shape with one typed object. -/
def Shape.regrouped? : Shape → Option Shape
  | .array items => (regroupedItems? items).map .array
  | .object fields => (openedFields? fields).map .object
  | .typed fields => some (.object [.member (.quoted refKey) (.object fields)])
  | _ => none

/-- The items that are read in place of those of an array. Where braces follow the item with the
typed object, it is not closed in time. -/
def regroupedItems? : List Shape → Option (List Shape)
  | [] => none
  | s :: ss =>
    if s.typedObjects = 0 then (regroupedItems? ss).map (s :: ·)
    else if ss.any Shape.hasBrace then none
    else s.regrouped?.map (· :: ss)

end

/-! ## Tokens of an open shape -/

/-- The tokens of an expanded row where a typed object is opened as a reference. -/
def openTokens (ls : List Phrase) : List Token :=
  ls.flatMap fun l => if l.opens then openingTokens else jsonTokens [l]

section OpenTokens

variable {ks ls : List Phrase}

@[simp] theorem openTokens_nil : openTokens [] = [] := rfl

@[simp] theorem openTokens_append (ks ls : List Phrase) :
    openTokens (ks ++ ls) = openTokens ks ++ openTokens ls := by
  simp [openTokens]

@[simp] theorem openTokens_mark (p : Punctuation) (ls : List Phrase) :
    openTokens (.mark p :: ls) = .mark p :: openTokens ls := rfl

@[simp] theorem openTokens_typedOpen (ls : List Phrase) :
    openTokens (.typedOpen :: ls) = openingTokens ++ openTokens ls := rfl

/-- Where no typed object opens, the tokens are those of the expanded row. -/
theorem openTokens_eq (h : .typedOpen ∉ ls) : openTokens ls = jsonTokens ls := by
  induction ls with
  | nil => rfl
  | cons l ls ih =>
    have hl : ¬ l.opens = true := fun hopens => h (by simp [Phrase.opens_iff.1 hopens])
    have hrest : openTokens ls = jsonTokens ls := ih fun hmem => h (by simp [hmem])
    have hcut : jsonTokens (l :: ls) = jsonTokens [l] ++ jsonTokens ls := jsonTokens_append [l] ls
    rw [openTokens, List.flatMap_cons, if_neg hl, ← openTokens, hrest, hcut]

theorem Shape.openTokens_eq {s : Shape} (h : s.typedObjects = 0) :
    openTokens s.phrases = jsonTokens s.phrases :=
  Response.openTokens_eq (Shape.no_typedOpen h)

theorem openTokens_itemPhrases {ss : List Shape} (h : typedObjectsOfItems ss = 0) :
    openTokens (itemPhrases ss) = jsonTokens (itemPhrases ss) :=
  Response.openTokens_eq (countP_opens_eq_zero.1 ((countP_opens_items ss).trans h))

theorem Field.openTokens_eq {f : Field} (h : f.typedObjects = 0) :
    openTokens f.phrases = jsonTokens f.phrases :=
  Response.openTokens_eq (countP_opens_eq_zero.1 (f.countP_opens.trans h))

theorem openTokens_fieldPhrases {fs : List Field} (h : typedObjectsOfFields fs = 0) :
    openTokens (fieldPhrases fs) = jsonTokens (fieldPhrases fs) :=
  Response.openTokens_eq (countP_opens_eq_zero.1 ((countP_opens_fields fs).trans h))

theorem openTokens_fieldRow {fs : List Field} (h : typedObjectsOfFields fs = 0) :
    openTokens (fieldRow fs) = jsonTokens (fieldRow fs) := by
  cases fs with
  | nil => rfl
  | cons f fs =>
    obtain ⟨hf, hfs⟩ := Nat.add_eq_zero_iff.1 h
    rw [fieldRow, openTokens_append, Field.openTokens_eq hf, openTokens_fieldPhrases hfs,
      jsonTokens_append]

theorem openTokens_member (k : Key) (s : Shape) :
    openTokens (Field.member k s).phrases = jsonTokens k.phrases ++ openTokens s.phrases := by
  rw [Field.phrases, openTokens_append]
  cases k <;> rfl

theorem typedObjectsOfFields_append (fs gs : List Field) :
    typedObjectsOfFields (fs ++ gs) = typedObjectsOfFields fs + typedObjectsOfFields gs := by
  induction fs with
  | nil => exact (Nat.zero_add _).symm
  | cons f fs ih => rw [List.cons_append, typedObjectsOfFields, typedObjectsOfFields, ih, Nat.add_assoc]

/-- A field before the one with the typed object is kept. -/
theorem tokens_openedFields_cons {f : Field} {fs gs : List Field} (hf : f.typedObjects = 0)
    (hfs : fs ≠ []) (hgs : gs ≠ [])
    (h : openTokens (fieldRow fs) ++ [.mark .closeObject] = jsonTokens (fieldRow gs)) :
    openTokens (fieldRow (f :: fs)) ++ [.mark .closeObject] = jsonTokens (fieldRow (f :: gs)) := by
  rw [fieldRow, fieldRow, fieldPhrases_eq hfs, fieldPhrases_eq hgs, openTokens_append,
    openTokens_mark, Field.openTokens_eq hf, jsonTokens_append, jsonTokens_mark, ← h,
    List.append_assoc, List.cons_append]

end OpenTokens

theorem openedFields?_nil {fs : List Field} {gs : List Field} (h : openedFields? fs = some gs) :
    fs ≠ [] := by
  intro heq
  subst heq
  exact absurd h (by simp [openedFields?])

mutual

/-- What is left open is closed by one more brace, after any further fields. -/
theorem Shape.tokens_opened (s : Shape) {fs : List Field} (hs : s.typedObjects = 1)
    (h : s.opened? = some fs) :
    (∀ post, openTokens s.phrases ++ (jsonTokens (fieldPhrases post) ++ [.mark .closeObject]) =
        jsonTokens (Shape.object (fs ++ post)).phrases) ∧
      typedObjectsOfFields fs = 0 ∧ fs ≠ [] := by
  match s with
  | .object fields =>
    obtain ⟨htokens, hcount, hne⟩ := tokens_openedFields fields hs h
    refine ⟨?_, hcount, hne⟩
    intro post
    rw [Shape.phrases_object, Shape.phrases_object, fieldRow_append hne]
    simp only [openTokens_mark, openTokens_append, jsonTokens_mark, jsonTokens_append,
      jsonTokens_nil, openTokens_nil, List.cons_append, ← htokens, List.append_assoc,
      List.nil_append]
  | .typed fields =>
    obtain rfl := Option.some.inj h
    have hcount : typedObjectsOfFields fields = 0 := Nat.succ.inj hs
    refine ⟨?_, hcount, List.cons_ne_nil _ _⟩
    intro post
    rw [Shape.phrases_typed, Shape.phrases_object, List.cons_append, fieldRow, Field.phrases,
      Shape.phrases_object]
    simp only [openTokens_typedOpen, openTokens_mark, openTokens_append, openTokens_nil,
      openTokens_fieldRow hcount, jsonTokens_mark, jsonTokens_append, jsonTokens_nil, jsonTokens_key,
      openingTokens, List.cons_append, List.append_assoc, List.nil_append]
    rfl
  | .null | .bool _ | .integer _ _ | .text _ | .array _ | .named _ | .listOf _ =>
    exact absurd h (by simp [Shape.opened?])

theorem tokens_openedFields (fields : List Field) {gs : List Field}
    (hfields : typedObjectsOfFields fields = 1) (h : openedFields? fields = some gs) :
    openTokens (fieldRow fields) ++ [.mark .closeObject] = jsonTokens (fieldRow gs) ∧
      typedObjectsOfFields gs = 0 ∧ gs ≠ [] := by
  match fields with
  | [] => exact absurd h (by simp [openedFields?])
  | .member k s :: fs =>
    rw [openedFields?] at h
    split at h
    · rename_i hs
      obtain ⟨gs', hgs', rfl⟩ := Option.map_eq_some_iff.1 h
      have hcount : typedObjectsOfFields fs = 1 := by
        have hsum : s.typedObjects + typedObjectsOfFields fs = 1 := hfields
        omega
      obtain ⟨htokens, hzero, hne⟩ := tokens_openedFields fs hcount hgs'
      refine ⟨tokens_openedFields_cons hs (openedFields?_nil hgs') hne htokens, ?_,
        List.cons_ne_nil _ _⟩
      exact Nat.add_eq_zero_iff.2 ⟨hs, hzero⟩
    · rename_i hs
      obtain ⟨inner, hinner, rfl⟩ := Option.map_eq_some_iff.1 h
      have hsum : s.typedObjects + typedObjectsOfFields fs = 1 := hfields
      have hcount : s.typedObjects = 1 := by omega
      have hrest : typedObjectsOfFields fs = 0 := by omega
      obtain ⟨htokens, hzero, -⟩ := s.tokens_opened hcount hinner
      refine ⟨?_, ?_, List.cons_ne_nil _ _⟩
      · -- the fields after this one are read on into what its shape leaves open
        rw [fieldRow, openTokens_append, openTokens_member, openTokens_fieldPhrases hrest,
          List.append_assoc, List.append_assoc, htokens fs]
        simp [fieldRow, fieldPhrases, Field.phrases]
      · have hobject : (Shape.object (inner ++ fs)).typedObjects = 0 := by
          rw [Shape.typedObjects, typedObjectsOfFields_append, hzero, hrest]
        exact Nat.add_eq_zero_iff.2 ⟨hobject, rfl⟩
  | .typedName n t :: fs =>
    obtain ⟨gs', hgs', rfl⟩ := Option.map_eq_some_iff.1 h
    have hcount : typedObjectsOfFields fs = 1 := by
      have hsum : 0 + typedObjectsOfFields fs = 1 := hfields
      omega
    obtain ⟨htokens, hzero, hne⟩ := tokens_openedFields fs hcount hgs'
    refine ⟨tokens_openedFields_cons rfl (openedFields?_nil hgs') hne htokens, ?_,
      List.cons_ne_nil _ _⟩
    exact Nat.add_eq_zero_iff.2 ⟨rfl, hzero⟩

end

/-! ## The last closing brace, doubled -/

/-- The row with its last closing brace twice. -/
def doubleLast : List Phrase → List Phrase
  | [] => []
  | l :: ls =>
    if ls.any Phrase.closes then l :: doubleLast ls
    else if l.closes then l :: l :: ls
    else l :: ls

section DoubleLast

variable {l : Phrase} {ks ls : List Phrase}

theorem doubleLast_of_none (h : ls.any Phrase.closes = false) : doubleLast ls = ls := by
  cases ls with
  | nil => rfl
  | cons l ls =>
    rw [List.any_cons, Bool.or_eq_false_iff] at h
    simp [doubleLast, h.1, h.2]

theorem doubleLast_cons (h : l.closes = false) : doubleLast (l :: ls) = l :: doubleLast ls := by
  rw [doubleLast, h]
  cases hls : ls.any Phrase.closes with
  | true => rfl
  | false =>
    rw [doubleLast_of_none hls]
    rfl

/-- Where the second of two rows has a closing brace, the last one is there. -/
theorem doubleLast_append (h : ls.any Phrase.closes = true) :
    doubleLast (ks ++ ls) = ks ++ doubleLast ls := by
  induction ks with
  | nil => rfl
  | cons k ks ih =>
    have hany : (ks ++ ls).any Phrase.closes = true := by rw [List.any_append, h, Bool.or_true]
    rw [List.cons_append, doubleLast, if_pos hany, ih]
    rfl

/-- Where it has none, the last one is in the first row. -/
theorem doubleLast_append_of_none (h : ls.any Phrase.closes = false) :
    doubleLast (ks ++ ls) = doubleLast ks ++ ls := by
  induction ks with
  | nil => exact doubleLast_of_none h
  | cons k ks ih =>
    have hany : (ks ++ ls).any Phrase.closes = ks.any Phrase.closes := by
      rw [List.any_append, h, Bool.or_false]
    rw [List.cons_append, doubleLast, doubleLast, hany, ih]
    split
    · rfl
    · split <;> rfl

theorem doubleLast_closed (ks : List Phrase) :
    doubleLast (ks ++ [.mark .closeObject]) = ks ++ [.mark .closeObject, .mark .closeObject] :=
  doubleLast_append rfl

end DoubleLast

theorem Shape.Cut.doubleLast {s : Shape} {xs ys zs : List Phrase} (h : s.Cut xs ys zs) :
    doubleLast s.phrases =
      xs ++ .typedOpen :: (ys ++ .mark .closeObject :: .mark .closeObject :: zs) := by
  have hzs : zs.any Phrase.closes = false := by
    rw [List.any_eq_false]
    intro l hl
    rw [Phrase.not_closes_of_braceless (h.last l hl)]
    decide
  have hcut : s.phrases = (xs ++ Phrase.typedOpen :: ys ++ [Phrase.mark .closeObject]) ++ zs := by
    rw [h.row]
    simp
  rw [hcut, doubleLast_append_of_none hzs, doubleLast_closed]
  simp

/-! ## What is read -/

theorem any_hasBrace_of_typedObjects {ss : List Shape} (h : 0 < typedObjectsOfItems ss) :
    ss.any Shape.hasBrace = true := by
  induction ss with
  | nil => exact absurd h (by simp [typedObjectsOfItems])
  | cons s ss ih =>
    have hsum : 0 < s.typedObjects + typedObjectsOfItems ss := h
    rw [List.any_cons, Bool.or_eq_true_iff]
    by_cases hs : 0 < s.typedObjects
    · exact .inl (Shape.hasBrace_of_typedObjects hs)
    · exact .inr (ih (by omega))

/-- An item before the one with the last closing brace is kept. -/
theorem doubleLast_itemRow {s : Shape} {ss : List Shape} (h : 0 < typedObjectsOfItems ss) :
    doubleLast (itemRow (s :: ss)) = s.phrases ++ .mark .comma :: doubleLast (itemRow ss) := by
  have hbrace := any_hasBrace_of_typedObjects h
  have hne : ss ≠ [] := by
    intro heq
    subst heq
    exact absurd h (by simp [typedObjectsOfItems])
  have hany : (itemPhrases ss).any Phrase.closes = true := by rw [any_closes_itemPhrases, hbrace]
  rw [itemRow, doubleLast_append hany, itemPhrases_eq hne, doubleLast_cons rfl]

theorem regroupedItems?_ne_nil {ss rs : List Shape} (h : regroupedItems? ss = some rs) :
    rs ≠ [] := by
  intro heq
  subst heq
  cases ss with
  | nil => exact absurd h (by simp [regroupedItems?])
  | cons s ss =>
    rw [regroupedItems?] at h
    split at h
    · exact absurd h (by simp)
    · split at h <;> exact absurd h (by simp)

mutual

/-- With its last closing brace doubled, a shape with one typed object is read as the regrouped
one. -/
theorem Shape.tokens_regrouped (s : Shape) (hs : s.typedObjects = 1) {r : Shape}
    (h : s.regrouped? = some r) :
    openTokens (doubleLast s.phrases) = jsonTokens r.phrases ∧ r.typedObjects = 0 := by
  match s with
  | .array items =>
    obtain ⟨rs, hrs, rfl⟩ := Option.map_eq_some_iff.1 h
    obtain ⟨htokens, hcount⟩ := tokens_regroupedItems items hs hrs
    refine ⟨?_, hcount⟩
    have hclose : [Phrase.mark .closeArray].any Phrase.closes = false := rfl
    have hopen : (Phrase.mark .openArray).closes = false := rfl
    rw [Shape.phrases_array, Shape.phrases_array, doubleLast_cons hopen,
      doubleLast_append_of_none hclose, openTokens_mark, openTokens_append, htokens,
      jsonTokens_mark, jsonTokens_append]
    rfl
  | .object fields =>
    obtain ⟨gs, hgs, rfl⟩ := Option.map_eq_some_iff.1 h
    obtain ⟨htokens, hcount, -⟩ := tokens_openedFields fields hs hgs
    refine ⟨?_, hcount⟩
    rw [Shape.phrases_object, Shape.phrases_object, ← List.cons_append, doubleLast_closed,
      List.cons_append, openTokens_mark, jsonTokens_mark, jsonTokens_append, ← htokens]
    simp
  | .typed fields =>
    obtain rfl := Option.some.inj h
    have hopened : (Shape.typed fields).opened? =
        some [.member (.quoted refKey) (.object fields)] := rfl
    obtain ⟨htokens, hcount, -⟩ := (Shape.typed fields).tokens_opened hs hopened
    refine ⟨?_, hcount⟩
    have hclosed := htokens []
    rw [List.append_nil] at hclosed
    rw [← hclosed, Shape.phrases_typed, ← List.cons_append, doubleLast_closed]
    simp [fieldPhrases]
  | .null | .bool _ | .integer _ _ | .text _ | .named _ | .listOf _ =>
    exact absurd h (by simp [Shape.regrouped?])

theorem tokens_regroupedItems (ss : List Shape) (hss : typedObjectsOfItems ss = 1)
    {rs : List Shape} (h : regroupedItems? ss = some rs) :
    openTokens (doubleLast (itemRow ss)) = jsonTokens (itemRow rs) ∧
      typedObjectsOfItems rs = 0 := by
  match ss with
  | [] => exact absurd h (by simp [regroupedItems?])
  | s :: ss =>
    rw [regroupedItems?] at h
    have hsum : s.typedObjects + typedObjectsOfItems ss = 1 := hss
    by_cases hs : s.typedObjects = 0
    · rw [if_pos hs] at h
      obtain ⟨rs', hrs', rfl⟩ := Option.map_eq_some_iff.1 h
      have hrest : typedObjectsOfItems ss = 1 := by omega
      obtain ⟨htokens, hcount⟩ := tokens_regroupedItems ss hrest hrs'
      refine ⟨?_, Nat.add_eq_zero_iff.2 ⟨hs, hcount⟩⟩
      rw [doubleLast_itemRow (Nat.lt_of_lt_of_eq Nat.zero_lt_one hrest.symm), openTokens_append,
        openTokens_mark, htokens, Shape.openTokens_eq hs, itemRow,
        itemPhrases_eq (regroupedItems?_ne_nil hrs'), jsonTokens_append, jsonTokens_mark]
    · have hcount : s.typedObjects = 1 := by omega
      have hrest : typedObjectsOfItems ss = 0 := by omega
      rw [if_neg hs] at h
      cases hbrace : ss.any Shape.hasBrace with
      | true => exact absurd h (by simp [hbrace])
      | false =>
        rw [hbrace] at h
        obtain ⟨r, hr, rfl⟩ := Option.map_eq_some_iff.1 h
        obtain ⟨htokens, hzero⟩ := s.tokens_regrouped hcount hr
        -- no brace comes later, so the doubled one is in this item
        refine ⟨?_, Nat.add_eq_zero_iff.2 ⟨hzero, hrest⟩⟩
        have hany : (itemPhrases ss).any Phrase.closes = false := by
          rw [any_closes_itemPhrases, hbrace]
        rw [itemRow, itemRow, doubleLast_append_of_none hany, openTokens_append, htokens,
          openTokens_itemPhrases hrest, jsonTokens_append]

end

end ApiCatalog.Response
