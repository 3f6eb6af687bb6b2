import ApiCatalog.Proofs.Response.Regrouping

/-!
# Shapes that are read as they stand

The regrouped shape stands for the same document if after the brace of the typed object only closing
braces come, up to the last closing brace of the text (`Shape.closesLast`). Where the keys of each
object are distinct there is no other way for it to denote the same value.
-/

namespace ApiCatalog.Response

open ApiCatalog.Json

/-! ## Where the typed object ends -/

mutual

/-- After the brace of the typed object the shape only closes objects. -/
def Shape.closesAtOnce : Shape → Bool
  | .object fields => closesAtOnceIn fields
  | .typed _ => true
  | _ => false

def closesAtOnceIn : List Field → Bool
  | [] => false
  | .member _ s :: fs =>
    if s.typedObjects = 0 then closesAtOnceIn fs else fs.isEmpty && s.closesAtOnce
  | .typedName _ _ :: fs => closesAtOnceIn fs

end

mutual

/-- Between the brace of the typed object and the last closing brace of the shape there are only
closing braces. -/
def Shape.closesLast : Shape → Bool
  | .array items => closesLastIn items
  | .object fields => closesAtOnceIn fields
  | .typed _ => true
  | _ => false

def closesLastIn : List Shape → Bool
  | [] => false
  | s :: ss =>
    if s.typedObjects = 0 then closesLastIn ss else !ss.any Shape.hasBrace && s.closesLast

end

mutual

/-- What is still open is the shape itself, if the shape only closes objects. -/
theorem Shape.exists_opened (s : Shape) (h : s.closesAtOnce = true) :
    ∃ fs, s.opened? = some fs ∧ (Shape.object fs).document = s.document := by
  match s with
  | .object fields =>
    obtain ⟨gs, hgs, hdocuments⟩ := exists_openedFields fields h
    refine ⟨gs, hgs, ?_⟩
    rw [Shape.document, Shape.document, hdocuments]
  | .typed fields => exact ⟨_, rfl, rfl⟩
  | .null | .bool _ | .integer _ _ | .text _ | .array _ | .named _ | .listOf _ =>
    exact absurd h (by simp [Shape.closesAtOnce])

theorem exists_openedFields (fs : List Field) (h : closesAtOnceIn fs = true) :
    ∃ gs, openedFields? fs = some gs ∧ fieldDocuments gs = fieldDocuments fs := by
  match fs with
  | [] => exact absurd h (by simp [closesAtOnceIn])
  | .member k s :: fs =>
    rw [closesAtOnceIn] at h
    rw [openedFields?]
    by_cases hs : s.typedObjects = 0
    · rw [if_pos hs] at h ⊢
      obtain ⟨gs, hgs, hdocuments⟩ := exists_openedFields fs h
      refine ⟨_, Option.map_eq_some_iff.2 ⟨_, hgs, rfl⟩, ?_⟩
      rw [fieldDocuments, fieldDocuments, hdocuments]
    · rw [if_neg hs, Bool.and_eq_true, List.isEmpty_iff] at h
      obtain ⟨rfl, hclose⟩ := h
      obtain ⟨inner, hinner, hdocument⟩ := s.exists_opened hclose
      rw [if_neg hs]
      refine ⟨_, Option.map_eq_some_iff.2 ⟨_, hinner, rfl⟩, ?_⟩
      show fieldDocuments [.member k (.object (inner ++ []))] = _
      simp only [List.append_nil, fieldDocuments, Field.document, hdocument]
  | .typedName n t :: fs =>
    obtain ⟨gs, hgs, hdocuments⟩ := exists_openedFields fs h
    refine ⟨_, Option.map_eq_some_iff.2 ⟨_, hgs, rfl⟩, ?_⟩
    rw [fieldDocuments, fieldDocuments, hdocuments]

end

mutual

/-- Such a shape is regrouped to one that stands for the same document. -/
theorem Shape.exists_regrouped (s : Shape) (h : s.closesLast = true) :
    ∃ r, s.regrouped? = some r ∧ r.document = s.document := by
  match s with
  | .array items =>
    obtain ⟨rs, hrs, hdocuments⟩ := exists_regroupedItems items h
    refine ⟨_, Option.map_eq_some_iff.2 ⟨_, hrs, rfl⟩, ?_⟩
    rw [Shape.document, Shape.document, hdocuments]
  | .object fields =>
    obtain ⟨gs, hgs, hdocuments⟩ := exists_openedFields fields h
    refine ⟨_, Option.map_eq_some_iff.2 ⟨_, hgs, rfl⟩, ?_⟩
    rw [Shape.document, Shape.document, hdocuments]
  | .typed fields => exact ⟨_, rfl, rfl⟩
  | .null | .bool _ | .integer _ _ | .text _ | .named _ | .listOf _ =>
    exact absurd h (by simp [Shape.closesLast])

theorem exists_regroupedItems (ss : List Shape) (h : closesLastIn ss = true) :
    ∃ rs, regroupedItems? ss = some rs ∧ itemDocuments rs = itemDocuments ss := by
  match ss with
  | [] => exact absurd h (by simp [closesLastIn])
  | s :: ss =>
    rw [closesLastIn] at h
    rw [regroupedItems?]
    by_cases hs : s.typedObjects = 0
    · rw [if_pos hs] at h ⊢
      obtain ⟨rs, hrs, hdocuments⟩ := exists_regroupedItems ss h
      refine ⟨_, Option.map_eq_some_iff.2 ⟨_, hrs, rfl⟩, ?_⟩
      rw [itemDocuments, itemDocuments, hdocuments]
    · rw [if_neg hs, Bool.and_eq_true, Bool.not_eq_true'] at h
      obtain ⟨hbrace, hclose⟩ := h
      obtain ⟨r, hr, hdocument⟩ := s.exists_regrouped hclose
      rw [if_neg hs, hbrace]
      refine ⟨_, Option.map_eq_some_iff.2 ⟨_, hr, rfl⟩, ?_⟩
      rw [itemDocuments, itemDocuments, hdocument]

end

/-! ## Distinct keys -/

/-- The key of a field, as a string. -/
def Field.name : Field → String
  | .member k _ => k.literal.string
  | .typedName n _ => n.string

/-- The member that a field denotes. -/
def Field.denote : Field → String × Value
  | .member k s => (k.literal.string, s.denote)
  | .typedName n t => (n.string, referenceValue (.string t.string))

mutual

/-- No object of the shape has a key twice. -/
def Shape.DistinctKeys : Shape → Prop
  | .array items => distinctKeysIn items
  | .object fields => (fields.map Field.name).Nodup ∧ distinctKeysUnder fields
  | .typed fields => (fields.map Field.name).Nodup ∧ distinctKeysUnder fields
  | _ => True

def distinctKeysIn : List Shape → Prop
  | [] => True
  | s :: ss => s.DistinctKeys ∧ distinctKeysIn ss

def distinctKeysUnder : List Field → Prop
  | [] => True
  | .member _ s :: fs => s.DistinctKeys ∧ distinctKeysUnder fs
  | .typedName _ _ :: fs => distinctKeysUnder fs

end

theorem Field.fst_denote (f : Field) : f.denote.1 = f.name := by
  cases f <;> rfl

theorem denoteFields_cons (before : List (String × Value)) (f : Field) (fs : List Field) :
    denoteFields before (f :: fs) = denoteFields (upsert f.denote.1 f.denote.2 before) fs := by
  cases f <;> rfl

/-- New keys denote one member each, after those that are there. -/
theorem denoteFields_append {before : List (String × Value)} {fs : List Field}
    (h : (before.map Prod.fst ++ fs.map Field.name).Nodup) :
    denoteFields before fs = before ++ fs.map Field.denote := by
  induction fs generalizing before with
  | nil => exact (List.append_nil before).symm
  | cons f fs ih =>
    have hnew : f.denote.1 ∉ before.map Prod.fst := by
      intro hmem
      rw [List.map_cons, List.nodup_append] at h
      exact h.2.2 _ hmem _ List.mem_cons_self f.fst_denote
    have hrest : ((before ++ [f.denote]).map Prod.fst ++ fs.map Field.name).Nodup := by
      simpa [f.fst_denote] using h
    rw [denoteFields_cons, upsert_of_not_mem hnew, ih hrest, List.append_assoc]
    rfl

/-- Fields with distinct keys denote one member each. -/
theorem denoteFields_eq {fs : List Field} (h : (fs.map Field.name).Nodup) :
    denoteFields [] fs = fs.map Field.denote :=
  denoteFields_append h

/-- What is left open has no new keys of its own. -/
theorem names_openedFields {fs gs : List Field} (h : openedFields? fs = some gs) :
    (gs.map Field.name).Sublist (fs.map Field.name) := by
  match fs with
  | [] => exact absurd h (by simp [openedFields?])
  | .member k s :: fs =>
    rw [openedFields?] at h
    split at h
    · obtain ⟨gs', hgs', rfl⟩ := Option.map_eq_some_iff.1 h
      exact (names_openedFields hgs').cons_cons _
    · obtain ⟨inner, -, rfl⟩ := Option.map_eq_some_iff.1 h
      exact (List.nil_sublist _).cons_cons _
  | .typedName n t :: fs =>
    obtain ⟨gs', hgs', rfl⟩ := Option.map_eq_some_iff.1 h
    exact (names_openedFields hgs').cons_cons _

/-- Objects with distinct keys that denote the same value have the same members. -/
theorem map_denote_eq {fs gs : List Field} (hfs : (fs.map Field.name).Nodup)
    (hgs : (gs.map Field.name).Nodup)
    (h : (Shape.object gs).denote = (Shape.object fs).denote) :
    gs.map Field.denote = fs.map Field.denote := by
  have hmembers : denoteFields [] gs = denoteFields [] fs := Value.object.inj h
  rwa [denoteFields_eq hgs, denoteFields_eq hfs] at hmembers

mutual

/-- If what is left open denotes what the shape does, then the shape only closes objects. -/
theorem Shape.closesAtOnce_of_denote (s : Shape) {fs : List Field} (hs : s.DistinctKeys)
    (hopened : s.opened? = some fs) (h : (Shape.object fs).denote = s.denote) :
    s.closesAtOnce = true := by
  match s with
  | .object fields =>
    exact closesAtOnceIn_of_denote fields hs.2 hopened
      (map_denote_eq hs.1 ((names_openedFields hopened).nodup hs.1) h)
  | .typed fields => rfl
  | .null | .bool _ | .integer _ _ | .text _ | .array _ | .named _ | .listOf _ =>
    exact absurd hopened (by simp [Shape.opened?])

theorem closesAtOnceIn_of_denote (fs : List Field) {gs : List Field} (hfs : distinctKeysUnder fs)
    (hopened : openedFields? fs = some gs) (h : gs.map Field.denote = fs.map Field.denote) :
    closesAtOnceIn fs = true := by
  match fs with
  | [] => exact absurd hopened (by simp [openedFields?])
  | .member k s :: fs =>
    rw [openedFields?] at hopened
    rw [closesAtOnceIn]
    by_cases hs : s.typedObjects = 0
    · rw [if_pos hs] at hopened ⊢
      obtain ⟨gs', hgs', rfl⟩ := Option.map_eq_some_iff.1 hopened
      exact closesAtOnceIn_of_denote fs hfs.2 hgs' (List.cons.inj h).2
    · rw [if_neg hs] at hopened ⊢
      obtain ⟨inner, hinner, rfl⟩ := Option.map_eq_some_iff.1 hopened
      obtain ⟨hmember, hrest⟩ := List.cons.inj h
      -- the regrouped object ends with this member, so no field comes after it
      obtain rfl : fs = [] := List.map_eq_nil_iff.1 hrest.symm
      have hdenote : (Shape.object (inner ++ [])).denote = s.denote := (Prod.mk.inj hmember).2
      rw [List.append_nil] at hdenote
      exact s.closesAtOnce_of_denote hfs.1 hinner hdenote
  | .typedName n t :: fs =>
    obtain ⟨gs', hgs', rfl⟩ := Option.map_eq_some_iff.1 hopened
    exact closesAtOnceIn_of_denote fs hfs hgs' (List.cons.inj h).2

end

mutual

/-- If the regrouped shape denotes what the shape does, the typed object is closed last. -/
theorem Shape.closesLast_of_denote (s : Shape) {r : Shape} (hs : s.DistinctKeys)
    (hr : s.regrouped? = some r) (h : r.denote = s.denote) : s.closesLast = true := by
  match s with
  | .array items =>
    obtain ⟨rs, hrs, rfl⟩ := Option.map_eq_some_iff.1 hr
    exact closesLastIn_of_denote items hs hrs (Value.array.inj h)
  | .object fields =>
    obtain ⟨gs, hgs, rfl⟩ := Option.map_eq_some_iff.1 hr
    exact closesAtOnceIn_of_denote fields hs.2 hgs
      (map_denote_eq hs.1 ((names_openedFields hgs).nodup hs.1) h)
  | .typed fields => rfl
  | .null | .bool _ | .integer _ _ | .text _ | .named _ | .listOf _ =>
    exact absurd hr (by simp [Shape.regrouped?])

theorem closesLastIn_of_denote (ss : List Shape) {rs : List Shape} (hss : distinctKeysIn ss)
    (hrs : regroupedItems? ss = some rs) (h : denoteItems rs = denoteItems ss) :
    closesLastIn ss = true := by
  match ss with
  | [] => exact absurd hrs (by simp [regroupedItems?])
  | s :: ss =>
    rw [regroupedItems?] at hrs
    rw [closesLastIn]
    by_cases hs : s.typedObjects = 0
    · rw [if_pos hs] at hrs ⊢
      obtain ⟨rs', hrs', rfl⟩ := Option.map_eq_some_iff.1 hrs
      exact closesLastIn_of_denote ss hss.2 hrs' (List.cons.inj h).2
    · rw [if_neg hs] at hrs ⊢
      cases hbrace : ss.any Shape.hasBrace with
      | true => exact absurd hrs (by simp [hbrace])
      | false =>
        rw [hbrace] at hrs
        obtain ⟨r, hr, rfl⟩ := Option.map_eq_some_iff.1 hrs
        exact s.closesLast_of_denote hss.1 hr (List.cons.inj h).1

end

end ApiCatalog.Response
