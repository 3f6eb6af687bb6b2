import ApiCatalog.Proofs.Response.Braces

/-!
# Rows of phrases through the parser

The first three expansions spell out each phrase on its own, and so does the last one. In between,
the first typed object becomes a reference. So the text that is decoded lays out a row that is
known from the row of the shorthand: phrase by phrase if no typed object opens
(`Layout.expand`), and else with the first typed object drawn out to the last closing brace
(`Layout.expand_typedObject`).
-/

namespace ApiCatalog.Response

open ApiCatalog.Quoting

/-! ## Orderly rows stay orderly -/

section Orderly

variable {l : Phrase} {ls rest : List Phrase}

theorem orderly_reference {target : List Phrase}
    (h : ∀ rest, WordStop rest → Orderly rest → Orderly (target ++ rest)) (hrest : Orderly rest) :
    Orderly (reference target ++ rest) := by
  have hclose : Orderly (target ++ .mark .closeObject :: rest) :=
    h _ (by simp [WordStop, Phrase.endsWord]) ⟨by simp [Phrase.endsInWord], hrest⟩
  simpa [reference, Orderly, Phrase.endsInWord] using hclose

theorem orderly_quoted (w : Word) (hrest : Orderly rest) :
    Orderly (reference [.literal w.quoted] ++ rest) :=
  orderly_reference (fun _ _ h => ⟨by simp [Phrase.endsInWord], h⟩) hrest

theorem Orderly.spellList (h : Orderly ls) : Orderly (ls.flatMap spellList) := by
  refine h.flatMap (fun _ => rfl) ?_
  intro l _ rest hl hrest
  cases l with
  | listType t =>
    simp [Response.spellList, Orderly, Phrase.endsInWord, WordStop, Phrase.endsWord, hrest]
  | _ => exact ⟨hl, hrest⟩

theorem Orderly.quoteKey (h : Orderly ls) : Orderly (ls.flatMap quoteKey) := by
  refine h.flatMap (fun _ => rfl) ?_
  intro l _ rest hl hrest
  cases l with
  | key n => simp [Response.quoteKey, Orderly, Phrase.endsInWord, hrest]
  | _ => exact ⟨hl, hrest⟩

theorem Orderly.spellField (h : Orderly ls) : Orderly (ls.flatMap spellField) := by
  refine h.flatMap (fun _ => rfl) ?_
  intro l _ rest hl hrest
  cases l with
  | typedField n t =>
    exact ⟨by simp [Phrase.endsInWord], by simp [Phrase.endsInWord], orderly_quoted t hrest⟩
  | _ => exact ⟨hl, hrest⟩

theorem Orderly.spellType (h : Orderly ls) : Orderly (ls.flatMap spellType) := by
  refine h.flatMap (fun _ => rfl) ?_
  intro l _ rest hl hrest
  cases l with
  | namedType t => exact orderly_quoted t hrest
  | _ => exact ⟨hl, hrest⟩

end Orderly

/-! ## Spelling out -/

/-- What the first three expansions make of a phrase. -/
def spellOut (l : Phrase) : List Phrase :=
  (spellList l).flatMap fun k => (quoteKey k).flatMap spellField

theorem flatMap_spellOut (ls : List Phrase) :
    ls.flatMap spellOut = ((ls.flatMap spellList).flatMap quoteKey).flatMap spellField := by
  simp only [List.flatMap_assoc]
  rfl

theorem spelled_spellOut (l : Phrase) : ∀ k ∈ spellOut l, k.spelled = true := by
  cases l <;>
    simp [spellOut, spellList, quoteKey, spellField, reference, Phrase.spelled]

theorem typedOpen_mem_spellOut {l : Phrase} : .typedOpen ∈ spellOut l ↔ l = .typedOpen := by
  cases l <;> simp [spellOut, spellList, quoteKey, spellField, reference]

section Spelling

variable {ls : List Phrase} {text : List Char}

theorem Orderly.spellOut (h : Orderly ls) : Orderly (ls.flatMap spellOut) := by
  rw [flatMap_spellOut]
  exact h.spellList.quoteKey.spellField

theorem spelled_of_mem_flatMap {k : Phrase} (h : k ∈ ls.flatMap spellOut) : k.spelled = true := by
  obtain ⟨l, -, hk⟩ := List.mem_flatMap.1 h
  exact spelled_spellOut l k hk

theorem typedOpen_mem_flatMap (h : .typedOpen ∈ ls.flatMap spellOut) : .typedOpen ∈ ls := by
  obtain ⟨l, hl, hk⟩ := List.mem_flatMap.1 h
  exact typedOpen_mem_spellOut.1 hk ▸ hl

/-- The first three expansions. -/
theorem Layout.spellOut (h : Layout isSpace ls text) (ho : Orderly ls) :
    Layout isSpace (ls.flatMap spellOut) (expandTypedFields (quoteKeys (expandListTypes text))) := by
  rw [flatMap_spellOut, expandListTypes_eq, quoteKeys_eq, expandTypedFields_eq]
  have hlists := h.rewrite avoids_listType rewrite_wordLed_gap (fun l _ => maps_spellList l) ho
  have hkeys := hlists.rewrite avoids_keyAndColons rewrite_wordLed_gap
    (fun l _ => maps_quoteKey l) ho.spellList
  exact hkeys.rewrite avoids_typedField rewrite_wordLed_gap (fun l _ => maps_spellField l)
    ho.spellList.quoteKey

/-- The last expansion. -/
theorem Layout.spellType (h : Layout isSpace ls text) (ho : Orderly ls)
    (hspelled : ∀ l ∈ ls, l.spelled = true) :
    Layout isSpace (ls.flatMap spellType) (expandNamedTypes text) := by
  rw [expandNamedTypes_eq]
  exact h.rewrite avoids_namedType rewrite_namedType_gap
    (fun l hl => maps_spellType (hspelled l hl)) ho

theorem expand_eq (text : List Char) :
    expand text = expandNamedTypes (expandTypedObjects
      (expandTypedFields (quoteKeys (expandListTypes text)))) := rfl

/-- What the expansions make of a phrase of a row in which no typed object opens. -/
def json (l : Phrase) : List Phrase := (spellOut l).flatMap spellType

theorem flatMap_json (ls : List Phrase) :
    ls.flatMap json = (ls.flatMap spellOut).flatMap spellType := by
  rw [List.flatMap_assoc]
  rfl

/-- A row in which no typed object opens is expanded phrase by phrase. -/
theorem Layout.expand (h : Layout isSpace ls text) (ho : Orderly ls) (hopen : .typedOpen ∉ ls) :
    Layout isSpace (ls.flatMap json) (expand text) ∧ Orderly (ls.flatMap json) := by
  have hout := h.spellOut ho
  have hspelled : ∀ k ∈ ls.flatMap Response.spellOut, k.spelled = true :=
    fun k => spelled_of_mem_flatMap
  -- references have braces, but no colons stand before them
  have hkept := hout.rewrite_typedObject_self hspelled fun hk => hopen (typedOpen_mem_flatMap hk)
  rw [expand_eq, expandTypedObjects_eq, hkept, flatMap_json]
  exact ⟨hout.spellType ho.spellOut hspelled, ho.spellOut.spellType⟩

/-- A phrase whose expansion neither opens a typed object nor closes any object before the step that
looks for typed objects. -/
def Phrase.braceless : Phrase → Bool
  | mark .closeObject => false
  | typedField _ _ => false
  | typedOpen => false
  | _ => true

theorem closeObject_mem_spellOut {l : Phrase} (hl : l.braceless = true) :
    .mark .closeObject ∉ spellOut l := by
  cases l with
  | mark p => cases p <;> simp [spellOut, spellList, quoteKey, spellField, Phrase.braceless] at hl ⊢
  | typedField n t => exact absurd hl (by simp [Phrase.braceless])
  | _ => simp [spellOut, spellList, quoteKey, spellField]

theorem flatMap_spellType_reference (target : List Phrase) :
    (reference target).flatMap Response.spellType =
      reference (target.flatMap Response.spellType) := by
  simp [reference, Response.spellType]

theorem spelled_reference {target : List Phrase} (h : ∀ k ∈ target, k.spelled = true) :
    ∀ k ∈ reference target, k.spelled = true := by
  simp only [reference, List.forall_mem_cons, List.forall_mem_append]
  exact ⟨rfl, rfl, rfl, h, rfl, by simp⟩

/-- What follows in an orderly row may be replaced. -/
theorem Orderly.replace {ks ls' : List Phrase} (h : Orderly (ks ++ ls)) (h' : Orderly ls')
    (hstop : WordStop ls → WordStop ls') : Orderly (ks ++ ls') := by
  induction ks with
  | nil => exact h'
  | cons k ks ih =>
    refine ⟨?_, ih h.2⟩
    intro hk
    have hnext := h.1 hk
    cases ks with
    | nil => exact hstop hnext
    | cons j ks => exact hnext

theorem Orderly.right {ks : List Phrase} (h : Orderly (ks ++ ls)) : Orderly ls := by
  induction ks with
  | nil => exact h
  | cons k ks ih => exact ih h.2

/-- A row in which a typed object is drawn out to a closing brace stays orderly. -/
theorem Orderly.drawnOut {xs ys zs : List Phrase}
    (h : Orderly (xs ++ .typedOpen :: (ys ++ .mark .closeObject :: zs))) :
    Orderly (xs ++ (Response.reference (.mark .openObject :: (ys ++ [.mark .closeObject])) ++ zs)) := by
  have htail : Orderly (ys ++ Phrase.mark .closeObject :: zs) := h.right.2
  -- the closing brace is written twice, and either may follow a word
  have htwice : Orderly (.mark .closeObject :: .mark .closeObject :: zs) :=
    ⟨by simp [Phrase.endsInWord], htail.right⟩
  have hclosed : Orderly (ys ++ Phrase.mark .closeObject :: .mark .closeObject :: zs) :=
    htail.replace htwice fun _ => by simp [WordStop, Phrase.endsWord]
  have hreference : Orderly
      (Response.reference (.mark .openObject :: (ys ++ [Phrase.mark .closeObject])) ++ zs) := by
    simpa [Response.reference, Orderly, Phrase.endsInWord] using hclosed
  exact h.replace hreference fun hstop => by simp [WordStop, Phrase.endsWord] at hstop

/-- In a row in which typed objects open, the first one is drawn out to the last closing brace. -/
theorem Layout.expand_typedObject {xs ys zs : List Phrase}
    (h : Layout isSpace (xs ++ .typedOpen :: (ys ++ .mark .closeObject :: zs)) text)
    (ho : Orderly (xs ++ .typedOpen :: (ys ++ .mark .closeObject :: zs)))
    (hxs : .typedOpen ∉ xs) (hzs : ∀ l ∈ zs, l.braceless = true) :
    Layout isSpace
        (xs.flatMap json ++ (reference (.mark .openObject :: (ys.flatMap json ++
          [.mark .closeObject])) ++ zs.flatMap json)) (Response.expand text) ∧
      Orderly (xs.flatMap json ++ (reference (.mark .openObject :: (ys.flatMap json ++
        [.mark .closeObject])) ++ zs.flatMap json)) := by
  have hcut : (xs ++ Phrase.typedOpen :: (ys ++ Phrase.mark .closeObject :: zs)).flatMap
        Response.spellOut =
      xs.flatMap Response.spellOut ++ Phrase.typedOpen :: (ys.flatMap Response.spellOut ++
        Phrase.mark .closeObject :: zs.flatMap Response.spellOut) := by
    simp [Response.spellOut, spellList, quoteKey, spellField]
  have hout := h.spellOut ho
  have hoOut := ho.spellOut
  rw [hcut] at hout hoOut
  -- a field of a named type is written with braces, so `zs` may hold none
  have hlast : .typedOpen ∉ zs.flatMap Response.spellOut ∧
      .mark .closeObject ∉ zs.flatMap Response.spellOut := by
    refine ⟨?_, ?_⟩
    · intro hmem
      exact absurd (hzs _ (typedOpen_mem_flatMap hmem)) (by simp [Phrase.braceless])
    · intro hmem
      obtain ⟨l, hl, hk⟩ := List.mem_flatMap.1 hmem
      exact closeObject_mem_spellOut (hzs l hl) hk
  have hopened := hout.expandTypedObjects (fun k => spelled_of_mem_flatMap)
    (fun hk => hxs (typedOpen_mem_flatMap hk)) (fun k => spelled_of_mem_flatMap) hlast
  rw [← expandTypedObjects_eq] at hopened
  have horderly := hoOut.drawnOut
  have hspelled : ∀ k ∈ xs.flatMap Response.spellOut ++
      (reference (.mark .openObject :: (ys.flatMap Response.spellOut ++
        [Phrase.mark .closeObject])) ++ zs.flatMap Response.spellOut), k.spelled = true := by
    have hrow : ∀ ks : List Phrase, ∀ k ∈ ks.flatMap Response.spellOut, k.spelled = true :=
      fun ks k => spelled_of_mem_flatMap
    refine List.forall_mem_append.2 ⟨hrow xs, List.forall_mem_append.2 ⟨?_, hrow zs⟩⟩
    refine spelled_reference (List.forall_mem_cons.2 ⟨rfl, List.forall_mem_append.2 ⟨hrow ys, ?_⟩⟩)
    simp [Phrase.spelled]
  have htypes := hopened.spellType horderly hspelled
  have hjson : (xs.flatMap Response.spellOut ++
      (reference (.mark .openObject :: (ys.flatMap Response.spellOut ++
        [Phrase.mark .closeObject])) ++ zs.flatMap Response.spellOut)).flatMap Response.spellType =
      xs.flatMap json ++ (reference (.mark .openObject :: (ys.flatMap json ++
        [Phrase.mark .closeObject])) ++ zs.flatMap json) := by
    simp only [List.flatMap_append, flatMap_spellType_reference, flatMap_json, List.flatMap_cons,
      List.flatMap_nil]
    rfl
  rw [hjson] at htypes
  exact ⟨htypes, hjson ▸ horderly.spellType⟩

end Spelling

end ApiCatalog.Response
