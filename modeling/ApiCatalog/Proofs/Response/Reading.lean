import ApiCatalog.Proofs.Json.Assembly
import ApiCatalog.Proofs.Response.Shapes
import ApiCatalog.Proofs.Response.Tokens

/-!
# Reading expanded shapes

The phrases of a shape, expanded and cut into tokens, are assembled to its document, one shape in
place of one value (`Shape.run_tokens`). With that the parser reads every shape without typed
objects as what the shape denotes (`parse_shape`).
-/

namespace ApiCatalog.Response

open ApiCatalog.Json
open ApiCatalog.Json.Document (Assembly Frame ofBare?)
open ApiCatalog.Text

/-! ## Words end where shapes end -/

section Orderly

theorem wordStop_mark {p : Punctuation} {rest : List Phrase} (h : (Phrase.mark p).endsWord = true) :
    WordStop (.mark p :: rest) := by
  intro l hl
  rwa [← Option.some.inj hl]

theorem orderly_mark {p : Punctuation} {rest : List Phrase} (h : Orderly rest) :
    Orderly (.mark p :: rest) :=
  ⟨by simp [Phrase.endsInWord], h⟩

mutual

/-- The row of a shape is orderly before a stop. -/
theorem Shape.orderly (s : Shape) {rest : List Phrase} (hstop : WordStop rest)
    (h : Orderly rest) : Orderly (s.phrases ++ rest) := by
  match s with
  | .null => exact ⟨fun _ => hstop, h⟩
  | .bool b => exact ⟨fun _ => hstop, h⟩
  | .integer n _ => exact ⟨fun _ => hstop, h⟩
  | .text l => exact ⟨by simp [Phrase.endsInWord], h⟩
  | .array [] => exact orderly_mark (orderly_mark h)
  | .array (s :: ss) =>
    obtain ⟨hstop', h'⟩ := orderly_itemPhrases ss (wordStop_mark (p := .closeArray) rfl)
      (orderly_mark h)
    rw [Shape.phrases, List.cons_append, List.append_assoc, List.append_assoc]
    exact orderly_mark (s.orderly hstop' h')
  | .object [] => exact orderly_mark (orderly_mark h)
  | .object (f :: fs) =>
    obtain ⟨hstop', h'⟩ := orderly_fieldPhrases fs (wordStop_mark (p := .closeObject) rfl)
      (orderly_mark h)
    rw [Shape.phrases, List.cons_append, List.append_assoc, List.append_assoc]
    exact orderly_mark (f.orderly hstop' h')
  | .named t => exact ⟨fun _ => hstop, h⟩
  | .listOf t => exact ⟨by simp [Phrase.endsInWord], h⟩
  | .typed [] => exact ⟨by simp [Phrase.endsInWord], orderly_mark h⟩
  | .typed (f :: fs) =>
    obtain ⟨hstop', h'⟩ := orderly_fieldPhrases fs (wordStop_mark (p := .closeObject) rfl)
      (orderly_mark h)
    rw [Shape.phrases, List.cons_append, List.append_assoc, List.append_assoc]
    exact ⟨by simp [Phrase.endsInWord], f.orderly hstop' h'⟩

theorem orderly_itemPhrases (ss : List Shape) {rest : List Phrase} (hstop : WordStop rest)
    (h : Orderly rest) : WordStop (itemPhrases ss ++ rest) ∧ Orderly (itemPhrases ss ++ rest) := by
  match ss with
  | [] => exact ⟨hstop, h⟩
  | s :: ss =>
    obtain ⟨hstop', h'⟩ := orderly_itemPhrases ss hstop h
    rw [itemPhrases, List.cons_append, List.append_assoc]
    exact ⟨wordStop_mark rfl, orderly_mark (s.orderly hstop' h')⟩

theorem Field.orderly (f : Field) {rest : List Phrase} (hstop : WordStop rest)
    (h : Orderly rest) : Orderly (f.phrases ++ rest) := by
  match f with
  | .member (.bare w) s => exact ⟨by simp [Phrase.endsInWord], s.orderly hstop h⟩
  | .member (.quoted l) s =>
    exact ⟨by simp [Phrase.endsInWord], by simp [Phrase.endsInWord], s.orderly hstop h⟩
  | .typedName n t => exact ⟨fun _ => hstop, h⟩

theorem orderly_fieldPhrases (fs : List Field) {rest : List Phrase} (hstop : WordStop rest)
    (h : Orderly rest) : WordStop (fieldPhrases fs ++ rest) ∧ Orderly (fieldPhrases fs ++ rest) := by
  match fs with
  | [] => exact ⟨hstop, h⟩
  | f :: fs =>
    obtain ⟨hstop', h'⟩ := orderly_fieldPhrases fs hstop h
    rw [fieldPhrases, List.cons_append, List.append_assoc]
    exact ⟨wordStop_mark rfl, orderly_mark (f.orderly hstop' h')⟩

end

theorem Shape.orderly_phrases (s : Shape) : Orderly s.phrases := by
  have hstop : WordStop [] := by simp [WordStop]
  have h := s.orderly hstop trivial
  rwa [List.append_nil] at h

end Orderly

/-! ## Tokens of expanded rows -/

/-- The tokens of a row of phrases after the expansions. -/
def jsonTokens (ls : List Phrase) : List Token := (ls.flatMap json).flatMap Phrase.tokens

@[simp] theorem jsonTokens_nil : jsonTokens [] = [] := rfl

@[simp] theorem jsonTokens_append (ks ls : List Phrase) :
    jsonTokens (ks ++ ls) = jsonTokens ks ++ jsonTokens ls := by
  simp [jsonTokens]

@[simp] theorem jsonTokens_mark (p : Punctuation) (ls : List Phrase) :
    jsonTokens (.mark p :: ls) = .mark p :: jsonTokens ls := rfl

@[simp] theorem jsonTokens_typedOpen (ls : List Phrase) :
    jsonTokens (.typedOpen :: ls) =
      .mark .colon :: .mark .colon :: .mark .openObject :: jsonTokens ls := rfl

theorem jsonTokens_key (k : Key) :
    jsonTokens k.phrases = [.string k.literal.pieces, .mark .colon] := by
  cases k <;> rfl

theorem jsonTokens_integer (n : Int) :
    jsonTokens [integerPhrase n] = [.bare (Number.integer n).write] := by
  rw [write_integer, integerPhrase]
  by_cases hn : n < 0
  · simp only [hn, if_true, decide_true]
    rfl
  · simp only [hn, if_false, decide_false]
    rfl

/-! ## Assembly -/

section Assembly

variable {stack : List Frame} {ts : List Token}

/-- Of the marks only opening ones begin a shape, no key and no field does, and a shape that begins
with a literal is that literal. -/
theorem Shape.exists_first_phrase (s : Shape) :
    ∃ l ls, s.phrases = l :: ls ∧ (∀ p, l = .mark p → p = .openArray ∨ p = .openObject) ∧
      (∀ k, l ≠ .key k) ∧ (∀ n t, l ≠ .typedField n t) ∧ ∀ k, l = .literal k → ls = [] := by
  match s with
  | .null => exact ⟨_, _, rfl, by simp⟩
  | .bool b => exact ⟨_, _, rfl, by simp⟩
  | .integer n _ =>
    refine ⟨integerPhrase n, _, rfl, ?_⟩
    rw [integerPhrase]
    split <;> simp
  | .text l => exact ⟨_, _, rfl, by simp⟩
  | .array [] => exact ⟨_, _, rfl, by simp⟩
  | .array (s :: ss) => exact ⟨_, _, rfl, by simp⟩
  | .object [] => exact ⟨_, _, rfl, by simp⟩
  | .object (f :: fs) => exact ⟨_, _, rfl, by simp⟩
  | .named t => exact ⟨_, _, rfl, by simp⟩
  | .listOf t => exact ⟨_, _, rfl, by simp⟩
  | .typed [] => exact ⟨_, _, rfl, by simp⟩
  | .typed (f :: fs) => exact ⟨_, _, rfl, by simp⟩

theorem exists_first_token {l : Phrase} (h : ∀ p, l = .mark p → p = .openArray ∨ p = .openObject)
    (ls : List Phrase) : ∃ t ts, jsonTokens (l :: ls) = t :: ts ∧ t ≠ .mark .closeArray := by
  cases l with
  | mark p => rcases h p rfl with rfl | rfl <;> exact ⟨_, _, rfl, by simp⟩
  | _ => exact ⟨_, _, rfl, by simp⟩

mutual

/-- How many typed objects a shape holds, at any depth. -/
def Shape.typedObjects : Shape → Nat
  | .array items => typedObjectsOfItems items
  | .object fields => typedObjectsOfFields fields
  | .typed fields => typedObjectsOfFields fields + 1
  | _ => 0

def typedObjectsOfItems : List Shape → Nat
  | [] => 0
  | s :: ss => s.typedObjects + typedObjectsOfItems ss

def Field.typedObjects : Field → Nat
  | .member _ s => s.typedObjects
  | .typedName _ _ => 0

def typedObjectsOfFields : List Field → Nat
  | [] => 0
  | f :: fs => f.typedObjects + typedObjectsOfFields fs

end

mutual

/-- The tokens of a shape without typed objects are assembled to its document. -/
theorem Shape.run_tokens (s : Shape) (h : s.typedObjects = 0) (stack : List Frame)
    (ts : List Token) :
    (Assembly.value stack).run (jsonTokens s.phrases ++ ts) =
      (Assembly.done stack s.document).run ts := by
  match s with
  | .null => rfl
  | .bool b => cases b <;> rfl
  | .integer n _ =>
    rw [Shape.phrases, jsonTokens_integer]
    exact run_bare (ofBare?_integer n)
  | .text l => rfl
  | .array [] => rfl
  | .array (s :: ss) =>
    obtain ⟨hs, hss⟩ := Nat.add_eq_zero_iff.1 h
    obtain ⟨l, ls, hphrases, hl, -⟩ := s.exists_first_phrase
    obtain ⟨t, ts', hfirst, ht⟩ := exists_first_token hl ls
    rw [← hphrases] at hfirst
    have hs' := s.run_tokens hs (.array [] :: stack)
      (jsonTokens (itemPhrases ss) ++ .mark .closeArray :: ts)
    rw [hfirst, List.cons_append] at hs'
    simp only [Shape.phrases, jsonTokens_mark, jsonTokens_append, jsonTokens_nil, List.cons_append,
      List.append_assoc, List.nil_append]
    -- the state after the bracket also accepts a closing one, which no shape begins with
    rw [run_openArray, hfirst, List.cons_append, run_firstItem ht, hs', run_itemTokens ss hss]
    rfl
  | .object [] => rfl
  | .object (f :: fs) =>
    obtain ⟨hf, hfs⟩ := Nat.add_eq_zero_iff.1 h
    have hf' := f.run_tokens hf
    simp only [Shape.phrases, jsonTokens_mark, jsonTokens_append, jsonTokens_nil, List.cons_append,
      List.append_assoc, List.nil_append]
    rw [run_openObject, (hf' stack [] _).1, run_fieldTokens fs hfs]
    rfl
  | .named t => rfl
  | .listOf t => rfl
  | .typed fields => exact absurd h (Nat.succ_ne_zero _)

/-- Further items are read after the first one, up to the end of the array. -/
theorem run_itemTokens (ss : List Shape) (h : typedObjectsOfItems ss = 0) (stack : List Frame)
    (before : List Document) (d : Document) (ts : List Token) :
    (Assembly.done (.array before :: stack) d).run
        (jsonTokens (itemPhrases ss) ++ .mark .closeArray :: ts) =
      (Assembly.done stack (.array (before.reverse ++ d :: itemDocuments ss))).run ts := by
  match ss with
  | [] =>
    rw [itemPhrases, jsonTokens_nil, List.nil_append, run_closeArray]
    simp [itemDocuments]
  | s :: ss =>
    obtain ⟨hs, hss⟩ := Nat.add_eq_zero_iff.1 h
    simp only [itemPhrases, jsonTokens_mark, jsonTokens_append, List.cons_append, List.append_assoc]
    rw [run_nextItem, s.run_tokens hs, run_itemTokens ss hss]
    simp [itemDocuments]

/-- A field is read at the start of an object, and after other members. -/
theorem Field.run_tokens (f : Field) (h : f.typedObjects = 0) (stack : List Frame)
    (before : List (List StringPiece × Document)) (ts : List Token) :
    (Assembly.firstKey stack).run (jsonTokens f.phrases ++ ts) =
        (Assembly.done (.object [] f.document.1 :: stack) f.document.2).run ts ∧
      (Assembly.key stack before).run (jsonTokens f.phrases ++ ts) =
        (Assembly.done (.object before f.document.1 :: stack) f.document.2).run ts := by
  match f with
  | .member k s =>
    simp only [Field.phrases, jsonTokens_append, jsonTokens_key, List.cons_append, List.nil_append]
    rw [run_firstKey, run_key, s.run_tokens h, s.run_tokens h]
    exact ⟨rfl, rfl⟩
  | .typedName n t => exact ⟨rfl, rfl⟩

/-- Further fields are read after the first one, up to the end of the object. -/
theorem run_fieldTokens (fs : List Field) (h : typedObjectsOfFields fs = 0) (stack : List Frame)
    (before : List (List StringPiece × Document)) (m : List StringPiece × Document)
    (ts : List Token) :
    (Assembly.done (.object before m.1 :: stack) m.2).run
        (jsonTokens (fieldPhrases fs) ++ .mark .closeObject :: ts) =
      (Assembly.done stack (.object (before.reverse ++ m :: fieldDocuments fs))).run ts := by
  match fs with
  | [] =>
    rw [fieldPhrases, jsonTokens_nil, List.nil_append, run_closeObject]
    simp [fieldDocuments]
  | f :: fs =>
    obtain ⟨hf, hfs⟩ := Nat.add_eq_zero_iff.1 h
    simp only [fieldPhrases, jsonTokens_mark, jsonTokens_append, List.cons_append,
      List.append_assoc]
    rw [run_nextMember, (f.run_tokens hf stack _ _).2, run_fieldTokens fs hfs]
    simp [fieldDocuments]

end

/-- The document that the expanded row of a shape is. -/
theorem Shape.ofTokens? (s : Shape) (h : s.typedObjects = 0) :
    Document.ofTokens? (jsonTokens s.phrases) = some s.document := by
  have hrun := s.run_tokens h [] []
  rw [List.append_nil] at hrun
  rw [Document.ofTokens?, hrun]
  rfl

end Assembly

/-! ## Parsing -/

mutual

/-- The row of a shape opens as many typed objects as the shape holds. -/
theorem Shape.countP_opens (s : Shape) : s.phrases.countP Phrase.opens = s.typedObjects := by
  match s with
  | .null => rfl
  | .bool b => rfl
  | .integer n _ =>
    rw [Shape.phrases, integerPhrase]
    split <;> rfl
  | .text l => rfl
  | .array [] => rfl
  | .array (s :: ss) =>
    simp [Shape.phrases, Shape.typedObjects, typedObjectsOfItems, Phrase.opens, s.countP_opens,
      countP_opens_items ss]
  | .object [] => rfl
  | .object (f :: fs) =>
    simp [Shape.phrases, Shape.typedObjects, typedObjectsOfFields, Phrase.opens, f.countP_opens,
      countP_opens_fields fs]
  | .named t => rfl
  | .listOf t => rfl
  | .typed [] => rfl
  | .typed (f :: fs) =>
    rw [Shape.phrases, List.countP_cons_of_pos rfl]
    simp [Shape.typedObjects, typedObjectsOfFields, Phrase.opens, f.countP_opens,
      countP_opens_fields fs]

theorem countP_opens_items (ss : List Shape) :
    (itemPhrases ss).countP Phrase.opens = typedObjectsOfItems ss := by
  match ss with
  | [] => rfl
  | s :: ss =>
    simp [itemPhrases, typedObjectsOfItems, Phrase.opens, s.countP_opens, countP_opens_items ss]

theorem Field.countP_opens (f : Field) : f.phrases.countP Phrase.opens = f.typedObjects := by
  match f with
  | .member (.bare w) s =>
    simp [Field.phrases, Key.phrases, Phrase.opens, Field.typedObjects, s.countP_opens]
  | .member (.quoted l) s =>
    simp [Field.phrases, Key.phrases, Phrase.opens, Field.typedObjects, s.countP_opens]
  | .typedName n t => rfl

theorem countP_opens_fields (fs : List Field) :
    (fieldPhrases fs).countP Phrase.opens = typedObjectsOfFields fs := by
  match fs with
  | [] => rfl
  | f :: fs =>
    simp [fieldPhrases, typedObjectsOfFields, Phrase.opens, f.countP_opens, countP_opens_fields fs]

end

theorem Phrase.opens_iff {l : Phrase} : l.opens = true ↔ l = .typedOpen := by
  cases l <;> simp [Phrase.opens]

theorem countP_opens_pos {ls : List Phrase} : 0 < ls.countP Phrase.opens ↔ .typedOpen ∈ ls := by
  rw [List.countP_pos_iff]
  constructor
  · intro hex
    rcases hex with ⟨l, hl, hopens⟩
    rwa [← Phrase.opens_iff.1 hopens]
  · exact fun hl => ⟨_, hl, rfl⟩

theorem countP_opens_eq_zero {ls : List Phrase} :
    ls.countP Phrase.opens = 0 ↔ .typedOpen ∉ ls := by
  rw [← countP_opens_pos, Nat.pos_iff_ne_zero, Decidable.not_not]

theorem Shape.no_typedOpen {s : Shape} (h : s.typedObjects = 0) : .typedOpen ∉ s.phrases :=
  countP_opens_eq_zero.1 (s.countP_opens.trans h)

/-- Every shape is written by some phrase. -/
theorem Shape.phrases_ne_nil (s : Shape) : s.phrases ≠ [] := by
  obtain ⟨l, ls, hphrases, -⟩ := s.exists_first_phrase
  rw [hphrases]
  exact List.cons_ne_nil l ls

/-- The text of a shape is no text of blanks, so it is decoded after the expansions. -/
theorem parse_layout {s : Shape} {content : String}
    (hl : Layout isBlank s.phrases content.toList) :
    Layout isSpace s.phrases (Text.collapse content.toList) ∧
      parse content = decoded content (Value.read? (expand (Text.collapse content.toList))) := by
  have hcollapse := hl.collapse
  refine ⟨hcollapse, ?_⟩
  rw [parse_eq, if_neg]
  intro hnil
  rw [hnil] at hcollapse
  exact s.phrases_ne_nil hcollapse.eq_nil

/-- The expanded text of a shape without typed objects is read as its document. -/
theorem Shape.read?_expand {s : Shape} (h : s.typedObjects = 0) {text : List Char}
    (hl : Layout isSpace s.phrases text) : Value.read? (expand text) = s.document.value? := by
  obtain ⟨hexpand, horderly⟩ := hl.expand s.orderly_phrases (Shape.no_typedOpen h)
  rw [Value.read?, Document.read?, hexpand.tokens horderly, Option.bind_some, ← jsonTokens,
    s.ofTokens? h, Option.bind_some]

theorem Shape.parse_eq (s : Shape) (h : s.typedObjects = 0) {content : String}
    (hl : Layout isBlank s.phrases content.toList) :
    parse content = decoded content s.document.value? := by
  obtain ⟨hcollapse, hparse⟩ := parse_layout hl
  rw [hparse, Shape.read?_expand h hcollapse]

/-- Whatever shape without typed objects a text lays out, and however it does, the parser finds what
the shape denotes: nothing if that is the empty string, array or object, and an error if it is
`null` or if arrays and objects stand more than 127 deep inside one another. -/
theorem parse_shape (s : Shape) (content : String) (h : s.typedObjects = 0)
    (hl : Layout isBlank s.phrases content.toList) :
    parse content =
      if s.document.depth ≤ Document.depthLimit ∧ s.denote ≠ .null then
        .ok (if s.denote.isEmpty then none else some s.denote)
      else .error (.unresolvedShorthand "decode" (String.ofList (Text.trim content.toList))) := by
  rw [s.parse_eq h hl, s.value?_document]
  by_cases hdepth : s.document.depth ≤ Document.depthLimit
  · rw [if_pos hdepth, decoded]
    by_cases hnull : s.denote = .null
    · simp [hnull, Value.isNull]
    · have hisNull : s.denote.isNull = false := by
        cases hd : s.denote <;> first | rfl | exact absurd hd hnull
      simp [hdepth, hnull, hisNull]
  · rw [if_neg hdepth, if_neg fun hboth => hdepth hboth.1]
    rfl

theorem gap_of_all {blank : Char → Bool} {b : List Char} (h : b.all blank = true) :
    Gap blank b := by
  simpa [Gap] using h

/-- A product with a price and tags. -/
def productShape : Shape :=
  .object [.typedName (wordOf "price" (by decide)) (wordOf "money" (by decide)),
    .member (.bare (wordOf "tags" (by decide))) (.listOf (wordOf "tag" (by decide)))]

theorem layout_productShape :
    Layout isBlank productShape.phrases "\x7b\n  price :: money,\n  tags: tag[]\n\x7d".toList := by
  have hspace : Gap isBlank [' '] := gap_of_all (by decide)
  have hclose : Layout isBlank [.mark .closeObject] (['\n'] ++ ['\x7d']) :=
    .single (gap_of_all (by decide)) (.mark .closeObject)
  have htags := Layout.next (.key (wordOf "tags" (by decide)) gap_nil)
    (fun _ => noColon_cons.2 (by decide))
    (.cons hspace (.listType (wordOf "tag" (by decide))) (by simp [Phrase.endsInColon]) hclose)
  have hcomma := Layout.next (.mark .comma) (by simp [Phrase.endsInColon])
    (htags.gap_append (gap_of_all (b := "\n  ".toList) (by decide)))
  have hprice := Layout.next
    (.typedField (wordOf "price" (by decide)) (wordOf "money" (by decide)) hspace hspace)
    (by simp [Phrase.endsInColon]) hcomma
  exact .next (.mark .openObject) (by simp [Phrase.endsInColon])
    (hprice.gap_append (gap_of_all (b := "\n  ".toList) (by decide)))

theorem parse_productShape :
    productShape.typedObjects = 0 ∧
      parse "\x7b\n  price :: money,\n  tags: tag[]\n\x7d" =
        .ok (some (.object [("price", referenceValue (.string "money")),
          ("tags", .array [referenceValue (.string "tag")])])) := by
  refine ⟨rfl, ?_⟩
  rw [parse_shape productShape _ rfl layout_productShape]
  rfl

/-- The shape `[]` denotes an empty array, and the parser finds nothing in it. -/
theorem parse_empty_array :
    Layout isBlank (Shape.array []).phrases "[]".toList ∧ (Shape.array []).denote = .array [] ∧
      parse "[]" = .ok none := by
  have hlayout : Layout isBlank (Shape.array []).phrases "[]".toList :=
    .next (.mark .openArray) (by simp [Phrase.endsInColon]) (.single gap_nil (.mark .closeArray))
  refine ⟨hlayout, rfl, ?_⟩
  rw [(Shape.array []).parse_eq rfl hlayout]
  rfl

end ApiCatalog.Response
