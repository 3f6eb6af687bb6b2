import ApiCatalog.Proofs.Json.Assembly
import ApiCatalog.Proofs.Json.Scanning

/-!
# Written values are read back

The text of a value without numbers is cut into the tokens of the value (`readOn_write`), and these
are assembled to a document (`run_tokens`), the value as it was written (`read?_write`). In it
strings are kept as they were escaped, but they say what they said before (`text?_writtenPieces`).
-/

namespace ApiCatalog.Json

open Document (Assembly Frame ofBare?)

/-! ## Strings -/

/-- What the scanner reads from a string as it is written. -/
def writtenPieces (s : String) : List StringPiece := s.toList.map writtenPiece

theorem text?_writtenPieces (s : String) : Document.text? (writtenPieces s) = some s := by
  obtain ⟨gs, -, hchars, hpieces⟩ := exists_glyphs s.toList
  rw [writtenPieces, ← hpieces, text?_glyphs, hchars, String.ofList_toList]

theorem readOn_quote (read : List Token) (s : String) (rest : List Char) :
    readOn read (quote s.toList ++ rest) = readOn (.string (writtenPieces s) :: read) rest := by
  obtain ⟨gs, htext, -, hpieces⟩ := exists_glyphs s.toList
  rw [quote, ← htext, writtenPieces, ← hpieces]
  exact readOn_quoteGlyphs gs

/-! ## Tokens and documents of values -/

namespace Value

mutual

/-- The tokens of a value as it is written. -/
def tokens : Value → List Token
  | .null => [.bare "null".toList]
  | .bool true => [.bare "true".toList]
  | .bool false => [.bare "false".toList]
  | .number n => [.bare n.write]
  | .string s => [.string (writtenPieces s)]
  | .array [] => [.mark .openArray, .mark .closeArray]
  | .array (v :: vs) => .mark .openArray :: (tokens v ++ (itemTokens vs ++ [.mark .closeArray]))
  | .object [] => [.mark .openObject, .mark .closeObject]
  | .object ((k, v) :: ms) =>
    .mark .openObject :: .string (writtenPieces k) :: .mark .colon ::
      (tokens v ++ (memberTokens ms ++ [.mark .closeObject]))

/-- The tokens of the items after the first, each after a comma. -/
def itemTokens : List Value → List Token
  | [] => []
  | v :: vs => .mark .comma :: (tokens v ++ itemTokens vs)

/-- The tokens of the members after the first, each after a comma. -/
def memberTokens : List (String × Value) → List Token
  | [] => []
  | (k, v) :: ms =>
    .mark .comma :: .string (writtenPieces k) :: .mark .colon :: (tokens v ++ memberTokens ms)

end

mutual

/-- The document that is read from a value as it is written. -/
def asWritten : Value → Document
  | .null => .null
  | .bool b => .bool b
  | .number n => .number (numeralOf n)
  | .string s => .string (writtenPieces s)
  | .array vs => .array (itemsAsWritten vs)
  | .object ms => .object (membersAsWritten ms)

/-- The documents that are read from items. -/
def itemsAsWritten : List Value → List Document
  | [] => []
  | v :: vs => asWritten v :: itemsAsWritten vs

/-- The members that are read from members. -/
def membersAsWritten : List (String × Value) → List (List StringPiece × Document)
  | [] => []
  | (k, v) :: ms => (writtenPieces k, asWritten v) :: membersAsWritten ms

end

mutual

/-- Whether a value holds no numbers, at any depth. -/
def NumberFree : Value → Prop
  | .number _ => False
  | .array vs => NumberFreeItems vs
  | .object ms => NumberFreeMembers ms
  | _ => True

/-- Whether no item holds numbers. -/
def NumberFreeItems : List Value → Prop
  | [] => True
  | v :: vs => NumberFree v ∧ NumberFreeItems vs

/-- Whether no member holds numbers. -/
def NumberFreeMembers : List (String × Value) → Prop
  | [] => True
  | (_, v) :: ms => NumberFree v ∧ NumberFreeMembers ms

end

theorem itemsAsWritten_eq (vs : List Value) : itemsAsWritten vs = vs.map asWritten := by
  induction vs with
  | nil => rfl
  | cons v vs ih => rw [itemsAsWritten, ih, List.map_cons]

theorem numberFreeItems_iff {vs : List Value} :
    NumberFreeItems vs ↔ ∀ v ∈ vs, NumberFree v := by
  induction vs with
  | nil => simp [NumberFreeItems]
  | cons v vs ih => rw [NumberFreeItems, ih, List.forall_mem_cons]

theorem numberFreeMembers_iff {ms : List (String × Value)} :
    NumberFreeMembers ms ↔ ∀ m ∈ ms, NumberFree m.2 := by
  induction ms with
  | nil => simp [NumberFreeMembers]
  | cons m ms ih => rw [NumberFreeMembers, ih, List.forall_mem_cons]

/-! ## Scanning -/

section Scanning

variable {rest : List Char}

theorem endsBare_cons {c : Char} (h : Scanner.endsBare c = true) : EndsBare (c :: rest) := by
  intro d hd
  rwa [← Option.some.inj hd]

/-- What follows an item ends a bare word. -/
theorem endsBare_writeItems (vs : List Value) (h : EndsBare rest) :
    EndsBare (writeItems vs ++ rest) := by
  cases vs with
  | nil => exact h
  | cons v vs => exact endsBare_cons rfl

/-- What follows a member ends a bare word. -/
theorem endsBare_writeMembers (ms : List (String × Value)) (h : EndsBare rest) :
    EndsBare (writeMembers ms ++ rest) := by
  cases ms with
  | nil => exact h
  | cons m ms => exact endsBare_cons rfl

mutual

/-- A value without numbers is cut into its tokens. -/
theorem readOn_write (v : Value) (hv : NumberFree v) (read : List Token) (rest : List Char)
    (h : EndsBare rest) :
    readOn read (write v ++ rest) = readOn ((tokens v).reverse ++ read) rest := by
  match v with
  | .null => exact readOn_bare (by decide) (not_endsBare_of_all (by decide)) h
  | .bool true => exact readOn_bare (by decide) (not_endsBare_of_all (by decide)) h
  | .bool false => exact readOn_bare (by decide) (not_endsBare_of_all (by decide)) h
  | .number n => exact hv.elim
  | .string s => exact readOn_quote read s rest
  | .array [] => rfl
  | .array (v :: vs) =>
    obtain ⟨hv, hvs⟩ := hv
    have hopen : ∀ text, readOn read ('[' :: text) = readOn (.mark .openArray :: read) text :=
      fun _ => rfl
    have hclose : ∀ read, readOn read (']' :: rest) = readOn (.mark .closeArray :: read) rest :=
      fun _ => rfl
    have hend : EndsBare (']' :: rest) := endsBare_cons rfl
    simp only [write, tokens, List.cons_append, List.append_assoc, List.nil_append]
    rw [hopen, readOn_write v hv _ _ (endsBare_writeItems vs hend),
      readOn_writeItems vs hvs _ _ hend, hclose]
    simp
  | .object [] => rfl
  | .object ((k, v) :: ms) =>
    obtain ⟨hv, hms⟩ := hv
    have hopen : ∀ text, readOn read ('\x7b' :: text) = readOn (.mark .openObject :: read) text :=
      fun _ => rfl
    have hcolon : ∀ read text, readOn read (':' :: text) = readOn (.mark .colon :: read) text :=
      fun _ _ => rfl
    have hclose : ∀ read, readOn read ('\x7d' :: rest) = readOn (.mark .closeObject :: read) rest :=
      fun _ => rfl
    have hend : EndsBare ('\x7d' :: rest) := endsBare_cons rfl
    simp only [write, tokens, List.cons_append, List.append_assoc, List.nil_append]
    rw [hopen, readOn_quote, hcolon, readOn_write v hv _ _ (endsBare_writeMembers ms hend),
      readOn_writeMembers ms hms _ _ hend, hclose]
    simp

/-- Further items are cut into their tokens. -/
theorem readOn_writeItems (vs : List Value) (hvs : NumberFreeItems vs) (read : List Token)
    (rest : List Char) (h : EndsBare rest) :
    readOn read (writeItems vs ++ rest) = readOn ((itemTokens vs).reverse ++ read) rest := by
  match vs with
  | [] => rfl
  | v :: vs =>
    obtain ⟨hv, hvs⟩ := hvs
    have hcomma : ∀ text, readOn read (',' :: text) = readOn (.mark .comma :: read) text :=
      fun _ => rfl
    simp only [writeItems, itemTokens, List.cons_append, List.append_assoc]
    rw [hcomma, readOn_write v hv _ _ (endsBare_writeItems vs h), readOn_writeItems vs hvs _ _ h]
    simp

/-- Further members are cut into their tokens. -/
theorem readOn_writeMembers (ms : List (String × Value)) (hms : NumberFreeMembers ms)
    (read : List Token) (rest : List Char) (h : EndsBare rest) :
    readOn read (writeMembers ms ++ rest) = readOn ((memberTokens ms).reverse ++ read) rest := by
  match ms with
  | [] => rfl
  | (k, v) :: ms =>
    obtain ⟨hv, hms⟩ := hms
    have hcomma : ∀ text, readOn read (',' :: text) = readOn (.mark .comma :: read) text :=
      fun _ => rfl
    have hcolon : ∀ read text, readOn read (':' :: text) = readOn (.mark .colon :: read) text :=
      fun _ _ => rfl
    simp only [writeMembers, memberTokens, List.cons_append, List.append_assoc]
    rw [hcomma, readOn_quote, hcolon, readOn_write v hv _ _ (endsBare_writeMembers ms h),
      readOn_writeMembers ms hms _ _ h]
    simp

end

end Scanning

/-! ## Assembly -/

section Assembly

/-- No value begins with a closing bracket. -/
theorem exists_first_token (v : Value) : ∃ t ts, tokens v = t :: ts ∧ t ≠ .mark .closeArray := by
  match v with
  | .null => exact ⟨_, _, rfl, by simp⟩
  | .bool true => exact ⟨_, _, rfl, by simp⟩
  | .bool false => exact ⟨_, _, rfl, by simp⟩
  | .number n => exact ⟨_, _, rfl, by simp⟩
  | .string s => exact ⟨_, _, rfl, by simp⟩
  | .array [] => exact ⟨_, _, rfl, by simp⟩
  | .array (v :: vs) => exact ⟨_, _, rfl, by simp⟩
  | .object [] => exact ⟨_, _, rfl, by simp⟩
  | .object ((k, v) :: ms) => exact ⟨_, _, rfl, by simp⟩

mutual

/-- The tokens of a value without numbers are assembled to its document. -/
theorem run_tokens (v : Value) (hv : NumberFree v) (stack : List Frame) (ts : List Token) :
    (Assembly.value stack).run (tokens v ++ ts) = (Assembly.done stack (asWritten v)).run ts := by
  match v with
  | .null => rfl
  | .bool true => rfl
  | .bool false => rfl
  | .number n => exact hv.elim
  | .string s => rfl
  | .array [] => rfl
  | .array (v :: vs) =>
    obtain ⟨hv, hvs⟩ := hv
    obtain ⟨t, more, hfirst, ht⟩ := exists_first_token v
    have hv' := run_tokens v hv (.array [] :: stack) (itemTokens vs ++ .mark .closeArray :: ts)
    rw [hfirst, List.cons_append] at hv'
    simp only [tokens, List.cons_append, List.append_assoc, List.nil_append]
    -- the state after the bracket also accepts a closing one, which no value begins with
    rw [run_openArray, hfirst, List.cons_append, run_firstItem ht, hv', run_itemTokens vs hvs]
    rfl
  | .object [] => rfl
  | .object ((k, v) :: ms) =>
    obtain ⟨hv, hms⟩ := hv
    simp only [tokens, List.cons_append, List.append_assoc, List.nil_append]
    rw [run_openObject, run_firstKey, run_tokens v hv, run_memberTokens ms hms]
    rfl

/-- Further items are read after the first one, up to the end of the array. -/
theorem run_itemTokens (vs : List Value) (hvs : NumberFreeItems vs) (stack : List Frame)
    (before : List Document) (d : Document) (ts : List Token) :
    (Assembly.done (.array before :: stack) d).run (itemTokens vs ++ .mark .closeArray :: ts) =
      (Assembly.done stack (.array (before.reverse ++ d :: itemsAsWritten vs))).run ts := by
  match vs with
  | [] =>
    rw [itemTokens, List.nil_append, run_closeArray]
    simp [itemsAsWritten]
  | v :: vs =>
    obtain ⟨hv, hvs⟩ := hvs
    simp only [itemTokens, List.cons_append, List.append_assoc]
    rw [run_nextItem, run_tokens v hv, run_itemTokens vs hvs]
    simp [itemsAsWritten]

/-- Further members are read after the first one, up to the end of the object. -/
theorem run_memberTokens (ms : List (String × Value)) (hms : NumberFreeMembers ms)
    (stack : List Frame) (before : List (List StringPiece × Document)) (k : List StringPiece)
    (d : Document) (ts : List Token) :
    (Assembly.done (.object before k :: stack) d).run
        (memberTokens ms ++ .mark .closeObject :: ts) =
      (Assembly.done stack (.object (before.reverse ++ (k, d) :: membersAsWritten ms))).run ts := by
  match ms with
  | [] =>
    rw [memberTokens, List.nil_append, run_closeObject]
    simp [membersAsWritten]
  | (k, v) :: ms =>
    obtain ⟨hv, hms⟩ := hms
    simp only [memberTokens, List.cons_append, List.append_assoc]
    rw [run_nextMember, run_key, run_tokens v hv, run_memberTokens ms hms]
    simp [membersAsWritten]

end

/-- The text of a value without numbers is read as the value was written. -/
theorem read?_write {v : Value} (hv : NumberFree v) :
    Document.read? (write v) = some v.asWritten := by
  have htokens : tokens? (write v) = some (tokens v) := by
    have hread := readOn_write v hv [] [] (by simp [EndsBare])
    rw [List.append_nil, List.append_nil] at hread
    show readOn [] (write v) = _
    rw [hread]
    simp [readOn, Scanner.finish?]
  have hrun := run_tokens v hv [] []
  rw [List.append_nil] at hrun
  rw [Document.read?, htokens, Option.bind_some, Document.ofTokens?, hrun]
  rfl

end Assembly

/-! ## Meaning -/

mutual

/-- A value without numbers means something as it is written. -/
theorem meaning?_asWritten (v : Value) (hv : NumberFree v) :
    v.asWritten.meaning?.isSome = true := by
  match v with
  | .null => rfl
  | .bool b => rfl
  | .number n => exact hv.elim
  | .string s => simp [asWritten, Document.meaning?, text?_writtenPieces]
  | .array vs => simpa [asWritten, Document.meaning?] using meanings?_itemsAsWritten vs hv
  | .object ms => simpa [asWritten, Document.meaning?] using memberMeanings?_asWritten ms hv []

theorem meanings?_itemsAsWritten (vs : List Value) (hvs : NumberFreeItems vs) :
    (Document.meanings? (itemsAsWritten vs)).isSome = true := by
  match vs with
  | [] => rfl
  | v :: vs =>
    obtain ⟨hv, hvs⟩ := hvs
    obtain ⟨w, hw⟩ := Option.isSome_iff_exists.1 (meaning?_asWritten v hv)
    obtain ⟨ws, hws⟩ := Option.isSome_iff_exists.1 (meanings?_itemsAsWritten vs hvs)
    simp [itemsAsWritten, Document.meanings?, hw, hws]

theorem memberMeanings?_asWritten (ms : List (String × Value)) (hms : NumberFreeMembers ms)
    (before : List (String × Value)) :
    (Document.memberMeanings? before (membersAsWritten ms)).isSome = true := by
  match ms with
  | [] => rfl
  | (k, v) :: ms =>
    obtain ⟨hv, hms⟩ := hms
    obtain ⟨w, hw⟩ := Option.isSome_iff_exists.1 (meaning?_asWritten v hv)
    simpa [membersAsWritten, Document.memberMeanings?, text?_writtenPieces, hw] using
      memberMeanings?_asWritten ms hms (upsert k w before)

end

end Value

end ApiCatalog.Json
