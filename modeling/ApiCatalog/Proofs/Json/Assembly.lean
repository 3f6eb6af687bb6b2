import ApiCatalog.Json.Document

/-!
# Steps of the assembly

A document is assembled from tokens by a machine with a stack. `Steps` lists all that a token can do
to it, so what led to a state can be told from the state (`steps_of_step`): a string ends where it
is read, an array ends at its bracket, and a further value is due in it only after a comma. The last
token of a run is told likewise (`run_eq_some`). Where the state and the token are known, a run is
followed step by step.
-/

namespace ApiCatalog.Json

namespace Document.Assembly

/-- What the first token of a value leads to. -/
inductive Begins (stack : List Frame) : Token → Assembly → Prop where
  | array : Begins stack (.mark .openArray) (.firstItem stack)
  | object : Begins stack (.mark .openObject) (.firstKey stack)
  | string (p : List StringPiece) : Begins stack (.string p) (.done stack (.string p))
  | bare (word : List Char) (d : Document) (h : ofBare? word = some d) :
      Begins stack (.bare word) (.done stack d)

/-- All that a token can lead to. -/
inductive Steps : Assembly → Token → Assembly → Prop where
  | value {stack t b} (h : Begins stack t b) : Steps (.value stack) t b
  | noItem (stack) : Steps (.firstItem stack) (.mark .closeArray) (.done stack (.array []))
  | firstItem {stack t b} (h : Begins (.array [] :: stack) t b) : Steps (.firstItem stack) t b
  | noMember (stack) : Steps (.firstKey stack) (.mark .closeObject) (.done stack (.object []))
  | firstKey (stack k) : Steps (.firstKey stack) (.string k) (.colon stack [] k)
  | key (stack members k) : Steps (.key stack members) (.string k) (.colon stack members k)
  | colon (stack members k) :
      Steps (.colon stack members k) (.mark .colon) (.value (.object members k :: stack))
  | nextItem (stack items result) :
      Steps (.done (.array items :: stack) result) (.mark .comma)
        (.value (.array (result :: items) :: stack))
  | closeArray (stack items result) :
      Steps (.done (.array items :: stack) result) (.mark .closeArray)
        (.done stack (.array (result :: items).reverse))
  | nextMember (stack members k result) :
      Steps (.done (.object members k :: stack) result) (.mark .comma)
        (.key stack ((k, result) :: members))
  | closeObject (stack members k result) :
      Steps (.done (.object members k :: stack) result) (.mark .closeObject)
        (.done stack (.object ((k, result) :: members).reverse))

variable {a b : Assembly} {t : Token} {ts : List Token} {items : List Document}
  {stack : List Frame} {p : List StringPiece} {ps : List (List StringPiece)}

theorem begins_of_beginValue (h : beginValue stack t = some b) : Begins stack t b := by
  cases t with
  | mark m => cases m <;> cases h <;> constructor
  | string p => cases h; constructor
  | bare word =>
    obtain ⟨d, hd, rfl⟩ := Option.map_eq_some_iff.1 h
    exact .bare word d hd

theorem steps_of_proceed {result : Document} (h : proceed result stack t = some b) :
    Steps (.done stack result) t b := by
  unfold proceed at h
  split at h <;> cases h <;> constructor

theorem steps_of_step (h : a.step t = some b) : Steps a t b := by
  unfold step at h
  split at h
  case h_1 => exact .value (begins_of_beginValue h)
  case h_3 => exact .firstItem (begins_of_beginValue h)
  case h_11 => exact steps_of_proceed h
  all_goals cases h <;> constructor

/-- The last token of a run. -/
theorem run_eq_some (h : (value []).run ts = some b) :
    ts = [] ∧ b = value [] ∨
      ∃ us t a, ts = us ++ [t] ∧ (value []).run us = some a ∧ a.step t = some b := by
  rcases List.eq_nil_or_concat ts with rfl | ⟨us, t, rfl⟩
  · exact .inl ⟨rfl, (Option.some.inj h).symm⟩
  · rw [List.concat_eq_append, run_append, Option.bind_eq_some_iff] at h
    obtain ⟨a, hrun, h⟩ := h
    rw [run_cons, Option.bind_eq_some_iff] at h
    obtain ⟨b', hstep, h⟩ := h
    obtain rfl := Option.some.inj h
    exact .inr ⟨us, t, a, List.concat_eq_append, hrun, hstep⟩

/-- A bare word is no string and no array. -/
theorem ofBare?_ne {word : List Char} {d : Document} (h : ofBare? word = some d) :
    (∀ p, d ≠ .string p) ∧ ∀ items, d ≠ .array items := by
  unfold ofBare? at h
  split at h
  · cases h; simp
  · split at h
    · cases h; simp
    · split at h
      · cases h; simp
      · obtain ⟨n, -, rfl⟩ := Option.map_eq_some_iff.1 h
        simp

/-- A string ends where it is read. -/
theorem done_string_of_steps (h : Steps a t (.done (.array items :: stack) (.string p))) :
    t = .string p ∧ (a = .value (.array items :: stack) ∨ a = .firstItem stack ∧ items = []) := by
  cases h with
  | value h =>
    cases h with
    | string => exact ⟨rfl, .inl rfl⟩
    | bare word _ hword => exact absurd rfl ((ofBare?_ne hword).1 p)
  | firstItem h =>
    cases h with
    | string => exact ⟨rfl, .inr ⟨rfl, rfl⟩⟩
    | bare word _ hword => exact absurd rfl ((ofBare?_ne hword).1 p)

/-- An array ends at a bracket, right after its opening or after an item. -/
theorem done_array_of_steps (h : Steps a t (.done [] (.array items))) :
    t = .mark .closeArray ∧ (a = .firstItem [] ∧ items = [] ∨
      ∃ result before, a = .done [.array before] result ∧ items = (result :: before).reverse) := by
  cases h with
  | value h =>
    cases h with
    | bare word _ hword => exact absurd rfl ((ofBare?_ne hword).2 items)
  | noItem => exact ⟨rfl, .inl ⟨rfl, rfl⟩⟩
  | firstItem h => cases h
  | closeArray => exact ⟨rfl, .inr ⟨_, _, rfl, rfl⟩⟩

/-- A value is due in an array after a comma. -/
theorem value_of_steps (h : Steps a t (.value (.array items :: stack))) :
    t = .mark .comma ∧ ∃ result before, items = result :: before ∧
      a = .done (.array before :: stack) result := by
  cases h with
  | value h => cases h
  | firstItem h => cases h
  | nextItem => exact ⟨rfl, _, _, rfl, rfl⟩

theorem eq_nil_of_run_value (h : (value []).run ts = some (value [])) : ts = [] := by
  obtain ⟨rfl, -⟩ | ⟨us, t, a, -, -, hstep⟩ := run_eq_some h
  · rfl
  · cases steps_of_step hstep with
    | value h => cases h
    | firstItem h => cases h

theorem eq_open_of_run_firstItem (h : (value []).run ts = some (firstItem [])) :
    ts = [.mark .openArray] := by
  obtain ⟨-, heq⟩ | ⟨us, t, a, rfl, hrun, hstep⟩ := run_eq_some h
  · cases heq
  · cases steps_of_step hstep with
    | value h =>
      cases h
      rw [eq_nil_of_run_value hrun]
      rfl
    | firstItem h => cases h

end Document.Assembly

/-! ## Single steps of a run -/

open Document (Assembly Frame ofBare?)

variable {stack : List Frame} {ts : List Token}

theorem run_bare {word : List Char} {d : Document} (h : ofBare? word = some d) :
    (Assembly.value stack).run (.bare word :: ts) = (Assembly.done stack d).run ts := by
  rw [Assembly.run_cons, Assembly.step, Assembly.beginValue, h]
  rfl

/-- The first item of an array is read like any other value. -/
theorem run_firstItem {t : Token} (h : t ≠ .mark .closeArray) :
    (Assembly.firstItem stack).run (t :: ts) =
      (Assembly.value (.array [] :: stack)).run (t :: ts) := by
  have hstep :
      (Assembly.firstItem stack).step t = (Assembly.value (.array [] :: stack)).step t := by
    cases t with
    | mark p => cases p <;> first | exact absurd rfl h | rfl
    | _ => rfl
  rw [Assembly.run_cons, Assembly.run_cons, hstep]

theorem run_openArray : (Assembly.value stack).run (.mark .openArray :: ts) =
    (Assembly.firstItem stack).run ts := rfl

theorem run_openObject : (Assembly.value stack).run (.mark .openObject :: ts) =
    (Assembly.firstKey stack).run ts := rfl

section Members

variable {items : List Document} {members : List (List StringPiece × Document)}
variable {k : List StringPiece} {d : Document}

theorem run_nextItem : (Assembly.done (.array items :: stack) d).run (.mark .comma :: ts) =
    (Assembly.value (.array (d :: items) :: stack)).run ts := rfl

theorem run_closeArray : (Assembly.done (.array items :: stack) d).run (.mark .closeArray :: ts) =
    (Assembly.done stack (.array (d :: items).reverse)).run ts := rfl

theorem run_nextMember : (Assembly.done (.object members k :: stack) d).run (.mark .comma :: ts) =
    (Assembly.key stack ((k, d) :: members)).run ts := rfl

theorem run_closeObject :
    (Assembly.done (.object members k :: stack) d).run (.mark .closeObject :: ts) =
      (Assembly.done stack (.object ((k, d) :: members).reverse)).run ts := rfl

theorem run_firstKey : (Assembly.firstKey stack).run (.string k :: .mark .colon :: ts) =
    (Assembly.value (.object [] k :: stack)).run ts := rfl

theorem run_key : (Assembly.key stack members).run (.string k :: .mark .colon :: ts) =
    (Assembly.value (.object members k :: stack)).run ts := rfl

end Members

end ApiCatalog.Json
