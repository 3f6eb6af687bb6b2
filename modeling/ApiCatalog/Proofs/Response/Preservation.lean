import ApiCatalog.Proofs.Response.Parsing

/-!
# The expansion of the response shorthand keeps string literals

Four of the five patterns match text without quotes and backslashes, and what stands for such a
match has new literals only. The pattern of a typed object spans literals, and what stands for it
copies them. By `substitute_keeps` each step therefore keeps the literals of every well-quoted
text, shorthand or not, and so does any row of steps.
-/

namespace ApiCatalog.Response

open ApiCatalog.Quoting
open ApiCatalog.Text

/-! ## New literals -/

/-- The literal `"$ref"`, or a word in quotes. -/
def IsNewLiteral (l : List Char) : Prop :=
  l = "\"$ref\"".toList ∨ ∃ w, IsWord w ∧ l = '"' :: w ++ ['"']

theorem parted_word {w : List Char} (hw : IsWord w) :
    Parted ('"' :: w ++ ['"']) ['"' :: w ++ ['"']] :=
  .single (isLiteral_quoted hw.isPlain)

/-- A reference has the literals of its target, after `"$ref"`. -/
theorem parted_referenceTo {target : List Char} {ls : List (List Char)} (h : Parted target ls) :
    Parted (referenceTo target) ("\"$ref\"".toList :: ls) := by
  have hopen : Parted ['\x7b'] [] := .of_plain (isPlain_of_all (by decide))
  have hplain : ∀ c ∈ "$ref".toList, IsPlain c := isPlain_of_all (by decide)
  have hkey : Parted "\"$ref\"".toList ["\"$ref\"".toList] := .single (isLiteral_quoted hplain)
  have hcolon : Parted ": ".toList [] := .of_plain (isPlain_of_all (by decide))
  have hclose : Parted ['}'] [] := .of_plain (isPlain_of_all (by decide))
  have := (((hopen.append hkey).append hcolon).append h).append hclose
  rwa [List.nil_append, List.append_nil, List.append_nil] at this

/-- Replacements of plain matches by text with new literals only. -/
theorem keepsMatches_of_plain {p : Pattern} {replacement : Replacement}
    (h : ∀ part rest m, p.matchHere? part 0 = some m →
      ∃ u v ls, part = u ++ v ∧ m.stop = u.length ∧ u ≠ [] ∧ (∀ c ∈ u, IsPlain c) ∧
        Parted (replacement (m.captures (part ++ rest))) ls ∧ ∀ l ∈ ls, IsNewLiteral l) :
    KeepsMatches IsNewLiteral p replacement := by
  intro part rest m ls hm hls
  obtain ⟨u, v, ls', rfl, hstop, hne, hu, hparted, hnew⟩ := h part rest m hm
  rw [hstop, List.take_left] at hls
  obtain rfl := hls.eq_nil_of_plain hu
  refine ⟨?_, ls', hparted, .of_added hnew⟩
  rw [hstop]
  exact fun h0 => hne (List.length_eq_zero_iff.1 h0)

/-! ## The five steps -/

theorem listType_keepsMatches : KeepsMatches IsNewLiteral listType listTypeText := by
  refine keepsMatches_of_plain ?_
  intro part rest m hm
  obtain ⟨w, v, rfl, hw, rfl⟩ := listType_matches hm
  refine ⟨w ++ "[]".toList, v, [], by simp, by simp [listTypeMatch], by simp, ?_, ?_, by simp⟩
  · exact isPlain_append hw.isPlain (isPlain_of_all (by decide))
  · rw [List.append_assoc, List.append_assoc, listTypeText_captures]
    exact .of_plain (isPlain_append (isPlain_append (isPlain_of_all (by decide)) hw.isPlain)
      (isPlain_of_all (by decide)))

theorem keyAndColons_keepsMatches : KeepsMatches IsNewLiteral keyAndColons keyText := by
  refine keepsMatches_of_plain ?_
  intro part rest m hm
  obtain ⟨w, b, colons, v, rfl, hw, hb, hcolons, rfl⟩ := keyAndColons_matches hm
  have hplain : ∀ c ∈ w ++ (b ++ colons), IsPlain c := by
    refine isPlain_append hw.isPlain (isPlain_append hb.isPlain ?_)
    rcases hcolons with rfl | rfl <;> exact isPlain_of_all (by decide)
  have hne : w ++ (b ++ colons) ≠ [] := by simp [hw.1]
  rw [List.append_assoc, List.append_assoc, List.append_assoc]
  rcases hcolons with rfl | rfl
  · refine ⟨w ++ (b ++ [':']), v, ['"' :: w ++ ['"']], by simp, ?_, hne, hplain, ?_, ?_⟩
    · simp [keyMatch, Nat.add_assoc]
    · rw [keyText_captures_one]
      have hcolon : Parted [':'] [] := .of_plain (isPlain_of_all (by decide))
      simpa using (parted_word hw).append hcolon
    · rintro l hl
      obtain rfl := List.mem_singleton.1 hl
      exact .inr ⟨w, hw, rfl⟩
  · refine ⟨w ++ (b ++ [':', ':']), v, [], by simp, ?_, hne, hplain, ?_, by simp⟩
    · simp [keyMatch, Nat.add_assoc]
    · rw [keyText_captures_two]
      exact .of_plain hplain

theorem typedField_keepsMatches : KeepsMatches IsNewLiteral typedField typedFieldText := by
  refine keepsMatches_of_plain ?_
  intro part rest m hm
  obtain ⟨n, b, b', w, v, rfl, hn, hb, hb', hw, rfl⟩ := typedField_matches hm
  refine ⟨n ++ (b ++ ("::".toList ++ (b' ++ w))), v,
    ['"' :: n ++ ['"'], "\"$ref\"".toList, '"' :: w ++ ['"']], by simp, ?_, by simp [hn.1], ?_, ?_, ?_⟩
  · simp [typedFieldMatch]
    omega
  · exact isPlain_append hn.isPlain (isPlain_append hb.isPlain
      (isPlain_append (isPlain_of_all (by decide)) (isPlain_append hb'.isPlain hw.isPlain)))
  · simp only [List.append_assoc]
    rw [typedFieldText_captures]
    have hcolon : Parted ": ".toList [] := .of_plain (isPlain_of_all (by decide))
    have := ((parted_word hn).append hcolon).append (parted_referenceTo (parted_word hw))
    simpa using this
  · simp only [List.forall_mem_cons]
    exact ⟨.inr ⟨n, hn, rfl⟩, .inl rfl, .inr ⟨w, hw, rfl⟩, by simp⟩

theorem namedType_keepsMatches : KeepsMatches IsNewLiteral namedType namedTypeText := by
  refine keepsMatches_of_plain ?_
  intro part rest m hm
  obtain ⟨b, b', w, v, rfl, hb, hb', hw, rfl⟩ := namedType_matches hm
  refine ⟨b ++ ("::".toList ++ (b' ++ w)), v, ["\"$ref\"".toList, '"' :: w ++ ['"']], by simp, ?_,
    by simp, ?_, ?_, ?_⟩
  · simp [namedTypeMatch]
    omega
  · exact isPlain_append hb.isPlain
      (isPlain_append (isPlain_of_all (by decide)) (isPlain_append hb'.isPlain hw.isPlain))
  · simp only [List.append_assoc]
    rw [namedTypeText_captures]
    exact parted_referenceTo (parted_word hw)
  · simp only [List.forall_mem_cons]
    exact ⟨.inl rfl, .inr ⟨w, hw, rfl⟩, by simp⟩

/-- What is between the braces is copied, literals and all. -/
theorem typedObject_keepsMatches : KeepsMatches IsNewLiteral typedObject typedObjectText := by
  intro part rest m ls hm hls
  obtain ⟨b, body, v, rfl, hb, -, rfl⟩ := typedObject_matches hm
  have htake : ("::".toList ++ (b ++ ('\x7b' :: (body ++ '}' :: v)))).take
      (typedObjectMatch b body).stop = ("::".toList ++ (b ++ ['\x7b'])) ++ (body ++ ['}']) := by
    have hcut : "::".toList ++ (b ++ ('\x7b' :: (body ++ '}' :: v))) =
        (("::".toList ++ (b ++ ['\x7b'])) ++ (body ++ ['}'])) ++ v := by simp
    rw [hcut]
    exact List.take_left' (by simp [typedObjectMatch]; omega)
  rw [htake] at hls
  have hopen : ∀ c ∈ "::".toList ++ (b ++ ['\x7b']), IsPlain c :=
    isPlain_append (isPlain_of_all (by decide))
      (isPlain_append hb.isPlain (isPlain_of_all (by decide)))
  have hbody : Parted body ls := (hls.of_plain_append hopen).of_append_plain (by decide)
  refine ⟨by simp [typedObjectMatch], "\"$ref\"".toList :: ls, ?_, .add (.inl rfl) (.refl ls)⟩
  have happ : "::".toList ++ (b ++ ('\x7b' :: (body ++ '}' :: v))) ++ rest =
      "::".toList ++ (b ++ ('\x7b' :: (body ++ '}' :: (v ++ rest)))) := by simp
  rw [happ, typedObjectText_captures]
  refine parted_referenceTo ?_
  have hstart : Parted ['\x7b'] [] := .of_plain (isPlain_of_all (by decide))
  have hend : Parted ['}'] [] := .of_plain (isPlain_of_all (by decide))
  simpa using (hstart.append hbody).append hend

variable {text : List Char}

/-- Each step keeps the literals of a well-quoted text. -/
theorem keeps_of_mem_expansions (h : WellQuoted text)
    {expansion : String × (List Char → List Char)} (hmem : expansion ∈ expansions) :
    Keeps IsNewLiteral text (expansion.2 text) := by
  simp only [expansions, List.mem_cons, List.not_mem_nil, or_false] at hmem
  rcases hmem with rfl | rfl | rfl | rfl | rfl
  · exact substitute_keeps listType_keepsMatches h
  · exact substitute_keeps keyAndColons_keepsMatches h
  · exact substitute_keeps typedField_keepsMatches h
  · exact substitute_keeps typedObject_keepsMatches h
  · exact substitute_keeps namedType_keepsMatches h

/-- So does any row of steps. -/
theorem keeps_foldl {row : List (String × (List Char → List Char))}
    (hrow : ∀ expansion ∈ row, expansion ∈ expansions) (h : WellQuoted text) :
    Keeps IsNewLiteral text (row.foldl (fun t expansion => expansion.2 t) text) := by
  induction row generalizing text with
  | nil => exact ⟨h, .refl _⟩
  | cons expansion row ih =>
    have hstep := keeps_of_mem_expansions h (hrow expansion (by simp))
    exact hstep.trans (ih (fun e he => hrow e (by simp [he])) hstep.wellQuoted)

/-- Each step of the expansion keeps the string literals of a well-quoted text, and so do all steps
in order: the text stays well quoted, its literals stay as they are and in their order, and any
further literal is `"$ref"` or a word in quotes. -/
theorem expansion_keeps_literals (h : WellQuoted text) :
    (∀ expansion ∈ expansions, Keeps IsNewLiteral text (expansion.2 text)) ∧
      Keeps IsNewLiteral text (expand text) :=
  ⟨fun _ hexpansion => keeps_of_mem_expansions h hexpansion, keeps_foldl (fun _ he => he) h⟩

theorem expansion_keeps_literals_of_typedObject :
    WellQuoted ":: \x7b s: \"a :: b\" \x7d".toList ∧
      Keeps IsNewLiteral ":: \x7b s: \"a :: b\" \x7d".toList
        (expandTypedObjects ":: \x7b s: \"a :: b\" \x7d".toList) := by
  have h : WellQuoted ":: \x7b s: \"a :: b\" \x7d".toList :=
    ⟨by decide, fun _ hplace => absurd (List.mem_of_getElem? hplace) (by decide)⟩
  exact ⟨h, (expansion_keeps_literals h).1 ("repeatedObject", expandTypedObjects) (by simp [expansions])⟩

end ApiCatalog.Response
