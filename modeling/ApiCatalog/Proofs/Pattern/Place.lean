import ApiCatalog.Pattern.Search

/-!
# Matches at a place

What a pattern matches at a place is decided by the text from there on. The match can be computed
as if the text began there, and then be moved to the place; what it captures stays the same.
-/

namespace ApiCatalog

/-! ## Slices -/

theorem slice_self (text : List Char) (place : Nat) : slice text place place = [] := by
  simp [slice]

/-- A slice is cut at any place inside it. -/
theorem slice_append_slice (text : List Char) {a b c : Nat} (hab : a ≤ b) (hbc : b ≤ c) :
    slice text a b ++ slice text b c = slice text a c := by
  have hb : text.take b = (text.take c).take b := by
    rw [List.take_take, Nat.min_eq_left hbc]
  have hd : (text.take c).drop b = ((text.take c).drop a).drop (b - a) := by
    rw [List.drop_drop, Nat.add_sub_cancel' hab]
  rw [slice, slice, slice, hb, hd, List.drop_take, List.take_append_drop]

/-- Slices of a part of a text are slices of the text further on. -/
theorem slice_append_right (before text : List Char) (start stop : Nat) :
    slice (before ++ text) (before.length + start) (before.length + stop) =
      slice text start stop := by
  simp [slice, List.take_append, List.drop_append]

/-- The middle of three parts. -/
theorem slice_middle (before part after : List Char) :
    slice (before ++ (part ++ after)) before.length (before.length + part.length) = part := by
  simp [slice, List.take_append]

/-! ## Moving -/

/-- The place of a remembered group after a move. -/
def movedGroup (distance : Nat) (group : Nat × Nat × Nat) : Nat × Nat × Nat :=
  (group.1, distance + group.2.1, distance + group.2.2)

/-- The match, found further on by a distance. -/
def Match.moved (distance : Nat) (m : Match) : Match :=
  ⟨distance + m.start, distance + m.stop, m.groups.map (movedGroup distance)⟩

theorem lookup_movedGroup (distance index : Nat) (groups : List (Nat × Nat × Nat)) :
    (groups.map (movedGroup distance)).lookup index =
      (groups.lookup index).map fun span => (distance + span.1, distance + span.2) := by
  induction groups with
  | nil => rfl
  | cons group rest ih =>
    obtain ⟨k, start, stop⟩ := group
    simp only [List.map_cons, movedGroup, List.lookup_cons]
    by_cases hk : index == k
    · simp [hk]
    · simp only [hk]
      exact ih

/-- A match that is found further on captures the same. -/
theorem captures_moved (before text : List Char) (m : Match) :
    (m.moved before.length).captures (before ++ text) = m.captures text := by
  funext index
  by_cases hi : index = 0
  · simp [Match.captures, hi, Match.moved, slice_append_right]
  · simp only [Match.captures, hi, if_false, Match.moved, lookup_movedGroup, Option.map_map]
    congr 1
    funext span
    exact slice_append_right before text span.1 span.2

namespace Pattern

/-- The cursor, further on by a distance. -/
def Cursor.moved (distance : Nat) (s : Cursor) : Cursor :=
  ⟨distance + s.position, s.rest, s.groups.map (movedGroup distance)⟩

theorem advanced_moved (distance : Nat) (s t : Cursor) :
    (s.moved distance).advanced (t.moved distance) = s.advanced t := by
  simp [Cursor.advanced, Cursor.moved]

theorem roundRuns_moved {ends : Cursor → List Cursor} (distance : Nat)
    (h : ∀ s, ends (s.moved distance) = (ends s).map (·.moved distance)) (greedy : Bool)
    (rounds : Nat) (s : Cursor) :
    roundRuns ends greedy rounds (s.moved distance) =
      (roundRuns ends greedy rounds s).map (·.moved distance) := by
  induction rounds generalizing s with
  | zero => rfl
  | succ rounds ih =>
    have more : (((ends (s.moved distance)).filter (s.moved distance).advanced).flatMap
        (roundRuns ends greedy rounds)) =
        (((ends s).filter s.advanced).flatMap (roundRuns ends greedy rounds)).map
          (·.moved distance) := by
      rw [h, List.filter_map, List.flatMap_map, List.map_flatMap]
      have hf : (s.moved distance).advanced ∘ (·.moved distance) = s.advanced := by
        funext t
        exact advanced_moved distance s t
      rw [hf]
      congr 1
      funext t
      exact ih t
    cases greedy <;> simp [roundRuns, more]

/-- The runs from a cursor further on end further on. -/
theorem runs_moved (p : Pattern) (distance : Nat) (s : Cursor) :
    runs p (s.moved distance) = (runs p s).map (·.moved distance) := by
  induction p generalizing s with
  | empty => rfl
  | one member =>
    obtain ⟨position, rest, groups⟩ := s
    cases rest with
    | nil => rfl
    | cons c cs =>
      by_cases hc : member c <;> simp [runs, Cursor.moved, hc, Nat.add_assoc]
  | seq p q ihp ihq =>
    simp only [runs, ihp, List.flatMap_map, List.map_flatMap]
    congr 1
    funext t
    exact ihq t
  | alt p q ihp ihq => simp [runs, ihp, ihq]
  | star p greedy ih => exact roundRuns_moved distance ih greedy s.rest.length s
  | group index p ih =>
    simp only [runs, ih, List.map_map]
    rfl
  | atEnd => by_cases h : s.rest.isEmpty <;> simp [runs, Cursor.moved, h]

/-- A match depends on the text from its place on. -/
theorem matchHere?_moved (p : Pattern) (text : List Char) (place : Nat) :
    p.matchHere? text place = (p.matchHere? text 0).map (Match.moved place) := by
  have hs : (⟨place, text, []⟩ : Cursor) = (⟨0, text, []⟩ : Cursor).moved place := by
    simp [Cursor.moved]
  rw [matchHere?, matchHere?, first_eq, first_eq, hs, runs_moved, List.findSome?_map]
  cases runs p ⟨0, text, []⟩ with
  | nil => rfl
  | cons t ts => simp [Match.moved, Cursor.moved]

/-- A match is the most preferred run. -/
theorem matchHere?_eq_head? (p : Pattern) (text : List Char) (place : Nat) :
    p.matchHere? text place =
      (runs p ⟨place, text, []⟩).head?.map fun t => ⟨place, t.position, t.groups⟩ := by
  rw [matchHere?, first_eq]
  cases runs p ⟨place, text, []⟩ <;> rfl

theorem exists_run_of_matchHere? {p : Pattern} {text : List Char} {place : Nat} {m : Match}
    (h : p.matchHere? text place = some m) :
    ∃ t ∈ runs p ⟨place, text, []⟩, m = ⟨place, t.position, t.groups⟩ := by
  rw [matchHere?_eq_head?] at h
  obtain ⟨t, ht, rfl⟩ := Option.map_eq_some_iff.1 h
  exact ⟨t, List.mem_of_mem_head? ht, rfl⟩

/-! ## Searching -/

variable {p : Pattern} {rest : List Char} {place : Nat} {found : Match}

/-- A search that finds nothing finds no match at any place. -/
theorem searchFrom?_eq_none (h : p.searchFrom? rest place = none) :
    ∀ count ≤ rest.length, p.matchHere? (rest.drop count) 0 = none := by
  induction rest generalizing place with
  | nil =>
    rintro count -
    rw [searchFrom?, matchHere?_moved, Option.map_eq_none_iff] at h
    rwa [List.drop_nil]
  | cons c cs ih =>
    simp only [searchFrom?, Option.orElse_eq_orElse, Option.orElse_eq_or, Option.or_eq_none_iff]
      at h
    rintro (_ | count) hcount
    · have hhere := h.1
      rwa [matchHere?_moved, Option.map_eq_none_iff] at hhere
    · exact ih h.2 count (by simpa using hcount)

/-- A search finds the match at the first place where there is one. -/
theorem searchFrom?_eq_some (h : p.searchFrom? rest place = some found) :
    ∃ count m, count ≤ rest.length ∧ p.matchHere? (rest.drop count) 0 = some m ∧
      found = m.moved (place + count) ∧
      ∀ earlier < count, p.matchHere? (rest.drop earlier) 0 = none := by
  induction rest generalizing place with
  | nil =>
    rw [searchFrom?, matchHere?_moved, Option.map_eq_some_iff] at h
    obtain ⟨m, hm, rfl⟩ := h
    exact ⟨0, m, Nat.le_refl _, hm, rfl, by simp⟩
  | cons c cs ih =>
    simp only [searchFrom?, Option.orElse_eq_orElse, Option.orElse_eq_or, Option.or_eq_some_iff]
      at h
    rcases h with h | ⟨hnone, h⟩
    · rw [matchHere?_moved, Option.map_eq_some_iff] at h
      obtain ⟨m, hm, rfl⟩ := h
      exact ⟨0, m, Nat.zero_le _, hm, rfl, by simp⟩
    · obtain ⟨count, m, hcount, hm, rfl, hbefore⟩ := ih h
      rw [matchHere?_moved, Option.map_eq_none_iff] at hnone
      refine ⟨count + 1, m, by simpa using hcount, hm, by rw [Nat.add_right_comm, Nat.add_assoc],
        ?_⟩
      rintro (_ | earlier) hearlier
      · exact hnone
      · exact hbefore earlier (by omega)

/-- What a search finds is a match at the place where it starts. -/
theorem exists_matchHere?_of_searchFrom? (h : p.searchFrom? rest place = some found) :
    ∃ before after, rest = before ++ after ∧
      p.matchHere? after (place + before.length) = some found := by
  obtain ⟨count, m, hcount, hm, rfl, -⟩ := searchFrom?_eq_some h
  refine ⟨rest.take count, rest.drop count, (List.take_append_drop _ _).symm, ?_⟩
  rw [List.length_take_of_le hcount, matchHere?_moved, hm]
  rfl

end Pattern

end ApiCatalog
