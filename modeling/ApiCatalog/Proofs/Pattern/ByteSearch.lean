import ApiCatalog.Pattern.Search
import ApiCatalog.Proofs.Text.Offsets

/-!
# Searches in bytes

A `ByteSearcher` finds matches like a `Searcher`, but counts in bytes, so it has to promise that its
matches lie between boundaries of the text. The two are the same searches counted in two ways: each
of them gives one of the other kind, and every searcher arises so (`Searcher.searcher_inBytes`).
-/

namespace ApiCatalog

open Text (IsBoundary cutAt? cutAt?_offsetOf isBoundary_iff isBoundary_offsetOf offsetOf
  offsetOf_strictMono offsetOf_take placeOf placeOf_offsetOf)

/-- The match with its places counted in another way. -/
def Match.recounted (count : Nat → Nat) (m : Match) : Match :=
  ⟨count m.start, count m.stop,
    m.groups.map fun (index, start, stop) => (index, count start, count stop)⟩

/-- A way of finding matches in texts, with offsets in bytes. -/
structure ByteSearcher where
  /-- The match found at or after an offset. -/
  find? : List Char → Nat → Option Match
  /-- A match lies at or after the offset, from one boundary of the text to another. -/
  inside : ∀ {text : List Char} {offset : Nat} {m : Match}, find? text offset = some m →
    offset ≤ m.start ∧ m.start ≤ m.stop ∧ IsBoundary text m.start ∧ IsBoundary text m.stop

namespace ByteSearcher

variable {engine : ByteSearcher} {text head : List Char} {offset size : Nat} {m found : Match}

theorem exists_places (h : engine.find? text offset = some m) :
    ∃ start stop, start ≤ stop ∧ stop ≤ text.length ∧ offset ≤ offsetOf text start ∧
      m.start = offsetOf text start ∧ m.stop = offsetOf text stop := by
  obtain ⟨hoffset, horder, hstart, hstop⟩ := engine.inside h
  obtain ⟨start, -, hstart⟩ := isBoundary_iff.1 hstart
  obtain ⟨stop, hlength, hstop⟩ := isBoundary_iff.1 hstop
  rw [hstart, hstop, (offsetOf_strictMono text).le_iff_le] at horder
  exact ⟨start, stop, horder, hlength, hstart ▸ hoffset, hstart, hstop⟩

/-- What is found in a first part of a text lies at the same places of the text. -/
theorem places_of_find? (hhead : text.take size = head) (hsize : size ≤ text.length)
    (h : engine.find? head offset = some m) (hfound : m.recounted (placeOf head) = found) :
    m.start = offsetOf text found.start ∧ m.stop = offsetOf text found.stop ∧
      offset ≤ offsetOf text found.start ∧ found.start ≤ found.stop ∧ found.stop ≤ size := by
  obtain ⟨start, stop, horder, hlength, hoffset, hstart, hstop⟩ := exists_places h
  have hplaces : found.start = start ∧ found.stop = stop := by
    rw [← hfound, Match.recounted, hstart, hstop, placeOf_offsetOf, placeOf_offsetOf]
    exact ⟨rfl, rfl⟩
  rw [← hhead, List.length_take_of_le hsize] at hlength
  rw [← hhead, offsetOf_take (Nat.le_trans horder hlength)] at hstart hoffset
  rw [← hhead, offsetOf_take hlength] at hstop
  rw [hplaces.1, hplaces.2]
  exact ⟨hstart, hstop, hoffset, horder, hlength⟩

/-- The same searches, with places counted in characters. -/
def searcher (engine : ByteSearcher) : Searcher where
  find? text place :=
    (engine.find? text (offsetOf text place)).map (Match.recounted (placeOf text))
  inside := by
    intro text place m h
    obtain ⟨found, hfound, rfl⟩ := Option.map_eq_some_iff.1 h
    obtain ⟨start, stop, horder, hlength, hplace, hstart, hstop⟩ := exists_places hfound
    rw [(offsetOf_strictMono text).le_iff_le] at hplace
    simp only [Match.recounted, hstart, hstop, placeOf_offsetOf]
    exact ⟨hplace, horder, hlength⟩

theorem find?_searcher (engine : ByteSearcher) (text : List Char) (place : Nat) :
    engine.searcher.find? text place =
      (engine.find? text (offsetOf text place)).map (Match.recounted (placeOf text)) := rfl

end ByteSearcher

namespace Searcher

variable {searcher other : Searcher} {text : List Char} {place : Nat}

/-- The same searches, with places counted in bytes. Nothing is found from within a character on. -/
def inBytes (searcher : Searcher) : ByteSearcher where
  find? text offset :=
    (cutAt? text offset).bind fun (before, _) =>
      (searcher.find? text before.length).map (Match.recounted (offsetOf text))
  inside := by
    intro text offset m h
    obtain ⟨⟨before, after⟩, hcut, hfind⟩ := Option.bind_eq_some_iff.1 h
    obtain ⟨found, hfound, rfl⟩ := Option.map_eq_some_iff.1 hfind
    obtain ⟨hplace, horder, hlength⟩ := searcher.inside hfound
    obtain ⟨rfl, rfl⟩ := Text.cutAt?_eq_some_iff.1 hcut
    have hmono := (offsetOf_strictMono (before ++ after)).monotone
    rw [← Text.offsetOf_append_length before after]
    exact ⟨hmono hplace, hmono horder, isBoundary_offsetOf (Nat.le_trans horder hlength),
      isBoundary_offsetOf hlength⟩

theorem eq_of_find?_eq (h : searcher.find? = other.find?) : searcher = other := by
  cases searcher
  cases other
  cases h
  rfl

theorem find?_of_beyond (h : text.length < place) : searcher.find? text place = none := by
  refine Option.eq_none_iff_forall_not_mem.2 fun m hm => ?_
  have := searcher.inside hm
  omega

theorem find?_inBytes (h : place ≤ text.length) :
    searcher.inBytes.find? text (offsetOf text place) =
      (searcher.find? text place).map (Match.recounted (offsetOf text)) := by
  show ((cutAt? text (offsetOf text place)).bind fun (before, _) =>
    (searcher.find? text before.length).map (Match.recounted (offsetOf text))) = _
  rw [cutAt?_offsetOf h, Option.bind_some]
  show (searcher.find? text (text.take place).length).map _ = _
  rw [List.length_take_of_le h]

/-- Every searcher comes from one that counts in bytes. -/
theorem searcher_inBytes (searcher : Searcher) : searcher.inBytes.searcher = searcher := by
  refine eq_of_find?_eq (funext fun text => funext fun place => ?_)
  rcases Nat.lt_or_ge text.length place with hbeyond | hplace
  · rw [find?_of_beyond hbeyond, find?_of_beyond hbeyond]
  · have hback : Match.recounted (placeOf text) ∘ Match.recounted (offsetOf text) = id := by
      funext m
      simp [Match.recounted, Function.comp_def]
    rw [ByteSearcher.find?_searcher, find?_inBytes hplace, Option.map_map, hback, Option.map_id, id]

end Searcher

end ApiCatalog
