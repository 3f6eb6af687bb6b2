import ApiCatalog.Annotation.Response
import ApiCatalog.Proofs.Quoting.Segments

/-!
# Expanding the shorthand between the literals

The matches of the patterns of the shorthand, but for the typed object, are never empty and have no
quote in them. The steps that replace them therefore act on each segment between the string literals
of a text as if it were the whole text (`substitute_segmentwise`).
-/

namespace ApiCatalog.Response

open ApiCatalog.Quoting

/-- Only the pattern of a typed object can match a quote. -/
theorem quoteFree_of_mem {p : Pattern} (h : p ∈ [listType, keyAndColons, typedField, namedType]) :
    p.unanchored = true ∧ QuoteFree p := by
  have hall : ∀ p ∈ [listType, keyAndColons, typedField, namedType],
      p.unanchored = true ∧ p.consumes = true ∧ ∀ member ∈ p.classes, member '"' = false := by
    decide
  obtain ⟨hcut, hconsumes, hclasses⟩ := hall p h
  exact ⟨hcut, quoteFree_of_classes hconsumes hclasses⟩

/-- For a pattern that does not ask for the end of the text and whose matches are never empty and
have no quote in them, a substitution in a text whose real quotes pair up replaces all matches of
each segment between the literals, found in that segment alone, and copies the literals. In a text
without real quotes it replaces all matches. The patterns of the shorthand are such patterns, but for
that of the typed object. -/
theorem substitute_segmentwise :
    (∀ p : Pattern, p.unanchored = true → QuoteFree p → ∀ replacement : Replacement,
      (∀ text, isUnquoted text 0 = true →
        (∃ o parts, Segments o parts ∧ text = joined o parts) ∧
        ∀ o parts, Segments o parts → text = joined o parts →
          literals text = parts.map Prod.fst ∧
          substitute p.searcher replacement text =
            replaceAll p.searcher replacement o ++
              parts.flatMap fun part => part.1 ++ replaceAll p.searcher replacement part.2) ∧
      ∀ text, (∀ mark ∈ marks text, mark = false) →
        substitute p.searcher replacement text = replaceAll p.searcher replacement text) ∧
    ∀ p ∈ [listType, keyAndColons, typedField, namedType], p.unanchored = true ∧ QuoteFree p := by
  refine ⟨?_, fun p => quoteFree_of_mem⟩
  intro p hcut hp replacement
  refine ⟨?_, ?_⟩
  · intro text htext
    rw [isUnquoted_zero] at htext
    refine ⟨exists_segments htext, ?_⟩
    rintro o parts hparts rfl
    exact ⟨hparts.literals_eq, substitute_joined hp hcut hparts⟩
  · intro text htext
    exact substitute_eq_replaceAll htext fun place m hm => (hp text place m hm).1

/-- Keys before and after a literal are quoted as if it were not there; in it stand an escaped quote
and what looks like a key. -/
theorem substitute_segmentwise_keys :
    let literal := "\"b\\\": c\"".toList
    let quoted : Replacement := fun captures => '"' :: captures.text 1 ++ ['"', ':']
    Segments "a: ".toList [(literal, " d:".toList)] ∧
      literals ("a: ".toList ++ literal ++ " d:".toList) = [literal] ∧
      substitute keyAndColons.searcher quoted ("a: ".toList ++ literal ++ " d:".toList) =
        replaceAll keyAndColons.searcher quoted "a: ".toList ++ literal ++
          replaceAll keyAndColons.searcher quoted " d:".toList := by
  intro literal quoted
  have hsegments : Segments "a: ".toList [(literal, " d:".toList)] :=
    .literal ⟨by decide, by decide⟩ ⟨"b\\\": c".toList, by decide, by decide, by decide⟩
      (.last (by decide))
  obtain ⟨hpatterns, hmembers⟩ := substitute_segmentwise
  obtain ⟨hcut, hquote⟩ := hmembers keyAndColons (by simp)
  obtain ⟨-, hparts⟩ := (hpatterns keyAndColons hcut hquote quoted).1
    ("a: ".toList ++ literal ++ " d:".toList) (by decide)
  obtain ⟨hliterals, hsubstitute⟩ := hparts "a: ".toList _ hsegments (by decide)
  refine ⟨hsegments, hliterals, ?_⟩
  rw [hsubstitute]
  simp

end ApiCatalog.Response
