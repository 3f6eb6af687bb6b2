import ApiCatalog.Proofs.Response.Expansion

/-!
# Expansions of rows of phrases

An expansion that replaces phrases of one kind and leaves the others alone is, on rows of phrases,
a map that puts a few phrases for every one (`Layout.rewrite`).
-/

namespace ApiCatalog.Response

open ApiCatalog.Json (Glyph Punctuation)
open ApiCatalog.Pattern
open ApiCatalog.Quoting
open ApiCatalog.Text

/-! ## Phrases as quoted text -/

section Quoted

variable {blank : Char → Bool} {l : Phrase} {ls : List Phrase} {u text : List Char}

theorem isPlain_markChar (p : Punctuation) : IsPlain (markChar p) := by
  cases p <;> decide

/-- A phrase is plain, or it is a literal. -/
theorem Phrase.Writes.parted (hblank : ∀ b, Gap blank b → ∀ c ∈ b, IsPlain c)
    (hu : l.Writes blank u) : ∃ ks, Parted u ks := by
  have hcolons : ∀ c ∈ "::".toList, IsPlain c := isPlain_of_all (by decide)
  cases hu with
  | mark p => exact ⟨[], .of_plain (by simpa using isPlain_markChar p)⟩
  | word w => exact ⟨[], .of_plain w.isWord.isPlain⟩
  | negative w => exact ⟨[], .plain (by decide) (by decide) (.of_plain w.isWord.isPlain)⟩
  | literal l => exact ⟨[l.text], .single l.isLiteral⟩
  | listType t =>
    exact ⟨[], .of_plain (isPlain_append t.isWord.isPlain (isPlain_of_all (by decide)))⟩
  | key n hb =>
    refine ⟨[], .of_plain (isPlain_append n.isWord.isPlain (isPlain_append (hblank _ hb) ?_))⟩
    exact isPlain_of_all (by decide)
  | typedField n t hb hb' =>
    exact ⟨[], .of_plain (isPlain_append n.isWord.isPlain (isPlain_append (hblank _ hb)
      (isPlain_append hcolons (isPlain_append (hblank _ hb') t.isWord.isPlain))))⟩
  | namedType t hb =>
    exact ⟨[], .of_plain (isPlain_append hcolons
      (isPlain_append (hblank _ hb) t.isWord.isPlain))⟩
  | typedOpen hb =>
    refine ⟨[], .of_plain (isPlain_append hcolons (isPlain_append (hblank _ hb) ?_))⟩
    exact isPlain_of_all (by decide)

theorem Layout.parted (h : Layout isSpace ls text) : ∃ ks, Parted text ks := by
  induction h with
  | nil hb => exact ⟨[], .of_plain hb.isPlain⟩
  | cons hb hu _ _ ih =>
    obtain ⟨js, hjs⟩ := hu.parted fun _ hb => hb.isPlain
    obtain ⟨ks, hks⟩ := ih
    exact ⟨_, (Parted.of_plain hb.isPlain).append (hjs.append hks)⟩

theorem Layout.pairsUp (h : Layout isSpace ls text) : pairsUp false text = true := by
  obtain ⟨ks, hks⟩ := h.parted
  exact hks.pairsUp

/-- A row that goes on with a stop is laid out as a text that does. -/
theorem Layout.endsWord (h : Layout isSpace ls text) (hstop : WordStop ls) : EndsWord text := by
  cases h with
  | nil hb => exact ⟨text, [], by simp, hb, by simp⟩
  | @cons l ls b u rest hb hu _ _ =>
    refine ⟨b, u ++ rest, rfl, hb, ?_⟩
    have hl : l.endsWord = true := hstop l rfl
    cases hu with
    | mark p => cases p <;> simp [Phrase.endsWord] at hl <;> simp [markChar]
    | _ => simp [Phrase.endsWord] at hl

end Quoted

/-! ## Maps of rows -/

/-- What a phrase knows of the text after it. -/
structure Phrase.Before (l : Phrase) (text : List Char) : Prop where
  colon : l.endsInColon = true → NoColon text
  word : l.endsInWord = true → EndsWord text
  paired : pairsUp false text = true

section Maps

variable {p : Pattern} {r : Replacement} {S : Phrase → List Phrase} {l : Phrase}
variable {ls : List Phrase} {b u text : List Char}

/-- The phrases `S l` are what rewriting makes of `l` and the gap before it. -/
def Maps (p : Pattern) (r : Replacement) (l : Phrase) (ks : List Phrase) : Prop :=
  ∀ b u text, Gap isSpace b → l.Writes isSpace u → l.Before text →
    ∃ out, rewrite p r false (b ++ (u ++ text)) = out ++ rewrite p r false text ∧
      Layout isSpace ks out ∧ ∀ k ∈ ks.getLast?, k.endsInColon = true → l.endsInColon = true

theorem NoColon.rewrite (hp : Avoids ':' p r) (h : NoColon text)
    (hnil : rewrite p r false [] = []) : NoColon (rewrite p r false text) := by
  cases text with
  | nil => rw [hnil]; exact noColon_nil
  | cons c cs =>
    obtain ⟨e, v, hev, he⟩ := rewrite_head hp c cs
    rw [hev]
    refine noColon_cons.2 (he.elim ?_ id)
    intro h'
    rw [h']
    exact noColon_cons.1 h

/-- If every phrase of a row is mapped, so is the row. -/
theorem Layout.rewrite (hp : Avoids ':' p r)
    (hgap : ∀ b, Gap isSpace b → Quoting.rewrite p r false b = b)
    (hS : ∀ l ∈ ls, Maps p r l (S l)) (ho : Orderly ls) (h : Layout isSpace ls text) :
    Layout isSpace (ls.flatMap S) (Quoting.rewrite p r false text) := by
  induction h with
  | nil hb =>
    rw [hgap _ hb]
    exact .nil hb
  | @cons l ls b u text hb hu hcolon rest ih =>
    -- the text after the phrase is the one before the expansion, so the layout says what it is
    have hbefore : l.Before text := ⟨hcolon, fun hl => rest.endsWord (ho.1 hl), rest.pairsUp⟩
    obtain ⟨out, hout, hlayout, hlast⟩ := hS l (by simp) b u text hb hu hbefore
    rw [hout, List.flatMap_cons]
    refine hlayout.append (ih (fun k hk => hS k (by simp [hk])) ho.2) ?_
    intro k hk hend
    exact (hcolon (hlast k hk hend)).rewrite hp (hgap [] gap_nil)

/-- A map that keeps marks and ends only words in words keeps a row orderly. -/
theorem Orderly.flatMap (hmark : ∀ p, S (.mark p) = [.mark p])
    (hS : ∀ l ∈ ls, ∀ rest, (l.endsInWord = true → WordStop rest) → Orderly rest →
      Orderly (S l ++ rest)) (h : Orderly ls) : Orderly (ls.flatMap S) := by
  induction ls with
  | nil => exact h
  | cons l ls ih =>
    rw [List.flatMap_cons]
    have hrest := ih (fun k hk => hS k (by simp [hk])) h.2
    refine hS l (by simp) _ ?_ hrest
    intro hl
    have hnext := h.1 hl
    cases ls with
    | nil => simp [WordStop]
    | cons k ls =>
      -- what stops a word is a mark, and a mark is kept
      have hk : k.endsWord = true := hnext k rfl
      cases k with
      | mark p =>
        rw [List.flatMap_cons, hmark p]
        simpa [WordStop] using hk
      | _ => exact absurd hk (by simp [Phrase.endsWord])

/-- A phrase that is copied with the gap before it is mapped to itself. -/
theorem maps_self (h : ∀ b u text, Gap isSpace b → l.Writes isSpace u → l.Before text →
    rewrite p r false (b ++ (u ++ text)) = b ++ (u ++ rewrite p r false text)) :
    Maps p r l [l] := by
  intro b u text hb hu hbefore
  refine ⟨b ++ u, by rw [h b u text hb hu hbefore, List.append_assoc], .single hb hu, ?_⟩
  intro k hk hend
  obtain rfl : l = k := by simpa using hk
  exact hend

end Maps

end ApiCatalog.Response
