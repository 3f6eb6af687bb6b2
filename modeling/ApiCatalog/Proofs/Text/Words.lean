import ApiCatalog.Proofs.Text.Trimming

/-!
# The words of texts put together

A run of characters of one kind ends where the first of another kind stands, so it is found again in
a text that begins with it (`takeWhile_run`, `dropWhile_run`), and two texts that begin with such
runs are equal only part by part (`run_append_inj`).

Blanks before or after a text add no word (`words_append_of_blank`, `words_append_blanks`), so a
text has the words of what trimming leaves of it (`words_trim`). A word that is followed by a blank
or by nothing is the first of the words (`words_word_append`).
-/

namespace ApiCatalog.Text

/-! ## Runs -/

section Runs

variable {kind : Char → Bool} {run rest run' rest' : List Char}

theorem takeWhile_run (hrun : ∀ c ∈ run, kind c = true) (hrest : ∀ c ∈ rest.head?, kind c = false) :
    (run ++ rest).takeWhile kind = run := by
  rw [List.takeWhile_append_of_pos hrun]
  cases rest with
  | nil => simp
  | cons c rest => simp [hrest c rfl]

theorem dropWhile_run (hrun : ∀ c ∈ run, kind c = true) (hrest : ∀ c ∈ rest.head?, kind c = false) :
    (run ++ rest).dropWhile kind = rest := by
  rw [List.dropWhile_append_of_pos hrun]
  cases rest with
  | nil => rfl
  | cons c rest => exact List.dropWhile_cons_of_neg (by simp [hrest c rfl])

theorem run_append_inj (hrun : ∀ c ∈ run, kind c = true) (hrest : ∀ c ∈ rest.head?, kind c = false)
    (hrun' : ∀ c ∈ run', kind c = true) (hrest' : ∀ c ∈ rest'.head?, kind c = false)
    (h : run ++ rest = run' ++ rest') : run = run' ∧ rest = rest' :=
  ⟨by rw [← takeWhile_run hrun hrest, h, takeWhile_run hrun' hrest'],
    by rw [← dropWhile_run hrun hrest, h, dropWhile_run hrun' hrest']⟩

/-- What follows the longest run of a kind is of another kind. -/
theorem of_mem_head?_dropWhile {c : Char} {cs : List Char} (h : c ∈ (cs.dropWhile kind).head?) :
    kind c = false := by
  have hhead := List.head?_dropWhile_not kind cs
  rw [Option.mem_def.1 h] at hhead
  exact hhead

end Runs

/-! ## Words -/

variable {u gap cs : List Char}

theorem words_append_of_blank (h : ∀ c ∈ gap, isBlank c = true) (cs : List Char) :
    words (gap ++ cs) = words cs := by
  induction gap with
  | nil => rfl
  | cons c gap ih =>
    have hc : words (c :: (gap ++ cs)) = words (gap ++ cs) := by
      simp [words, wordsFrom, h c (by simp)]
    rw [List.cons_append, hc, ih fun d hd => h d (by simp [hd])]

/-- Characters that are no blanks extend the open word. -/
theorem wordsFrom_append (h : ∀ c ∈ u, isBlank c = false) (openWord cs : List Char) :
    wordsFrom openWord (u ++ cs) = wordsFrom (u.reverse ++ openWord) cs := by
  induction u generalizing openWord with
  | nil => rfl
  | cons c u ih =>
    have hc : ¬ isBlank c = true := by simp [h c (by simp)]
    rw [List.cons_append, wordsFrom, if_neg hc, ih fun d hd => h d (by simp [hd])]
    simp

theorem words_word_append (hne : u ≠ []) (hword : ∀ c ∈ u, isBlank c = false)
    (hnext : ∀ c ∈ cs.head?, isBlank c = true) : words (u ++ cs) = u :: words cs := by
  rw [words, wordsFrom_append hword, List.append_nil]
  cases cs with
  | nil => simp [wordsFrom, hne]
  | cons c cs =>
    have hc : isBlank c = true := hnext c rfl
    simp [words, wordsFrom, hc, hne]

theorem wordsFrom_append_blanks (h : ∀ c ∈ gap, isBlank c = true) (openWord cs : List Char) :
    wordsFrom openWord (cs ++ gap) = wordsFrom openWord cs := by
  induction cs generalizing openWord with
  | nil =>
    cases gap with
    | nil => rfl
    | cons c gap =>
      have hnone : words gap = [] := words_eq_nil_iff.2 fun d hd => h d (by simp [hd])
      rw [words] at hnone
      simp [wordsFrom, h c (by simp), hnone]
  | cons c cs ih => simp only [List.cons_append, wordsFrom, ih]

theorem words_append_blanks (h : ∀ c ∈ gap, isBlank c = true) (cs : List Char) :
    words (cs ++ gap) = words cs :=
  wordsFrom_append_blanks h [] cs

theorem words_trim (cs : List Char) : words (trim cs) = words cs := by
  obtain ⟨before, after, hcs, hbefore, hafter⟩ := exists_trim cs
  calc words (trim cs)
      = words (before ++ trim cs) := (words_append_of_blank hbefore _).symm
    _ = words (before ++ trim cs ++ after) := (words_append_blanks hafter _).symm
    _ = words cs := by rw [← hcs]

end ApiCatalog.Text
