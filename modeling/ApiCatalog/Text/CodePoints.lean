/-!
# Sets and maps of code points as runs

A character property is a list of `Run`s: arithmetic progressions of code points in ascending
order. A one-to-one character map is a list of `Shift`s: runs whose members all move by one
distance.
-/

namespace ApiCatalog.Text

/-- The code points `first`, `first + step`, `first + 2 * step` and so on, up to `last`. -/
structure Run where
  first : Nat
  last : Nat
  step : Nat
deriving Repr, DecidableEq

/-- Whether `n` lies in one of the runs, which come in ascending order. -/
def Run.covers : List Run → Nat → Bool
  | [], _ => false
  | r :: rs, n =>
    if n < r.first then false
    else if n ≤ r.last then (n - r.first) % r.step == 0
    else Run.covers rs n

/-- Whether a code point belongs to a run. -/
def Run.Contains (r : Run) (n : Nat) : Prop :=
  r.first ≤ n ∧ n ≤ r.last ∧ (n - r.first) % r.step = 0

/-- Whether every run ends before the next begins. -/
def Run.ascending : List Run → Bool
  | r :: s :: rest => r.first ≤ r.last && r.last < s.first && Run.ascending (s :: rest)
  | [r] => r.first ≤ r.last
  | [] => true

theorem Run.ascending_tail {r : Run} {rs : List Run} (h : Run.ascending (r :: rs) = true) :
    Run.ascending rs = true := by
  cases rs with
  | nil => rfl
  | cons s rest =>
    simp only [Run.ascending, Bool.and_eq_true] at h
    exact h.2

/-- In ascending runs all members of later runs come after a run. -/
theorem Run.last_lt_of_contains {r : Run} {rs : List Run} (h : Run.ascending (r :: rs) = true)
    {s : Run} (hs : s ∈ rs) {n : Nat} (hn : s.Contains n) : r.last < n := by
  induction rs generalizing r with
  | nil => simp at hs
  | cons t rest ih =>
    have ht := h
    simp only [Run.ascending, Bool.and_eq_true, decide_eq_true_eq] at h
    have hlast : t.first ≤ t.last := by
      cases rest with
      | nil => simpa [Run.ascending] using h.2
      | cons u tail =>
        have := h.2
        simp only [Run.ascending, Bool.and_eq_true, decide_eq_true_eq] at this
        exact this.1.1
    rcases List.mem_cons.1 hs with rfl | hs
    · have := hn.1
      omega
    · have := ih (Run.ascending_tail ht) hs
      omega

/-- The early exit of the lookup is right for ascending runs. -/
theorem Run.covers_iff {rs : List Run} (h : Run.ascending rs = true) (n : Nat) :
    Run.covers rs n = true ↔ ∃ r ∈ rs, r.Contains n := by
  induction rs with
  | nil => simp [Run.covers]
  | cons r rs ih =>
    simp only [Run.covers]
    split
    · rename_i hlt
      simp only [Bool.false_eq_true, List.mem_cons, exists_eq_or_imp, false_iff, not_or,
        not_exists, not_and]
      refine ⟨fun hc => ?_, fun s hs hc => ?_⟩
      · have := hc.1
        omega
      · have hle : r.first ≤ r.last := by
          cases rs with
          | nil => simp at hs
          | cons t rest =>
            simp only [Run.ascending, Bool.and_eq_true, decide_eq_true_eq] at h
            exact h.1.1
        have := Run.last_lt_of_contains h hs hc
        omega
    · rename_i hge
      split
      · rename_i hle
        simp only [beq_iff_eq, List.mem_cons, exists_eq_or_imp]
        constructor
        · exact fun hm => Or.inl ⟨by omega, hle, hm⟩
        · rintro (hc | ⟨s, hs, hc⟩)
          · exact hc.2.2
          · have := Run.last_lt_of_contains h hs hc
            omega
      · rename_i hgt
        rw [ih (Run.ascending_tail h)]
        simp only [List.mem_cons, exists_eq_or_imp]
        constructor
        · exact Or.inr
        · rintro (hc | hc)
          · exact absurd hc.2.1 hgt
          · exact hc

/-- A run whose members move together, the first of them to `target`. -/
structure Shift where
  run : Run
  target : Nat
deriving Repr, DecidableEq

/-- Where the shifts, which come in ascending order, move `n`; a code point in no run stays. -/
def Shift.apply : List Shift → Nat → Nat
  | [], n => n
  | s :: ss, n =>
    if n < s.run.first then n
    else if n ≤ s.run.last then
      if (n - s.run.first) % s.run.step == 0 then s.target + (n - s.run.first) else n
    else Shift.apply ss n

/-- The form that a table of shifts, with a table of characters that become several, gives `c`. -/
def caseForm (shifts : List Shift) (expansions : List (Nat × List Nat)) (c : Char) : List Char :=
  match expansions.lookup c.toNat with
  | some points => points.map Char.ofNat
  | none => [Char.ofNat (Shift.apply shifts c.toNat)]

theorem Shift.apply_of_lt {s : Shift} {ss : List Shift} {n : Nat} (h : n < s.run.first) :
    Shift.apply (s :: ss) n = n := by
  simp [Shift.apply, h]

end ApiCatalog.Text
