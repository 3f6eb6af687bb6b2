import ApiCatalog.Proofs.Pattern.Place

/-!
# Cutting a text behind a match

A pattern that does not ask for the end of the text does not look beyond where it runs to. The runs
on a longer text that end in its first part are, in the same order of preference, the runs on that
part alone (`runs_extend`). Hence a match that ends there is found in the part alone as well
(`matchHere?_append`), and captures the same (`captures_append`).
-/

namespace ApiCatalog

theorem flatMap_congr {α β : Type} {xs : List α} {f g : α → List β} (h : ∀ x ∈ xs, f x = g x) :
    xs.flatMap f = xs.flatMap g := by
  rw [List.flatMap_def, List.flatMap_def, List.map_congr_left h]

namespace Pattern

/-- Whether a pattern matches without regard to where the text ends. -/
def unanchored : Pattern → Bool
  | .empty => true
  | .one _ => true
  | .seq p q => unanchored p && unanchored q
  | .alt p q => unanchored p && unanchored q
  | .star p _ => unanchored p
  | .group _ p => unanchored p
  | .atEnd => false

/-- The cursor in a text that goes on further. -/
def Cursor.extend (more : List Char) (s : Cursor) : Cursor := { s with rest := s.rest ++ more }

/-- Whether at least that many characters are left. -/
def Cursor.leaves (size : Nat) (s : Cursor) : Bool := size ≤ s.rest.length

variable {s t : Cursor} {size : Nat} {more : List Char}

@[simp] theorem leaves_extend : (s.extend more).leaves more.length = true := by
  simp [Cursor.leaves, Cursor.extend]

theorem advanced_extend : (s.extend more).advanced (t.extend more) = s.advanced t := rfl

/-- Where too little is left, no run leaves more. -/
theorem Cursor.Reaches.leaves (h : s.Reaches t) (ht : t.leaves size = true) :
    s.leaves size = true := by
  obtain ⟨between, hrest, -⟩ := h
  simp only [Cursor.leaves, decide_eq_true_eq] at ht ⊢
  rw [hrest, List.length_append]
  omega

/-- A round that consumed something leaves less of the text. -/
theorem Cursor.Reaches.length_lt (h : s.Reaches t) (ht : s.advanced t = true) :
    t.rest.length < s.rest.length := by
  obtain ⟨between, hrest, hposition⟩ := h
  simp only [Cursor.advanced, decide_eq_true_eq] at ht
  rw [hrest, List.length_append]
  omega

/-! ## Repetition -/

section Rounds

variable {ends : Cursor → List Cursor}

/-- Where nothing is left, a repetition ends without a round. -/
theorem roundRuns_of_rest_eq_nil (h : ∀ s, ∀ t ∈ ends s, s.Reaches t) (greedy : Bool)
    (rounds : Nat) (hs : s.rest = []) : roundRuns ends greedy rounds s = [s] := by
  have hnone : (ends s).filter s.advanced = [] := by
    refine List.filter_eq_nil_iff.2 fun t ht hadvanced => ?_
    have hlt := (h s t ht).length_lt hadvanced
    simp [hs] at hlt
  cases rounds with
  | zero => rfl
  | succ rounds => cases greedy <;> simp [roundRuns, hnone]

/-- More rounds than there are characters left make no difference. -/
theorem roundRuns_stable (h : ∀ s, ∀ t ∈ ends s, s.Reaches t) (greedy : Bool) {rounds other : Nat}
    (hrounds : s.rest.length ≤ rounds) (hother : s.rest.length ≤ other) :
    roundRuns ends greedy rounds s = roundRuns ends greedy other s := by
  induction rounds generalizing s other with
  | zero =>
    have hs : s.rest = [] := List.eq_nil_of_length_eq_zero (by omega)
    rw [roundRuns_of_rest_eq_nil h greedy other hs]
    rfl
  | succ rounds ih =>
    cases other with
    | zero =>
      have hs : s.rest = [] := List.eq_nil_of_length_eq_zero (by omega)
      rw [roundRuns_of_rest_eq_nil h greedy _ hs]
      rfl
    | succ other =>
      have hmore : ((ends s).filter s.advanced).flatMap (roundRuns ends greedy rounds) =
          ((ends s).filter s.advanced).flatMap (roundRuns ends greedy other) := by
        refine flatMap_congr fun t ht => ?_
        obtain ⟨ht, hadvanced⟩ := List.mem_filter.1 ht
        have hlt := (h s t ht).length_lt hadvanced
        exact ih (by omega) (by omega)
      simp only [roundRuns, hmore]

end Rounds

/-! ## Runs that end in the first part -/

/-- Of several runs one after the other those that leave enough are those all of whose parts do. -/
theorem filter_flatMap_leaves {f : Cursor → List Cursor} (h : ∀ s, ∀ t ∈ f s, s.Reaches t)
    (size : Nat) (cursors : List Cursor) :
    (cursors.flatMap f).filter (·.leaves size) =
      (cursors.filter (·.leaves size)).flatMap fun s => (f s).filter (·.leaves size) := by
  induction cursors with
  | nil => rfl
  | cons s cursors ih =>
    rw [List.flatMap_cons, List.filter_append, ih]
    cases hs : s.leaves size with
    | true => rw [List.filter_cons_of_pos hs, List.flatMap_cons]
    | false =>
      have hnone : (f s).filter (·.leaves size) = [] := by
        refine List.filter_eq_nil_iff.2 fun t ht hleaves => ?_
        rw [(h s t ht).leaves hleaves] at hs
        exact absurd hs (by decide)
      rw [List.filter_cons_of_neg (by simp [hs]), hnone, List.nil_append]

/-- `f` runs on a longer text as it does on its first part, as long as it stays there. -/
def Extends (f : Cursor → List Cursor) : Prop :=
  ∀ more s, (f (s.extend more)).filter (·.leaves more.length) = (f s).map (·.extend more)

section Extends

variable {f g : Cursor → List Cursor}

theorem extends_append (hf : Extends f) (hg : Extends g) : Extends fun s => f s ++ g s := by
  intro more s
  rw [List.filter_append, hf, hg, List.map_append]

theorem extends_self : Extends fun s => [s] := by
  intro more s
  simp

theorem extends_flatMap (hf : Extends f) (hg : Extends g) (h : ∀ s, ∀ t ∈ g s, s.Reaches t) :
    Extends fun s => (f s).flatMap g := by
  intro more s
  rw [filter_flatMap_leaves h, hf, List.flatMap_map, List.map_flatMap]
  exact flatMap_congr fun t _ => hg more t

theorem extends_filter_advanced (hf : Extends f) : Extends fun s => (f s).filter s.advanced := by
  intro more s
  have hadvanced : (s.extend more).advanced ∘ (·.extend more) = s.advanced := by
    funext t
    exact advanced_extend
  have hcomm : ((f (s.extend more)).filter (s.extend more).advanced).filter (·.leaves more.length) =
      ((f (s.extend more)).filter (·.leaves more.length)).filter (s.extend more).advanced := by
    simp only [List.filter_filter, Bool.and_comm]
  rw [hcomm, hf, List.filter_map, hadvanced]

theorem extends_roundRuns (hf : Extends f) (h : ∀ s, ∀ t ∈ f s, s.Reaches t) (greedy : Bool)
    (rounds : Nat) : Extends (roundRuns f greedy rounds) := by
  induction rounds with
  | zero => exact extends_self
  | succ rounds ih =>
    have hmore : Extends fun s => ((f s).filter s.advanced).flatMap (roundRuns f greedy rounds) :=
      extends_flatMap (extends_filter_advanced hf) ih fun s t =>
        rel_of_mem_roundRuns Cursor.Reaches.refl (fun _ _ _ => Cursor.Reaches.trans) h greedy rounds
          s t
    cases greedy with
    | true => exact extends_append hmore extends_self
    | false => exact extends_append extends_self hmore

theorem extends_one (member : Char → Bool) : Extends (runs (.one member)) := by
  intro more s
  obtain ⟨position, rest, groups⟩ := s
  cases rest with
  | nil =>
    cases more with
    | nil => rfl
    | cons c cs => by_cases hc : member c <;> simp [runs, Cursor.extend, Cursor.leaves, hc]
  | cons c cs => by_cases hc : member c <;> simp [runs, Cursor.extend, Cursor.leaves, hc]

end Extends

/-- The runs on a longer text that end in its first part are those on the first part. -/
theorem runs_extend (p : Pattern) (h : p.unanchored = true) : Extends (runs p) := by
  induction p with
  | empty => exact extends_self
  | one member => exact extends_one member
  | seq p q ihp ihq =>
    obtain ⟨hp, hq⟩ : p.unanchored = true ∧ q.unanchored = true := by simpa [unanchored] using h
    exact extends_flatMap (ihp hp) (ihq hq) fun _ _ => reaches_of_mem_runs
  | alt p q ihp ihq =>
    obtain ⟨hp, hq⟩ : p.unanchored = true ∧ q.unanchored = true := by simpa [unanchored] using h
    exact extends_append (ihp hp) (ihq hq)
  | star p greedy ih =>
    intro more s
    have hreaches : ∀ s, ∀ t ∈ runs p s, s.Reaches t := fun _ _ => reaches_of_mem_runs
    -- the rounds are counted by what is left, which differs: take the greater number for both
    have hrounds : runs (.star p greedy) s =
        roundRuns (runs p) greedy (s.extend more).rest.length s :=
      roundRuns_stable hreaches greedy (Nat.le_refl _) (by simp [Cursor.extend])
    rw [hrounds]
    exact extends_roundRuns (ih h) hreaches greedy _ more s
  | group index p ih =>
    intro more s
    have hremember : (runs (.group index p) (s.extend more)).filter (·.leaves more.length) =
        ((runs p (s.extend more)).filter (·.leaves more.length)).map
          fun t => t.remember index s.position := List.filter_map
    rw [hremember, ih h, runs, List.map_map, List.map_map]
    rfl
  | atEnd => simp [unanchored] at h

/-! ## Matches -/

/-- A run leaves the second part of a text if it ends in the first. -/
theorem leaves_iff_of_mem_runs {p : Pattern} {a b : List Char} (ht : t ∈ runs p ⟨0, a ++ b, []⟩) :
    t.leaves b.length = true ↔ t.position ≤ a.length := by
  obtain ⟨between, hrest, hposition⟩ := reaches_of_mem_runs ht
  have hlen := congrArg List.length hrest
  simp only [List.length_append, Nat.zero_add] at hlen hposition
  simp only [Cursor.leaves, decide_eq_true_eq]
  omega

/-- A match in the first part of a text is found there as well. -/
theorem matchHere?_append {p : Pattern} (hp : p.unanchored = true) {a b : List Char}
    (h : ∀ m, p.matchHere? (a ++ b) 0 = some m → m.stop ≤ a.length) :
    p.matchHere? (a ++ b) 0 = p.matchHere? a 0 := by
  have hruns := runs_extend p hp b ⟨0, a, []⟩
  have hlong : (⟨0, a, []⟩ : Cursor).extend b = ⟨0, a ++ b, []⟩ := rfl
  rw [hlong] at hruns
  rw [matchHere?_eq_head?] at h
  rw [matchHere?_eq_head?, matchHere?_eq_head?]
  cases hlist : runs p ⟨0, a ++ b, []⟩ with
  | nil =>
    rw [hlist] at hruns
    have hnone : runs p ⟨0, a, []⟩ = [] := List.map_eq_nil_iff.1 hruns.symm
    rw [hnone]
  | cons t ts =>
    have ht : t ∈ runs p ⟨0, a ++ b, []⟩ := by simp [hlist]
    rw [hlist] at h hruns
    have hleaves : t.leaves b.length = true :=
      (leaves_iff_of_mem_runs ht).2 (h ⟨0, t.position, t.groups⟩ rfl)
    rw [List.filter_cons_of_pos hleaves] at hruns
    -- the most preferred run on the whole is the most preferred one on the first part
    obtain ⟨t', ts', hshort, rfl, -⟩ := List.map_eq_cons_iff.1 hruns.symm
    rw [hshort]
    rfl

/-- The groups that are remembered lie before the cursor. -/
def Cursor.Settled (s : Cursor) : Prop := ∀ group ∈ s.groups, group.2.2 ≤ s.position

theorem settled_of_mem_runs {p : Pattern} (ht : t ∈ runs p s) (hs : s.Settled) : t.Settled := by
  refine rel_of_mem_runs (R := fun s t => s.Settled → t.Settled) (fun _ hs => hs)
    (fun s t u hst htu hs => htu (hst hs)) ?_ ?_ ht hs
  · intro s t index hst hs group hgroup
    rcases List.mem_cons.1 hgroup with rfl | hgroup
    · exact Nat.le_refl _
    · exact hst hs group hgroup
  · intro _ _ s c cs _ _ hs group hgroup
    exact Nat.le_succ_of_le (hs group hgroup)

theorem groups_le_of_matchHere? {p : Pattern} {text : List Char} {m : Match}
    (h : p.matchHere? text 0 = some m) : ∀ group ∈ m.groups, group.2.2 ≤ m.stop := by
  obtain ⟨t, ht, rfl⟩ := exists_run_of_matchHere? h
  exact settled_of_mem_runs ht (by simp [Cursor.Settled])

end Pattern

theorem slice_append_left {a : List Char} (b : List Char) (start : Nat) {stop : Nat}
    (h : stop ≤ a.length) : slice (a ++ b) start stop = slice a start stop := by
  rw [slice, slice, List.take_append_of_le_length h]

/-- What a match in the first part of a text captures is the same in the part alone. -/
theorem captures_append {p : Pattern} {a : List Char} {m : Match}
    (h : p.matchHere? a 0 = some m) (b : List Char) :
    m.captures (a ++ b) = m.captures a := by
  have hin := Pattern.matchHere?_inside h
  have hstop : m.stop ≤ a.length := by omega
  funext index
  by_cases hi : index = 0
  · simp [Match.captures, hi, slice_append_left b m.start hstop]
  · simp only [Match.captures, hi, if_false]
    refine Option.map_congr fun span hspan => ?_
    obtain ⟨before, after, hgroups, -⟩ := List.lookup_eq_some_iff.1 hspan
    have hle := Pattern.groups_le_of_matchHere? h (index, span) (by simp [hgroups])
    exact slice_append_left b span.1 (Nat.le_trans hle hstop)

end ApiCatalog
