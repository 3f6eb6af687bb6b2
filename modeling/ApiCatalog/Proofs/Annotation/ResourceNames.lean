import ApiCatalog.Annotation.Resource
import ApiCatalog.Proofs.Json.StringArrays
import ApiCatalog.Proofs.Text.Trimming
import ApiCatalog.Proofs.TextSteps

/-!
# What resource tags name

A content in quotes is put between brackets as it is and read as a row of strings; any other content
is written as one string first, which reads back as what it was. So the content is a list of names
or the last step of the pipeline fails (`parse_cases`), and which of the two it is can be told from
the content alone (`parse_names`).
-/

namespace ApiCatalog.Resource

open ApiCatalog.Json

/-- The content of a tag without the blanks around it. -/
def trimmed (content : String) : List Char := Text.trim content.toList

/-- A text begins with a quote and ends with another one. -/
def InQuotes (cs : List Char) : Prop := ∃ inner, cs = '"' :: (inner ++ ['"'])

/-- A text between brackets. -/
def inBrackets (cs : List Char) : List Char := '[' :: (cs ++ [']'])

variable {cs : List Char} {names : List String}

/-! ## Wrapping -/

theorem isDelimited_iff {first last : Char} :
    isDelimited first last cs = true ↔ ∃ inner, cs = first :: (inner ++ [last]) := by
  constructor
  · intro h
    simp only [isDelimited, Bool.and_eq_true, decide_eq_true_eq, beq_iff_eq] at h
    obtain ⟨⟨hlength, hhead⟩, hlast⟩ := h
    match cs with
    | [c] => simp at hlength
    | c :: d :: rest =>
      obtain rfl := Option.some.inj hhead
      rw [List.getLast?_cons_cons, List.getLast?_eq_some_iff] at hlast
      obtain ⟨inner, hinner⟩ := hlast
      exact ⟨inner, by rw [hinner]⟩
  · rintro ⟨inner, rfl⟩
    simp [isDelimited, List.getLast?_cons]

theorem quoted_of_inQuotes (h : InQuotes cs) : quoted cs = cs := by
  rw [quoted, if_pos (isDelimited_iff.2 h)]

theorem quoted_of_not_inQuotes (h : ¬ InQuotes cs) : quoted cs = quote cs := by
  rw [quoted, if_neg fun hdelimited => h (isDelimited_iff.1 hdelimited)]

theorem inQuotes_quoted (cs : List Char) : InQuotes (quoted cs) := by
  by_cases h : InQuotes cs
  · rwa [quoted_of_inQuotes h]
  · rw [quoted_of_not_inQuotes h]
    exact ⟨cs.flatMap escape, rfl⟩

/-- What begins with a quote has no bracket there. -/
theorem bracketed_of_inQuotes (h : InQuotes cs) : bracketed cs = inBrackets cs := by
  rw [bracketed, if_neg, List.cons_append, inBrackets]
  intro hdelimited
  obtain ⟨inner, rfl⟩ := h
  obtain ⟨inner', heq⟩ := isDelimited_iff.1 hdelimited
  simp at heq

/-! ## Decoding -/

/-- The value of a list of names. -/
def namesValue (names : List String) : Value := .array (names.map .string)

theorem filterMap_name? (names : List String) : (names.map .string).filterMap name? = names := by
  rw [List.filterMap_map]
  exact List.filterMap_some

theorem all_name?_iff {items : List Value} :
    (items.all fun item => (name? item).isSome) = true ↔
      ∃ names : List String, items = names.map .string := by
  constructor
  · intro h
    induction items with
    | nil => exact ⟨[], rfl⟩
    | cons item items ih =>
      rw [List.all_cons, Bool.and_eq_true] at h
      obtain ⟨names, rfl⟩ := ih h.2
      cases item with
      | string name => exact ⟨name :: names, rfl⟩
      | _ => simp [name?] at h
  · rintro ⟨names, rfl⟩
    simp [name?]

/-- The last step makes lists of names of the texts of arrays of strings, and nothing of other
texts. -/
theorem decodeNames_eq_some_iff {draft : Draft} :
    decodeNames (.text (String.ofList cs)) = some draft ↔
      ∃ names, IsArrayText names cs ∧ draft = .value (namesValue names) := by
  constructor
  · intro h
    unfold decodeNames at h
    split at h
    · next items hdecoding =>
      split at h
      · next hall =>
        obtain ⟨names, rfl⟩ := all_name?_iff.1 hall
        obtain rfl := Option.some.inj h
        refine ⟨names, read?_eq_array_iff.1 ?_, rfl⟩
        simp only [Step.decoding, Draft.text?, Option.bind_eq_bind, Option.bind_some,
          String.toList_ofList, Option.bind_eq_some_iff] at hdecoding
        obtain ⟨v, hread, hv⟩ := hdecoding
        split at hv <;> cases hv
        exact hread
      · cases h
    · cases h
  · rintro ⟨names, hnames, rfl⟩
    have hdecoding : Step.decoding (.text (String.ofList cs)) =
        some (.value (.array (names.map .string))) := by
      simp [Step.decoding, Draft.text?, read?_eq_array_iff.2 hnames, Value.isNull]
    unfold decodeNames
    simp only [hdecoding, all_name?_iff.2 ⟨names, rfl⟩, if_true, namesValue]

/-- In a text of an array without items no quote is written. -/
theorem notMem_of_isArrayText_nil (h : IsArrayText [] cs) : '"' ∉ cs := by
  generalize hnames : ([] : List String) = names at h
  cases h with
  | row before after items hne => exact absurd (List.map_eq_nil_iff.1 hnames.symm) hne
  | empty before inside after hbefore hinside hafter =>
    have hquote : ∀ gap : List Char, (∀ c ∈ gap, isSeparator c = true) → '"' ∉ gap :=
      fun gap hgap hmem => absurd (hgap _ hmem) (by decide)
    simp [hquote _ hbefore, hquote _ hinside, hquote _ hafter]

/-- A row in brackets names something. -/
theorem ne_nil_of_isArrayText (hcs : InQuotes cs) (h : IsArrayText names (inBrackets cs)) :
    names ≠ [] := by
  rintro rfl
  obtain ⟨inner, rfl⟩ := hcs
  exact notMem_of_isArrayText_nil h (by simp [inBrackets])

/-! ## The parser -/

/-- The fault of a content in which no list of names can be read. -/
def decodeFault : Fault := fault (.pipeline (.failedStep "resource" "decode"))

/-- The steps before the last by name. -/
def wrappings : List (String × (List Char → List Char)) :=
  [("wrapInQuotes", quoted), ("wrapInArrayBrackets", bracketed)]

theorem wrapping_ne_nil {wrapping : String × (List Char → List Char)} (h : wrapping ∈ wrappings)
    {text : List Char} (ht : text ≠ []) : wrapping.2 text ≠ [] := by
  simp only [wrappings, List.mem_cons, List.not_mem_nil, or_false] at h
  obtain rfl | rfl := h
  · obtain ⟨inner, hinner⟩ := inQuotes_quoted text
    show quoted text ≠ []
    rw [hinner]
    exact List.cons_ne_nil _ _
  · show bracketed text ≠ []
    unfold bracketed
    split
    · exact ht
    · simp

/-- A run on a text: the text in quotes and brackets is decoded. -/
theorem run_eq (h : cs ≠ []) :
    pipeline.run (String.ofList cs) =
      match decodeNames (.text (String.ofList (inBrackets (quoted cs)))) with
      | none => .error (.failedStep "resource" "decode")
      | some draft => .ok draft := by
  have hsteps : steps = (wrappings.map fun wrapping => (wrapping.1, Step.onText wrapping.2)) ++
      [("decode", decodeNames)] := rfl
  have hwrapped : wrappings.foldl (fun t wrapping => wrapping.2 t) cs = inBrackets (quoted cs) :=
    bracketed_of_inQuotes (inQuotes_quoted cs)
  have hrun : pipeline.run (String.ofList cs) =
      Pipeline.runSteps "resource" steps (.text (String.ofList cs)) := rfl
  rw [hrun, hsteps, Pipeline.runSteps_onText (fun _ hw _ ht => wrapping_ne_nil hw ht) _ h, hwrapped,
    Pipeline.runSteps]
  cases decodeNames (.text (String.ofList (inBrackets (quoted cs)))) with
  | none => rfl
  | some draft => simp [Pipeline.runSteps]

theorem parse_of_blank {content : String} (h : trimmed content = []) :
    parse content = .error (fault .noResourceName) := by
  rw [trimmed] at h
  simp [parse, h]

/-- A content that is more than blanks names what the text in quotes and brackets is an array of;
if it is none, the last step fails. -/
theorem parse_cases {content : String} (h : trimmed content ≠ []) :
    (∃ names, IsArrayText names (inBrackets (quoted (trimmed content))) ∧
      pipeline.run (String.ofList (trimmed content)) = .ok (.value (namesValue names)) ∧
      parse content = .ok names) ∨
    (∀ names, ¬ IsArrayText names (inBrackets (quoted (trimmed content)))) ∧
      pipeline.run (String.ofList (trimmed content)) = .error (.failedStep "resource" "decode") ∧
      parse content = .error decodeFault := by
  have hrun := run_eq h
  have hblank : ¬ (Text.trim content.toList).isEmpty = true := by simpa [trimmed] using h
  cases hdecode : decodeNames (.text (String.ofList (inBrackets (quoted (trimmed content))))) with
  | none =>
    rw [hdecode] at hrun
    refine .inr ⟨fun names hnames => ?_, hrun, ?_⟩
    · rw [decodeNames_eq_some_iff.2 ⟨names, hnames, rfl⟩] at hdecode
      cases hdecode
    · rw [trimmed] at hrun
      rw [parse, if_neg hblank, hrun]
      rfl
  | some draft =>
    rw [hdecode] at hrun
    obtain ⟨names, hnames, rfl⟩ := decodeNames_eq_some_iff.1 hdecode
    refine .inl ⟨names, hnames, hrun, ?_⟩
    rw [trimmed] at hrun
    rw [parse, if_neg hblank, hrun]
    exact congrArg Except.ok (filterMap_name? names)

/-- A text is that of at most one array of strings. -/
theorem isArrayText_unique {names names' : List String} (h : IsArrayText names cs)
    (h' : IsArrayText names' cs) : names = names' := by
  have heq := (read?_eq_array_iff.2 h).symm.trans (read?_eq_array_iff.2 h')
  have hvalues : names.map Value.string = names'.map Value.string := by simpa using heq
  rw [← filterMap_name? names, hvalues, filterMap_name?]

theorem parse_eq_ok_iff {content : String} (h : trimmed content ≠ []) :
    parse content = .ok names ↔ IsArrayText names (inBrackets (quoted (trimmed content))) := by
  obtain ⟨names', hnames', -, hparse⟩ | ⟨hnone, -, hparse⟩ := parse_cases h
  · rw [hparse, Except.ok.injEq]
    constructor
    · rintro rfl
      exact hnames'
    · exact isArrayText_unique hnames'
  · rw [hparse]
    constructor
    · intro heq
      cases heq
    · exact fun hnames => absurd hnames (hnone names)

/-- A string that is written is a row of its own. -/
theorem isArrayText_quote (cs : List Char) :
    IsArrayText [String.ofList cs] (inBrackets (quote cs)) := by
  obtain ⟨gs, htext, hchars, -⟩ := exists_glyphs cs
  have hrow := IsArrayText.row [] [] [⟨[], gs, [], by simp, by simp⟩] (by simp) (by simp) (by simp)
  simpa [rowText, RowItem.text, RowItem.string, quoteGlyphs, htext, hchars, quote, inBrackets]
    using hrow

/-- What separates tokens is blank. -/
theorem isBlank_of_isSeparator {c : Char} (h : isSeparator c = true) : Text.isBlank c = true := by
  simp only [isSeparator, Bool.or_eq_true, decide_eq_true_eq] at h
  rcases h with ((rfl | rfl) | rfl) | rfl <;> decide

/-- A row of literals, with any separators around them, is read as their strings. -/
theorem parse_rowText {items : List RowItem} (h : items ≠ []) :
    parse (String.ofList (rowText items)) = .ok (items.map RowItem.string) := by
  obtain ⟨before, inner, after, htext, hbefore, hafter, hitems⟩ := exists_rowText_inner h
  have hblank : ∀ {gap : List Char}, (∀ c ∈ gap, isSeparator c = true) →
      ∀ c ∈ gap, Text.isBlank c = true := fun hgap c hc => isBlank_of_isSeparator (hgap c hc)
  have hbounded : Text.Bounded ('"' :: (inner ++ ['"'])) :=
    ⟨⟨'"', _, rfl, by decide⟩, '"' :: inner, '"', rfl, by decide⟩
  have htrimmed : trimmed (String.ofList (rowText items)) = '"' :: (inner ++ ['"']) := by
    rw [trimmed, String.toList_ofList, htext]
    exact Text.trim_blanks_bounded (hblank hbefore) hbounded (hblank hafter)
  rw [parse_eq_ok_iff (by simp [htrimmed]), htrimmed, quoted_of_inQuotes ⟨inner, rfl⟩]
  exact hitems

/-- The two refusals read differently. -/
theorem message_eq_iff (content : String) :
    (∃ fault, parse content = .error fault ∧
      fault.message = "invalid @resource tag: resource name not specified") ↔
        trimmed content = [] := by
  constructor
  · rintro ⟨f, hparse, hmessage⟩
    by_contra h
    obtain ⟨names, -, -, hnames⟩ | ⟨-, -, hfault⟩ := parse_cases h
    · rw [hnames] at hparse
      cases hparse
    · rw [hfault] at hparse
      obtain rfl := Except.error.inj hparse
      exact absurd hmessage (by decide)
  · intro h
    exact ⟨_, parse_of_blank h, by decide⟩

theorem parse_phrase {content : String} (h : trimmed content ≠ [])
    (hquotes : ¬ InQuotes (trimmed content)) :
    parse content = .ok [String.ofList (trimmed content)] := by
  rw [parse_eq_ok_iff h, quoted_of_not_inQuotes hquotes]
  exact isArrayText_quote (trimmed content)

theorem trimmed_ne_nil {content : String} (h : InQuotes (trimmed content)) :
    trimmed content ≠ [] := by
  obtain ⟨inner, heq⟩ := h
  simp [heq]

/-- Nothing is lost between the pipeline and the names. -/
theorem parse_of_run {content : String} {draft : Draft} (h : trimmed content ≠ [])
    (hrun : pipeline.run (String.ofList (trimmed content)) = .ok draft) :
    ∃ names, names ≠ [] ∧ draft = .value (namesValue names) ∧ parse content = .ok names := by
  obtain ⟨names, hnames, hrun', hparse⟩ | ⟨-, hrun', -⟩ := parse_cases h
  · rw [hrun'] at hrun
    obtain rfl := Except.ok.inj hrun
    exact ⟨names, ne_nil_of_isArrayText (inQuotes_quoted _) hnames, rfl, hparse⟩
  · rw [hrun'] at hrun
    cases hrun

/-- A list of names has a name, and what is decoded is a list of names. -/
theorem parse_ne (content : String) :
    parse content ≠ .ok [] ∧ parse content ≠ .error (fault .notAList) := by
  by_cases h : trimmed content = []
  · rw [parse_of_blank h]
    exact ⟨by simp, by decide⟩
  · obtain ⟨names, hnames, -, hparse⟩ | ⟨-, -, hparse⟩ := parse_cases h
    · rw [hparse]
      have hne := ne_nil_of_isArrayText (inQuotes_quoted _) hnames
      exact ⟨by simpa using hne, by simp⟩
    · rw [hparse]
      exact ⟨by simp, by decide⟩

/-- A content is refused if it is blank, is one name if it does not stand in quotes, and is else
read as a row of strings, of which none is lost, or refused if it is no such row. So all rows are
read, whatever the literals of their strings and the separators around these. -/
theorem parse_names :
    (∀ content : String,
      ((∃ fault, parse content = .error fault ∧
          fault.message = "invalid @resource tag: resource name not specified") ↔
        trimmed content = []) ∧
      (trimmed content ≠ [] → ¬ InQuotes (trimmed content) →
        parse content = .ok [String.ofList (trimmed content)]) ∧
      (InQuotes (trimmed content) →
        (∀ names, parse content = .ok names ↔ IsArrayText names (inBrackets (trimmed content))) ∧
        ((∀ names, ¬ IsArrayText names (inBrackets (trimmed content))) →
          ∃ fault, parse content = .error fault ∧ fault.message =
            "invalid @resource tag: format is invalid, pipeline `resource` failed at step `decode`")) ∧
      (∀ draft, trimmed content ≠ [] →
        pipeline.run (String.ofList (trimmed content)) = .ok draft →
          ∃ names, names ≠ [] ∧ draft = .value (namesValue names) ∧ parse content = .ok names) ∧
      parse content ≠ .ok [] ∧ parse content ≠ .error (fault .notAList)) ∧
    ∀ names ≠ [], (∃ items : List RowItem, items.map RowItem.string = names) ∧
      ∀ items : List RowItem, items.map RowItem.string = names →
        parse (String.ofList (rowText items)) = .ok names := by
  refine ⟨fun content => ⟨message_eq_iff content, parse_phrase, fun hquotes => ⟨fun names => ?_,
    fun hnone => ?_⟩, fun _ => parse_of_run, parse_ne content⟩, fun names hnames =>
      ⟨exists_row names, ?_⟩⟩
  · rw [parse_eq_ok_iff (trimmed_ne_nil hquotes), quoted_of_inQuotes hquotes]
  · obtain ⟨names, hnames, -⟩ | ⟨-, -, hparse⟩ := parse_cases (trimmed_ne_nil hquotes)
    · rw [quoted_of_inQuotes hquotes] at hnames
      exact absurd hnames (hnone names)
    · exact ⟨_, hparse, by decide⟩
  · rintro items rfl
    exact parse_rowText fun hnil => hnames (by rw [hnil, List.map_nil])

/-- Two names, with a unit in the first, a quote in the second and separators of several kinds. -/
def escapedRow : List RowItem :=
  [⟨"\n ".toList, [.plain 'A' (by decide) (by decide) (by decide),
      .unit ⟨"0042".toList, 66, by decide⟩ (by decide)], "\r\n".toList,
      List.all_eq_true.1 (by decide), List.all_eq_true.1 (by decide)⟩,
    ⟨"\t".toList, [.named '"' '"' (by decide)], " ".toList,
      List.all_eq_true.1 (by decide), List.all_eq_true.1 (by decide)⟩]

/-- A content that is one name. -/
def phrase : String := " The \"best\" one\n"

/-- A content in quotes that is no row of strings. -/
def torn : String := "\"A\", B\""

theorem parse_names_escapedRow :
    trimmed phrase ≠ [] ∧ ¬ InQuotes (trimmed phrase) ∧ parse phrase = .ok ["The \"best\" one"] ∧
      (∃ draft, pipeline.run (String.ofList (trimmed phrase)) = .ok draft ∧
        ∃ names, names ≠ [] ∧ draft = .value (namesValue names) ∧ parse phrase = .ok names) ∧
      InQuotes (trimmed torn) ∧ (∀ names, ¬ IsArrayText names (inBrackets (trimmed torn))) ∧
      (∃ fault, parse torn = .error fault) ∧
      String.ofList (rowText escapedRow) = "\n \"A\\u0042\"\r\n,\t\"\\\"\" " ∧
      parse (String.ofList (rowText escapedRow)) = .ok ["AB", "\""] := by
  have htrimmed : trimmed phrase = "The \"best\" one".toList := by decide
  have hphrase : trimmed phrase ≠ [] := by simp [htrimmed]
  have hplain : ¬ InQuotes (trimmed phrase) := fun h => absurd (isDelimited_iff.2 h) (by decide)
  have hquotes : InQuotes (trimmed torn) := isDelimited_iff.1 (by decide)
  have hrun : pipeline.run (String.ofList (trimmed phrase)) =
      .ok (.value (namesValue [String.ofList (trimmed phrase)])) := by
    rw [run_eq hphrase, quoted_of_not_inQuotes hplain,
      decodeNames_eq_some_iff.2 ⟨_, isArrayText_quote _, rfl⟩]
  have hnone : ∀ names, ¬ IsArrayText names (inBrackets (trimmed torn)) := by
    intro names hnames
    have hread : Value.read? (inBrackets (trimmed torn)) = none := by rfl
    rw [read?_eq_array_iff.2 hnames] at hread
    cases hread
  obtain ⟨-, hok, -, hdraft, -⟩ := parse_names.1 phrase
  obtain ⟨fault, hfault, -⟩ := ((parse_names.1 torn).2.2.1 hquotes).2 hnone
  have hone := hok hphrase hplain
  rw [htrimmed, String.ofList_toList] at hone
  exact ⟨hphrase, hplain, hone, ⟨_, hrun, hdraft _ hphrase hrun⟩, hquotes, hnone, ⟨fault, hfault⟩,
    by decide, (parse_names.2 ["AB", "\""] (by simp)).2 escapedRow (by decide)⟩

end ApiCatalog.Resource
