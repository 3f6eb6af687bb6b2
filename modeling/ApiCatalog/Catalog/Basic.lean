import ApiCatalog.Catalog.Entry
import ApiCatalog.Fault

/-!
# Catalogs

A catalog groups the entries of endpoints into sections by resource, in order of the sections'
names. It also lists the endpoints that could not be documented and counts those that were left
out.
-/

namespace ApiCatalog

/-- Why an endpoint is left out. -/
inductive Omission where
  /-- No mask selects it. -/
  | unselected
  /-- A comment hides it. -/
  | hidden
deriving Repr, DecidableEq

/-- The name of the reason. -/
def Omission.name : Omission → String
  | .unselected => "masked"
  | .hidden => "hidden"

/-- An endpoint that could not be documented. -/
structure Failure where
  endpoint : String
  /-- The wording of the fault and its causes. -/
  error : String
  /-- Whether no warning is due. -/
  silent : Bool
deriving Repr, DecidableEq

/-- What becomes of an endpoint. -/
inductive Outcome where
  | omitted (reason : Omission)
  | failed (failure : Failure)
  | documented (entry : Entry)
deriving Repr, DecidableEq

/-- The entries of one resource. -/
structure Section where
  name : String
  entries : List Entry
deriving Repr, DecidableEq

/-- The documentation of a route table. -/
structure Catalog where
  /-- The sections in order of their names. -/
  sections : List Section
  failures : List Failure
  /-- How many endpoints were left out. -/
  omitted : Nat
deriving Repr, DecidableEq

namespace Outcome

/-- The entry of a documented endpoint. -/
def entry? : Outcome → Option Entry
  | .documented entry => some entry
  | _ => none

/-- The failure of an endpoint that could not be documented. -/
def failure? : Outcome → Option Failure
  | .failed failure => some failure
  | _ => none

/-- Whether the endpoint was left out. -/
def isOmitted : Outcome → Bool
  | .omitted _ => true
  | _ => false

end Outcome

/-! ## Sections -/

/-- Puts an entry into its section, which is made at its place in the order if it is missing. -/
def insertEntry (entry : Entry) : List Section → List Section
  | [] => [⟨entry.sectionName, [entry]⟩]
  | s :: rest =>
    if entry.sectionName < s.name then ⟨entry.sectionName, [entry]⟩ :: s :: rest
    else if entry.sectionName = s.name then ⟨s.name, s.entries ++ [entry]⟩ :: rest
    else s :: insertEntry entry rest

/-- The entries in sections, in order of the names; within a section the order stays. -/
def sectionsOf (entries : List Entry) : List Section :=
  entries.foldl (fun sections entry => insertEntry entry sections) []

namespace Catalog

/-- All entries, section by section. -/
def entries (catalog : Catalog) : List Entry := catalog.sections.flatMap Section.entries

/-- The failures that deserve a warning. -/
def warnings (catalog : Catalog) : List Failure := catalog.failures.filter (!·.silent)

/-- The catalog of no endpoints. -/
def empty : Catalog := ⟨[], [], 0⟩

/-- The catalog with what became of one more endpoint. -/
def record (catalog : Catalog) : Outcome → Catalog
  | .omitted _ => { catalog with omitted := catalog.omitted + 1 }
  | .failed failure => { catalog with failures := catalog.failures ++ [failure] }
  | .documented entry => { catalog with sections := insertEntry entry catalog.sections }

end Catalog

/-! ## As JSON -/

/-- The section as a JSON object. -/
def Section.toJson (s : Section) : Json.Value :=
  .object [("name", .string s.name), ("routes", .array (s.entries.map Entry.toJson))]

/-- The failure as a JSON object. -/
def Failure.toJson (failure : Failure) : Json.Value :=
  .object [("endpoint", .string failure.endpoint), ("error", .string failure.error),
    ("silent", .bool failure.silent)]

/-- The catalog as a JSON object. -/
def Catalog.toJson (catalog : Catalog) : Json.Value :=
  .object [("groups", .array (catalog.sections.map Section.toJson)),
    ("failures", .array (catalog.failures.map Failure.toJson)),
    ("skipped", .number (.integer catalog.omitted))]

end ApiCatalog
