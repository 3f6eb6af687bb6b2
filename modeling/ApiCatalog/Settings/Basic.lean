import ApiCatalog.Json.Record
import ApiCatalog.Settings.Mask
import ApiCatalog.Text.Blank

/-!
# Settings

Which endpoints are documented, and how. Settings are read from a JSON file, in which every field
may be left out, and are valid if there is a mask, the hiding tag has a name, and all masks can be
read.
-/

namespace ApiCatalog

/-- What a catalog is compiled by. -/
structure Settings where
  /-- Masks of the addresses and route names to be documented. -/
  masks : List String := ["*"]
  /-- Whether an endpoint fails if a placeholder is bound to an untyped parameter. -/
  typeChecks : Bool := true
  /-- The name of the tag that hides an endpoint. -/
  hideTag : String := "docsHide"
  /-- The resource of endpoints that name none. -/
  fallbackResource : String := "Unclassified routes"
deriving Repr, DecidableEq, Inhabited

/-- What is wrong with settings or their file. -/
inductive SettingsError where
  /-- The file cannot be read as text. -/
  | unreadable (path : String)
  /-- The text does not have the form of settings. -/
  | unparsable (path : String)
  | noMasks
  | blankHideTag
  | badMask (mask : String) (error : MaskError)
deriving Repr, DecidableEq

/-- The wording of the error, with its causes. -/
def SettingsError.message : SettingsError → String
  | .unreadable path => "failed to read config: " ++ path
  | .unparsable path => "failed to parse config: " ++ path
  | .noMasks => "at least one route mask is required"
  | .blankHideTag => "hide_tag must not be empty"
  | .badMask mask error => "invalid route mask: " ++ mask ++ ": " ++ error.message

namespace Settings

/-! ## Validation -/

/-- Reads one mask. -/
def readMask (mask : String) : Except SettingsError Mask :=
  match Mask.ofString mask with
  | .ok tokens => .ok tokens
  | .error error => .error (.badMask mask error)

/-- The masks of valid settings; the first error of others. -/
def readMasks (settings : Settings) : Except SettingsError (List Mask) :=
  if settings.masks.isEmpty then .error .noMasks
  else if (Text.trim settings.hideTag.toList).isEmpty then .error .blankHideTag
  else settings.masks.mapM readMask

/-! ## Files -/

/-- The fields in their declared order. -/
def fieldNames : List String := ["masks", "type_checks", "hide_tag", "fallback_resource"]

/-- Reads settings from a document. -/
def ofDocument? (d : Json.Document) : Option Settings := do
  let record ← Json.Record.read? fieldNames d
  let standard : Settings := {}
  let masks ← record.optional "masks" standard.masks (Json.Reader.list Json.Reader.string)
  let typeChecks ← record.optional "type_checks" standard.typeChecks Json.Reader.bool
  let hideTag ← record.optional "hide_tag" standard.hideTag Json.Reader.string
  let fallbackResource ←
    record.optional "fallback_resource" standard.fallbackResource Json.Reader.string
  pure { masks, typeChecks, hideTag, fallbackResource }

/-- The settings as a JSON object. -/
def toJson (settings : Settings) : Json.Value :=
  .object [("masks", .array (settings.masks.map .string)),
    ("type_checks", .bool settings.typeChecks),
    ("hide_tag", .string settings.hideTag),
    ("fallback_resource", .string settings.fallbackResource)]

/-- Valid settings from the bytes of a file, which are missing if there is no file. -/
def ofFile (path : String) (bytes : Option ByteArray) : Except SettingsError Settings := do
  let some text := bytes.bind String.fromUTF8? | .error (.unreadable path)
  let some settings := (Json.Document.read? text.toList).bind ofDocument?
    | .error (.unparsable path)
  let _ ← settings.readMasks
  pure settings

end Settings

end ApiCatalog
