import ApiCatalog.Catalog.Basic
import ApiCatalog.Catalog.Dossier

/-!
# Compiling a catalog

A compiler has valid settings. It leaves out endpoints that no mask selects or that a tag hides,
and documents the others one by one. What becomes of an endpoint depends on that endpoint alone:
one that cannot be documented is recorded and does not disturb the others.
-/

namespace ApiCatalog

/-- Valid settings, with their masks read. -/
structure Compiler where
  settings : Settings
  masks : List Mask

namespace Compiler

/-- The compiler with the given settings, if they are valid. -/
def ofSettings (settings : Settings) : Except SettingsError Compiler :=
  settings.readMasks.map (Compiler.mk settings)

/-- An address without the slashes at its start. -/
def bareUri (uri : String) : String := String.ofList (uri.toList.dropWhile (· == '/'))

/-- Whether some mask selects the endpoint, by its address, its bare address or its name. -/
def selects (compiler : Compiler) (endpoint : Endpoint) : Bool :=
  compiler.masks.any fun mask =>
    mask.fits endpoint.uri || mask.fits (bareUri endpoint.uri)
      || endpoint.name.any fun name => mask.fits name

/-- Whether a comment on the handler method hides the endpoint. -/
def hides (compiler : Compiler) (endpoint : Endpoint) : Bool :=
  endpoint.handler.method?.any fun method =>
    method.comments.any fun comment => comment.hasTag compiler.settings.hideTag

/-- Why the endpoint is left out, if it is. -/
def omission? (compiler : Compiler) (endpoint : Endpoint) : Option Omission :=
  if !compiler.selects endpoint then some .unselected
  else if compiler.hides endpoint then some .hidden
  else none

/-- Documents one endpoint, whether it is selected or not. -/
def document (compiler : Compiler) (provider : RuleProvider) (endpoint : Endpoint) :
    Except Fault Entry := do
  let dossier ← Dossier.ofEndpoint compiler.settings endpoint
  dossier.entry provider

/-- What becomes of one endpoint. -/
def outcome (compiler : Compiler) (provider : RuleProvider) (endpoint : Endpoint) : Outcome :=
  match compiler.omission? endpoint with
  | some reason => .omitted reason
  | none =>
    match compiler.document provider endpoint with
    | .ok entry => .documented entry
    | .error fault => .failed ⟨endpoint.label, fault.chain, fault.isSilent⟩

/-- The catalog of a route table, endpoint by endpoint. -/
def compile (compiler : Compiler) (provider : RuleProvider) (endpoints : List Endpoint) : Catalog :=
  endpoints.foldl (fun catalog endpoint => catalog.record (compiler.outcome provider endpoint))
    .empty

end Compiler

end ApiCatalog
