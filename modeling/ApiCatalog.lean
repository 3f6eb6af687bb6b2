import ApiCatalog.Catalog.Compiler
import ApiCatalog.Comment.Reader
import ApiCatalog.Endpoint.Manifest
import ApiCatalog.Pattern.Template
import ApiCatalog.Text.DecimalDigit
import ApiCatalog.Proofs.Response.Preservation
import ApiCatalog.Proofs.Response.StringLiterals
import ApiCatalog.Proofs.Response.TypedObjects
import ApiCatalog.Proofs.Catalog.Accounting
import ApiCatalog.Proofs.Catalog.Identity
import ApiCatalog.Proofs.Comment.Styles
import ApiCatalog.Proofs.Response.Segmentwise
import ApiCatalog.Proofs.Comment.Writer
import ApiCatalog.Proofs.Catalog.Evidence
import ApiCatalog.Proofs.Catalog.Grouping
import ApiCatalog.Proofs.Response.Outcomes
import ApiCatalog.Proofs.Response.Bracketed
import ApiCatalog.Proofs.Endpoint.Placeholders
import ApiCatalog.Proofs.Annotation.NoteTables
import ApiCatalog.Proofs.Text.Words
import ApiCatalog.Proofs.Annotation.NoteGrammar
import ApiCatalog.Proofs.Catalog.PathParameters
import ApiCatalog.Proofs.OrderedMap
import ApiCatalog.Proofs.Endpoint.Rules
import ApiCatalog.Proofs.Json.Spelling
import ApiCatalog.Proofs.Json.StringArrays
import ApiCatalog.Proofs.Annotation.ResourceNames
import ApiCatalog.Proofs.Catalog.QueryParameters
import ApiCatalog.Proofs.Comment.Conservation
import ApiCatalog.Proofs.Text.Case
import ApiCatalog.Proofs.Title.OnePass
import ApiCatalog.Proofs.Title.CamelCase
import ApiCatalog.Proofs.Title.JoinedWords
import ApiCatalog.Proofs.Title.Conservation
import ApiCatalog.Proofs.Pipeline
import ApiCatalog.Proofs.Quoting.Regions
import ApiCatalog.Proofs.Json.Written
import ApiCatalog.Proofs.Endpoint.Manifests
import ApiCatalog.Proofs.Quoting.Bounds
