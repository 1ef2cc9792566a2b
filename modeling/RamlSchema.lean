import RamlSchema.Conversion.SingleFile
import RamlSchema.Main
import RamlSchema.Proofs.Raml.Layout
import RamlSchema.Proofs.Raml.Sections
import RamlSchema.Proofs.References.Cache
import RamlSchema.Proofs.References.Graph
import RamlSchema.Proofs.Files.Tree
import RamlSchema.Proofs.Files.Change
import RamlSchema.Proofs.Conversion.Written
import RamlSchema.Proofs.Conversion.Completed
import RamlSchema.Proofs.Naming
import RamlSchema.Proofs.Conversion.Places
import RamlSchema.Proofs.Conversion.KeptTypes
import RamlSchema.Proofs.Raml.Sites
import RamlSchema.Proofs.Conversion.LiftedEnums
import RamlSchema.Proofs.Raml.TypeFacets
import RamlSchema.Proofs.Conversion.LocalReferences
import RamlSchema.Proofs.Naming.Marks
import RamlSchema.Proofs.Naming.TypeNames
import RamlSchema.Proofs.Raml.Includes
import RamlSchema.Proofs.Conversion.IncludeNames
import RamlSchema.Proofs.Json.Printed
import RamlSchema.Proofs.Json.RoundTrip
import RamlSchema.Proofs.Schema.Plain
import RamlSchema.Proofs.Conversion.Validation
import RamlSchema.Proofs.Files.Outcomes
import RamlSchema.Proofs.Conversion.AllOrNothing
import RamlSchema.Proofs.Conversion.Confinement
import RamlSchema.Proofs.Raml.Objects
import RamlSchema.Proofs.Schema.ClosedObjects
import RamlSchema.Proofs.Raml.Reformatting
import RamlSchema.Proofs.Raml.Composition
import RamlSchema.Proofs.Raml.Formats
import RamlSchema.Proofs.Text.Utf8
import RamlSchema.Proofs.Files.Without
import RamlSchema.Proofs.Conversion.Discovery
import RamlSchema.Proofs.Conversion.FailingFiles
import RamlSchema.Proofs.Conversion.Registry
import RamlSchema.Proofs.Conversion.Accounts
import RamlSchema.Proofs.References.Paths
import RamlSchema.Proofs.Files.Stable
import RamlSchema.Proofs.References.Load
import RamlSchema.Proofs.Conversion.OutputListing
import RamlSchema.Proofs.Conversion.ResolvedOutput
import RamlSchema.Proofs.Text.Base64
import RamlSchema.Proofs.References.Identifiers
import RamlSchema.Proofs.References.Repetition
import RamlSchema.Proofs.References.Monotone
import RamlSchema.Proofs.Raml.DistinctNames
import RamlSchema.Proofs.Naming.Normal
import RamlSchema.Proofs.Raml.EnumValues
import RamlSchema.Proofs.Schema.TypeKeywords
import RamlSchema.Proofs.Conversion.ErrorMode
import RamlSchema.Proofs.Raml.FacetOrder
import RamlSchema.Proofs.Raml.OptionalTokens
import RamlSchema.Proofs.Raml.TypeOrReference
import RamlSchema.Proofs.Conversion.SingleDocument
import RamlSchema.Proofs.Raml.Locality
import RamlSchema.Proofs.Raml.Separators
import RamlSchema.Proofs.Conversion.EmittedReferences
import RamlSchema.Proofs.References.BaseNames
