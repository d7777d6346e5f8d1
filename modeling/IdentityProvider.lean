import IdentityProvider.Address
import IdentityProvider.Catalog
import IdentityProvider.Catalog.Bundle
import IdentityProvider.CommandLine
import IdentityProvider.Config
import IdentityProvider.Config.Decoding
import IdentityProvider.Config.Loading
import IdentityProvider.Dispatch
import IdentityProvider.Endpoint
import IdentityProvider.Environment
import IdentityProvider.Failure
import IdentityProvider.Files
import IdentityProvider.Forms.Client
import IdentityProvider.Forms.Grant
import IdentityProvider.Forms.Profile
import IdentityProvider.Forms.Search
import IdentityProvider.Http.MediaType
import IdentityProvider.Http.Request
import IdentityProvider.Http.Response
import IdentityProvider.Http.Target
import IdentityProvider.Intake
import IdentityProvider.Json.Decoder
import IdentityProvider.Json.Numeral
import IdentityProvider.Json.Token
import IdentityProvider.Json.Value
import IdentityProvider.Log.Event
import IdentityProvider.Log.Filter
import IdentityProvider.Log.Line
import IdentityProvider.Main
import IdentityProvider.Placeholder
import IdentityProvider.Placeholder.Expansion
import IdentityProvider.Query.Shape
import IdentityProvider.Routing.Layer
import IdentityProvider.Routing.Pattern
import IdentityProvider.Routing.Router
import IdentityProvider.Server
import IdentityProvider.Surface
import IdentityProvider.Text.Blank
import IdentityProvider.Text.Digits
import IdentityProvider.Text.Hidden
import IdentityProvider.Text.Percent
import IdentityProvider.Text.Utf8
import IdentityProvider.Text.Word
import IdentityProvider.Toml.Document
import IdentityProvider.Toml.Moment
import IdentityProvider.Toml.Quoted
import IdentityProvider.Toml.Scalar
import IdentityProvider.Toml.Statement
import IdentityProvider.Url
import IdentityProvider.Url.Host
import IdentityProvider.Url.Punycode
import IdentityProvider.Validation
import IdentityProvider.Wire
import IdentityProvider.Wire.Reading
import IdentityProvider.Proofs.Placeholder.Grammar
import IdentityProvider.Proofs.Placeholder.Cut
import IdentityProvider.Proofs.Placeholder.Meaning
import IdentityProvider.Proofs.Dispatch.Tables
import IdentityProvider.Proofs.Server.Settlement
import IdentityProvider.Proofs.Routing.Alike
import IdentityProvider.Proofs.Routing.Table
import IdentityProvider.Proofs.Server.Confidentiality
import IdentityProvider.Proofs.Surface.RuleOrder
import IdentityProvider.Proofs.Json.Lexing
import IdentityProvider.Proofs.Json.Writing
import IdentityProvider.Proofs.Json.Judging
import IdentityProvider.Proofs.Json.Members
import IdentityProvider.Proofs.Wire.Shapes
import IdentityProvider.Proofs.Wire.RoundTrip
import IdentityProvider.Proofs.Routing.Layout
import IdentityProvider.Proofs.Server.Mounting
import IdentityProvider.Proofs.Routing.LiteralStart
import IdentityProvider.Proofs.Server.RouteSurface
import IdentityProvider.Proofs.Config.Loading
import IdentityProvider.Proofs.Toml.Keys
import IdentityProvider.Proofs.Catalog.Overlays
import IdentityProvider.Proofs.Server.Startup
import IdentityProvider.Proofs.Intake.Admission
import IdentityProvider.Proofs.Dispatch.Agreement
import IdentityProvider.Proofs.Placeholder.Dependence
import IdentityProvider.Proofs.Routing.Literal
import IdentityProvider.Proofs.Server.Health
import IdentityProvider.Proofs.Toml.Front
import IdentityProvider.Proofs.Toml.ReadOff
import IdentityProvider.Proofs.Toml.Varying
import IdentityProvider.Proofs.Toml.Place
import IdentityProvider.Proofs.Config.Settings
import IdentityProvider.Proofs.Config.Insertion
import IdentityProvider.Proofs.Log.Extent
import IdentityProvider.Proofs.Intake.MissingMark
import IdentityProvider.Proofs.Intake.QueryFaults
import IdentityProvider.Proofs.Text.ByteOrder
import IdentityProvider.Proofs.Intake.Refusal
import IdentityProvider.Proofs.Placeholder.Scan
import IdentityProvider.Proofs.Surface.Standard
import IdentityProvider.Proofs.Log.Details
import IdentityProvider.Proofs.Log.LineBreaks
import IdentityProvider.Proofs.Config.Tables
import IdentityProvider.Proofs.Intake.NestedChecks
import IdentityProvider.Proofs.Config.Defaults
import IdentityProvider.Proofs.Config.Strictness
import IdentityProvider.Proofs.Toml.Pieces
import IdentityProvider.Proofs.Config.Comments
import IdentityProvider.Proofs.Text.Ascii
import IdentityProvider.Proofs.Dispatch.QuotedToken
import IdentityProvider.Proofs.CommandLine.Layout
import IdentityProvider.Proofs.CommandLine.Sources
import IdentityProvider.Proofs.Server.ShownText
