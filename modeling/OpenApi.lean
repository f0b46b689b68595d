import OpenApi.Component.Catalog
import OpenApi.Component.FlatRecord
import OpenApi.Component.Kind
import OpenApi.Component.Variant
import OpenApi.Config.Reader
import OpenApi.Decimal.Binary64
import OpenApi.Decimal.Shortest
import OpenApi.Decode.Basic
import OpenApi.Decode.Fault
import OpenApi.Document.Basic
import OpenApi.Document.Decode
import OpenApi.Document.Normalize
import OpenApi.Document.Parse
import OpenApi.Encode.Document
import OpenApi.Encode.Model
import OpenApi.Encode.Policy
import OpenApi.Encode.Type
import OpenApi.Error
import OpenApi.Http.Media
import OpenApi.Http.Path
import OpenApi.Http.Status
import OpenApi.Http.Url
import OpenApi.Json.Printer
import OpenApi.Json.Reader
import OpenApi.Json.Value
import OpenApi.Model.Api
import OpenApi.Model.Client
import OpenApi.Model.Enumeration
import OpenApi.Model.Failure
import OpenApi.Model.Handler
import OpenApi.Model.Operation
import OpenApi.Model.Parameter
import OpenApi.Model.Record
import OpenApi.Model.Result
import OpenApi.Model.Tuple
import OpenApi.Model.Union
import OpenApi.Naming
import OpenApi.Policy.Extensions
import OpenApi.Policy.Level
import OpenApi.Policy.Operation
import OpenApi.Policy.Security
import OpenApi.Proofs.Component.Base
import OpenApi.Proofs.Component.Catalog
import OpenApi.Proofs.Component.Composition
import OpenApi.Proofs.Component.Cycle
import OpenApi.Proofs.Component.Discriminator
import OpenApi.Proofs.Component.FlatRecord
import OpenApi.Proofs.Component.Inheritance
import OpenApi.Proofs.Component.Marker
import OpenApi.Proofs.Component.Membership
import OpenApi.Proofs.Component.Origin
import OpenApi.Proofs.Component.Property
import OpenApi.Proofs.Component.Splice
import OpenApi.Proofs.Component.Variant
import OpenApi.Proofs.Decimal.Rounding
import OpenApi.Proofs.Decimal.Same
import OpenApi.Proofs.Decimal.Text
import OpenApi.Proofs.Decode.Basic
import OpenApi.Proofs.Document.Names
import OpenApi.Proofs.Document.Normalize
import OpenApi.Proofs.Document.Normalized
import OpenApi.Proofs.Document.Parse
import OpenApi.Proofs.Document.Positions
import OpenApi.Proofs.Document.Reading
import OpenApi.Proofs.Document.Version
import OpenApi.Proofs.Http.Media
import OpenApi.Proofs.Http.Path
import OpenApi.Proofs.Http.Status
import OpenApi.Proofs.Json.Assoc
import OpenApi.Proofs.Json.Path
import OpenApi.Proofs.Json.Same
import OpenApi.Proofs.Model.Alignment
import OpenApi.Proofs.Model.Api
import OpenApi.Proofs.Model.Client
import OpenApi.Proofs.Model.Collision
import OpenApi.Proofs.Model.Coverage
import OpenApi.Proofs.Model.Declaration
import OpenApi.Proofs.Model.Enumeration
import OpenApi.Proofs.Model.Failure
import OpenApi.Proofs.Model.Group
import OpenApi.Proofs.Model.Header
import OpenApi.Proofs.Model.Hierarchy
import OpenApi.Proofs.Model.Identifier
import OpenApi.Proofs.Model.Inventory
import OpenApi.Proofs.Model.Names
import OpenApi.Proofs.Model.Operation
import OpenApi.Proofs.Model.Parameter
import OpenApi.Proofs.Model.Record
import OpenApi.Proofs.Model.Result
import OpenApi.Proofs.Model.Rounds
import OpenApi.Proofs.Model.Segment
import OpenApi.Proofs.Model.Signature
import OpenApi.Proofs.Model.Steps
import OpenApi.Proofs.Model.Subtype
import OpenApi.Proofs.Model.Termination
import OpenApi.Proofs.Model.Types
import OpenApi.Proofs.Naming.Ending
import OpenApi.Proofs.Naming.Fresh
import OpenApi.Proofs.Naming.Identifier
import OpenApi.Proofs.Naming.Parameter
import OpenApi.Proofs.Naming.Search
import OpenApi.Proofs.Naming.Template
import OpenApi.Proofs.Policy.Authentication
import OpenApi.Proofs.Reference
import OpenApi.Proofs.Reference.Form
import OpenApi.Proofs.Render.CSharp
import OpenApi.Proofs.Render.Grammar
import OpenApi.Proofs.Render.Token
import OpenApi.Proofs.Render.TypeScript
import OpenApi.Proofs.Schema.Canonical
import OpenApi.Proofs.Schema.Decode
import OpenApi.Proofs.Schema.Form
import OpenApi.Proofs.Schema.Keyed
import OpenApi.Proofs.Schema.Limits
import OpenApi.Proofs.Schema.Literal
import OpenApi.Proofs.Schema.Override
import OpenApi.Proofs.Schema.Position
import OpenApi.Proofs.Schema.RoundTrip
import OpenApi.Proofs.Schema.Same
import OpenApi.Proofs.Schema.Slot
import OpenApi.Proofs.Schema.Taken
import OpenApi.Proofs.Text.Camel
import OpenApi.Proofs.Text.Percent
import OpenApi.Proofs.Text.Utf8
import OpenApi.Proofs.Text.Words
import OpenApi.Proofs.Type.Alias
import OpenApi.Proofs.Type.Chain
import OpenApi.Proofs.Type.Delivery
import OpenApi.Proofs.Type.Flags
import OpenApi.Proofs.Type.Guard
import OpenApi.Proofs.Type.Kind
import OpenApi.Proofs.Type.Names
import OpenApi.Proofs.Type.Nullable
import OpenApi.Proofs.Type.Registry
import OpenApi.Proofs.Type.Related
import OpenApi.Proofs.Type.Resolution
import OpenApi.Proofs.Type.Resolve
import OpenApi.Proofs.Type.Run
import OpenApi.Proofs.Type.Steps
import OpenApi.Proofs.Type.Wrapper
import OpenApi.Reference
import OpenApi.Render.CSharp
import OpenApi.Render.Mapper
import OpenApi.Render.Signature
import OpenApi.Render.TypeScript
import OpenApi.Schema.Basic
import OpenApi.Schema.Constraints
import OpenApi.Schema.Decode
import OpenApi.Schema.Encode
import OpenApi.Schema.Keyword
import OpenApi.Schema.Same
import OpenApi.Text.Alphanumeric
import OpenApi.Text.LetterCase
import OpenApi.Text.Shown
import OpenApi.Text.Utf8
import OpenApi.Text.Words
import OpenApi.Type.Flags
import OpenApi.Type.Primitive
import OpenApi.Type.Registry
import OpenApi.Type.Resolve
import OpenApi.Type.Resolved
import OpenApi.Yaml.Core
import OpenApi.Yaml.Cursor
import OpenApi.Yaml.Node.OfTokens
import OpenApi.Yaml.Reader
import OpenApi.Yaml.Token
import OpenApi.Yaml.Token.Block
import OpenApi.Yaml.Token.Gap
import OpenApi.Yaml.Token.Lexer
import OpenApi.Yaml.Token.Plain
import OpenApi.Yaml.Token.Quoted
import OpenApi.Yaml.Token.Tag
