import ApiPrep.Calendar
import ApiPrep.Catalog
import ApiPrep.Catalog.Describe
import ApiPrep.Catalog.Match
import ApiPrep.Catalog.Read
import ApiPrep.Cli.Grammar
import ApiPrep.Cli.Request
import ApiPrep.Cli.Run
import ApiPrep.Decimal.Digits
import ApiPrep.Decimal.Layout
import ApiPrep.Decimal.Nearest
import ApiPrep.Decimal.Shortest
import ApiPrep.Document
import ApiPrep.Document.Content
import ApiPrep.Document.Read
import ApiPrep.Failure
import ApiPrep.Host
import ApiPrep.Json.Reader
import ApiPrep.Json.Writer
import ApiPrep.Main
import ApiPrep.Naming.Case
import ApiPrep.Naming.Fallback
import ApiPrep.Naming.FileNames
import ApiPrep.Naming.IdRule
import ApiPrep.Naming.Identifier
import ApiPrep.Naming.Reserved
import ApiPrep.Naming.TypeNames
import ApiPrep.Normalized
import ApiPrep.Normalized.Imports
import ApiPrep.Normalized.Normalize
import ApiPrep.Operation
import ApiPrep.Output
import ApiPrep.Parameter
import ApiPrep.Parameter.Compare
import ApiPrep.Path.Template
import ApiPrep.Promotion
import ApiPrep.Promotion.Detect
import ApiPrep.Proofs.Catalog.Claims
import ApiPrep.Proofs.Catalog.Reading
import ApiPrep.Proofs.Catalog.Reloading
import ApiPrep.Proofs.Catalog.Reshuffled
import ApiPrep.Proofs.Catalog.Search
import ApiPrep.Proofs.Catalog.Stumbling
import ApiPrep.Proofs.Cli.Atomic
import ApiPrep.Proofs.Cli.Delivery
import ApiPrep.Proofs.Document.AlikeLoops
import ApiPrep.Proofs.Document.Filling
import ApiPrep.Proofs.Document.IdSpelling
import ApiPrep.Proofs.Document.Ids
import ApiPrep.Proofs.Document.Loops
import ApiPrep.Proofs.Document.Lossless
import ApiPrep.Proofs.Document.Respelled
import ApiPrep.Proofs.Document.Settled
import ApiPrep.Proofs.Document.Spellings
import ApiPrep.Proofs.Document.Stumbling
import ApiPrep.Proofs.Json.Exact
import ApiPrep.Proofs.Json.Objects
import ApiPrep.Proofs.Json.RoundTrip
import ApiPrep.Proofs.Json.Scalars
import ApiPrep.Proofs.Json.Stops
import ApiPrep.Proofs.Json.Whole
import ApiPrep.Proofs.Naming.Boundaries
import ApiPrep.Proofs.Naming.ClassName
import ApiPrep.Proofs.Naming.Conventional
import ApiPrep.Proofs.Naming.FallbackId
import ApiPrep.Proofs.Naming.Identifier
import ApiPrep.Proofs.Naming.MethodName
import ApiPrep.Proofs.Naming.NormalForms
import ApiPrep.Proofs.Naming.Recovery
import ApiPrep.Proofs.Naming.TypeNames
import ApiPrep.Proofs.Naming.Variable
import ApiPrep.Proofs.Naming.VariableName
import ApiPrep.Proofs.Naming.Words
import ApiPrep.Proofs.Normalized.Derived
import ApiPrep.Proofs.Normalized.Failing
import ApiPrep.Proofs.Normalized.Fitting
import ApiPrep.Proofs.Normalized.Group
import ApiPrep.Proofs.Normalized.Imports
import ApiPrep.Proofs.Operation.Lossless
import ApiPrep.Proofs.Outcome
import ApiPrep.Proofs.Output.Document
import ApiPrep.Proofs.Output.Session
import ApiPrep.Proofs.Parameter.Multiset
import ApiPrep.Proofs.Parameter.Order
import ApiPrep.Proofs.Parameter.Shape
import ApiPrep.Proofs.Path.Faults
import ApiPrep.Proofs.Path.Grammar
import ApiPrep.Proofs.Path.Placeholders
import ApiPrep.Proofs.Path.Rendered
import ApiPrep.Proofs.Path.Segments
import ApiPrep.Proofs.Promotion.Dependence
import ApiPrep.Proofs.Promotion.Detect
import ApiPrep.Proofs.Promotion.EntityName
import ApiPrep.Proofs.Promotion.Partition
import ApiPrep.Proofs.Promotion.Unambiguous
import ApiPrep.Proofs.Record.Fitting
import ApiPrep.Proofs.Record.Indifferent
import ApiPrep.Proofs.Record.Lossless
import ApiPrep.Proofs.Record.Reading
import ApiPrep.Proofs.Record.Respelling
import ApiPrep.Proofs.Settings.Layers
import ApiPrep.Proofs.Settings.Precedence
import ApiPrep.Proofs.Source.LocalFile
import ApiPrep.Proofs.Store.Files
import ApiPrep.Proofs.Store.Writing
import ApiPrep.Proofs.Text.Case
import ApiPrep.Proofs.Text.Order
import ApiPrep.Proofs.Text.Pieces
import ApiPrep.Proofs.Text.Recased
import ApiPrep.Proofs.Text.Utf8
import ApiPrep.Proofs.Value.Assigned
import ApiPrep.Proofs.Value.Entries
import ApiPrep.Proofs.Value.Merged
import ApiPrep.Proofs.Value.Parts
import ApiPrep.Proofs.Value.Places
import ApiPrep.Proofs.Value.Spelled
import ApiPrep.Proofs.Value.Trees
import ApiPrep.Proofs.Yaml.Nodes
import ApiPrep.Proofs.Yaml.Tokens
import ApiPrep.Proofs.Yaml.Values
import ApiPrep.Record.Form
import ApiPrep.Record.Issue
import ApiPrep.Settings
import ApiPrep.Settings.Resolve
import ApiPrep.Source
import ApiPrep.Store
import ApiPrep.Store.Place
import ApiPrep.Text
import ApiPrep.Text.Base64
import ApiPrep.Text.Blank
import ApiPrep.Text.Case.Lower
import ApiPrep.Text.Case.Shift
import ApiPrep.Text.Case.Upper
import ApiPrep.Text.Charset
import ApiPrep.Text.Digit
import ApiPrep.Text.Pieces
import ApiPrep.Text.Printable
import ApiPrep.Text.Quoted
import ApiPrep.Text.Ranges
import ApiPrep.Text.Utf8
import ApiPrep.Text.WordChar
import ApiPrep.Trace
import ApiPrep.Value
import ApiPrep.Value.Members
import ApiPrep.Value.Opened
import ApiPrep.Value.Shown
import ApiPrep.Value.Spelled
import ApiPrep.Yaml.Build
import ApiPrep.Yaml.Cursor
import ApiPrep.Yaml.Merge
import ApiPrep.Yaml.Node
import ApiPrep.Yaml.Number
import ApiPrep.Yaml.Parts
import ApiPrep.Yaml.Reader
import ApiPrep.Yaml.Scalar
import ApiPrep.Yaml.Tag
import ApiPrep.Yaml.Token
import ApiPrep.Yaml.Token.Block
import ApiPrep.Yaml.Token.Names
import ApiPrep.Yaml.Token.Plain
import ApiPrep.Yaml.Token.Quoted
import ApiPrep.Yaml.Token.Scan
