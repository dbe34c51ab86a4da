import CallChain.Api
import CallChain.Api.Wire
import CallChain.Catalog
import CallChain.Command
import CallChain.Command.Report
import CallChain.Compile
import CallChain.Compile.Wire
import CallChain.Entries
import CallChain.Graph
import CallChain.Graph.Builder
import CallChain.Graph.Chain
import CallChain.Graph.Peeling
import CallChain.Graph.Wire
import CallChain.Http
import CallChain.Http.Live
import CallChain.Http.Url
import CallChain.Http.Wire
import CallChain.Json
import CallChain.Json.Decoder
import CallChain.Json.Document
import CallChain.Json.Reader
import CallChain.Json.Source
import CallChain.Json.Text
import CallChain.Load
import CallChain.Main
import CallChain.Number
import CallChain.Number.Arithmetic
import CallChain.Number.Double
import CallChain.Number.Layout
import CallChain.Number.Reading
import CallChain.Number.Shortest
import CallChain.Path
import CallChain.Path.Access
import CallChain.Path.Parser
import CallChain.Path.Wire
import CallChain.Pattern
import CallChain.Pattern.Parser
import CallChain.Plan
import CallChain.Plan.Contract
import CallChain.Plan.Wire
import CallChain.Predicate
import CallChain.Predicate.Function
import CallChain.Predicate.Token
import CallChain.Predicate.Tree
import CallChain.Predicate.Value
import CallChain.Routes
import CallChain.Routes.Wire
import CallChain.Schema.Check
import CallChain.Schema.Conformance
import CallChain.Schema.Format
import CallChain.Schema.Nullable
import CallChain.Schema.Types
import CallChain.Schema.Violation
import CallChain.Service
import CallChain.Text.Blank
import CallChain.Text.Casing
import CallChain.Text.Escaped
import CallChain.Text.Letters
import CallChain.Text.Lossy
import CallChain.Text.Percent
import CallChain.Text.Replace
import CallChain.Tool
import CallChain.Tool.Enhancement
import CallChain.Tool.Name
import CallChain.Tool.Request
import CallChain.Tool.Run
import CallChain.Tool.Synthesis
import CallChain.Tool.Wire
import CallChain.Uuid
import CallChain.Verification
import CallChain.Verification.Bench
import CallChain.Verification.Context
import CallChain.Verification.Expectation
import CallChain.Verification.Wire
import CallChain.Yaml.Fault
import CallChain.Yaml.Node
import CallChain.Yaml.Place
import CallChain.Yaml.Property
import CallChain.Yaml.Scalar
import CallChain.Yaml.Token
import CallChain.Proofs.Graph.Adjacency
import CallChain.Proofs.Graph.Peeling
import CallChain.Proofs.Graph.Walk
import CallChain.Proofs.Graph.Numbering
import CallChain.Proofs.Graph.Chain
import CallChain.Proofs.Graph.Cycle
import CallChain.Proofs.Graph.Core
import CallChain.Proofs.Graph.Builder
import CallChain.Proofs.Result
import CallChain.Proofs.Plan.Steps
import CallChain.Proofs.Compile.Stages
import CallChain.Proofs.Interpretation
import CallChain.Proofs.Compile.Preservation
import CallChain.Proofs.Entries
import CallChain.Proofs.Tool.Values
import CallChain.Proofs.Schema.Keywords
import CallChain.Proofs.Plan.Contract
import CallChain.Proofs.Compile.Coverage
import CallChain.Proofs.Path.Writing
import CallChain.Proofs.Graph.Verdict
import CallChain.Proofs.Plan.Mappings
import CallChain.Proofs.Tool.Reads
import CallChain.Proofs.Compile.Influence
import CallChain.Proofs.Json.Reading
import CallChain.Proofs.Path.Faults
import CallChain.Proofs.Path.Grammar
import CallChain.Proofs.Json.Shown
import CallChain.Proofs.Json.Decoding
import CallChain.Proofs.Path.Display
import CallChain.Proofs.Tool.Wire
import CallChain.Proofs.Verification.Accounts
import CallChain.Proofs.Verification.Progress
import CallChain.Proofs.Verification.Sessions
import CallChain.Proofs.Verification.Verdicts
import CallChain.Proofs.Json.Decoded
import CallChain.Proofs.Tool.Origin
import CallChain.Proofs.Schema.Content
import CallChain.Proofs.Schema.MetaSchema
import CallChain.Proofs.Schema.Spelling
import CallChain.Proofs.Schema.Resolution
import CallChain.Proofs.Schema.Compatibility
import CallChain.Proofs.Plan.Input
import CallChain.Proofs.Compile.Lookups
import CallChain.Proofs.Compile.Outcomes
import CallChain.Proofs.Compile.Rearrangement
import CallChain.Proofs.Compile.Wire
import CallChain.Proofs.Verification.Wire
import CallChain.Proofs.Wire
import CallChain.Proofs.Verification.Reports
import CallChain.Proofs.Catalog
import CallChain.Proofs.Tool.Name
import CallChain.Proofs.Compile.Naming
import CallChain.Proofs.Tool.Trace
import CallChain.Proofs.Tool.Assembly
import CallChain.Proofs.Path.Obstacles
import CallChain.Proofs.Path.Growth
import CallChain.Proofs.Path.Commuting
import CallChain.Proofs.Tool.MappingOrder
import CallChain.Proofs.Text.Percent
import CallChain.Proofs.Text.PathTemplate
import CallChain.Proofs.Plan.Placeholders
import CallChain.Proofs.Tool.Paths
import CallChain.Proofs.Compile.Paths
import CallChain.Proofs.Http.Address
import CallChain.Proofs.Compile.Rooted
import CallChain.Proofs.Schema.Settled
import CallChain.Proofs.Schema.Marks
import CallChain.Proofs.Schema.Literals
import CallChain.Proofs.Schema.Widening
import CallChain.Proofs.Schema.Preorder
import CallChain.Proofs.Verification.Within
import CallChain.Proofs.Predicate.Leaves
import CallChain.Proofs.Tool.NormalForm
import CallChain.Proofs.Plan.Failures
import CallChain.Proofs.Compile.Reports
