import Reshape.Binder
import Reshape.Builder
import Reshape.Cache
import Reshape.Calendar
import Reshape.Decimal
import Reshape.Decimal.Shortest
import Reshape.Dialect
import Reshape.Directive
import Reshape.Double
import Reshape.Fault
import Reshape.File
import Reshape.JmesPath.Eval
import Reshape.JmesPath.Expr
import Reshape.JmesPath.Function
import Reshape.JmesPath.Parser
import Reshape.JmesPath.Signature
import Reshape.JmesPath.Token
import Reshape.Json.Fault
import Reshape.Json.Numeral
import Reshape.Json.Parser
import Reshape.Json.Printer
import Reshape.JsonPath.Bracket
import Reshape.JsonPath.Condition
import Reshape.JsonPath.Eval
import Reshape.JsonPath.Expr
import Reshape.JsonPath.Match
import Reshape.JsonPath.Parser
import Reshape.JsonPath.Token
import Reshape.Number
import Reshape.Number.Arithmetic
import Reshape.Pattern.Escape
import Reshape.Pattern.Expr
import Reshape.Pattern.Parser
import Reshape.Pattern.Quantifier
import Reshape.Pattern.Search
import Reshape.Pattern.Set
import Reshape.Pointer
import Reshape.Registry
import Reshape.Schema.Check
import Reshape.Schema.Coverage
import Reshape.Schema.Findings
import Reshape.Schema.Keyword
import Reshape.Schema.Keyword.Array
import Reshape.Schema.Keyword.Combination
import Reshape.Schema.Keyword.Draft3
import Reshape.Schema.Keyword.Object
import Reshape.Schema.Keyword.Scalar
import Reshape.Schema.Library
import Reshape.Schema.Meta
import Reshape.Schema.Meta.Dated
import Reshape.Schema.Meta.Draft3
import Reshape.Schema.Meta.Numbered
import Reshape.Schema.Meta.Terms
import Reshape.Schema.Multiple
import Reshape.Schema.Reading
import Reshape.Schema.Resource
import Reshape.Schema.Scope
import Reshape.Schema.Step
import Reshape.Schema.TypeName
import Reshape.Schema.Uri
import Reshape.Schema.Uri.Host
import Reshape.Schema.Validator
import Reshape.Schema.Violation
import Reshape.Sequence
import Reshape.Sequence.Sort
import Reshape.Settings
import Reshape.Strategy
import Reshape.Text.Base64
import Reshape.Text.Blank
import Reshape.Text.Case
import Reshape.Text.Digit
import Reshape.Text.Encoding
import Reshape.Text.Numeral
import Reshape.Text.Printable
import Reshape.Text.Quoted
import Reshape.Text.Range
import Reshape.Text.Surrogate
import Reshape.Text.Word
import Reshape.Tree
import Reshape.Tree.Bind
import Reshape.Tree.Compile
import Reshape.Value
import Reshape.Value.Display
import Reshape.Value.Equality
import Reshape.Value.Order
import Reshape.Value.Parts
import Reshape.Yaml
import Reshape.Yaml.Cursor
import Reshape.Yaml.Fault
import Reshape.Yaml.Node
import Reshape.Yaml.Node.Parser
import Reshape.Yaml.Scalar
import Reshape.Yaml.Stamp
import Reshape.Yaml.Tag
import Reshape.Yaml.Token
import Reshape.Yaml.Token.Lexer
import Reshape.Proofs.Entries
import Reshape.Proofs.Tree.Branches
import Reshape.Proofs.Tree.OwnStep
import Reshape.Proofs.Tree.Assembly
import Reshape.Proofs.Cache.Slots
import Reshape.Proofs.Tree.Runs
import Reshape.Proofs.Tree.Transparency
import Reshape.Proofs.Tree.FirstFault
import Reshape.Proofs.Outcome
import Reshape.Proofs.Tree.Compiled
import Reshape.Proofs.Pointer
import Reshape.Proofs.Directive
import Reshape.Proofs.Json.Plain
import Reshape.Proofs.Tree.Reconstruction
import Reshape.Proofs.Branching
import Reshape.Proofs.Tree.Exactness
import Reshape.Proofs.Registry
import Reshape.Proofs.Tree.CompileFaults
import Reshape.Proofs.Tree.Causes
import Reshape.Proofs.Binder
import Reshape.Proofs.Tree.Reached
import Reshape.Proofs.Tree.Cancellation
import Reshape.Proofs.Cache.Histories
import Reshape.Proofs.Tree.Demand
import Reshape.Proofs.Value.Alike
import Reshape.Proofs.Tree.Twins
import Reshape.Proofs.Tree.SiblingOrder
import Reshape.Proofs.Containment
import Reshape.Proofs.Grammar
import Reshape.Proofs.Growth
import Reshape.Proofs.Schema.Blind
import Reshape.Proofs.Schema.Findings
import Reshape.Proofs.Schema.Ignored
import Reshape.Proofs.Schema.Uri
import Reshape.Proofs.Schema.Library
import Reshape.Proofs.Schema.Identifier
import Reshape.Proofs.Staging
import Reshape.Proofs.Refusal
import Reshape.Proofs.Tree.Footprint
import Reshape.Proofs.Tree.Edits
import Reshape.Proofs.Tree.Spelling
import Reshape.Proofs.Tree.Seeds
import Reshape.Proofs.Pointer.Resolution
import Reshape.Proofs.JmesPath.Matches
import Reshape.Proofs.Registry.Builder
import Reshape.Proofs.Chains
import Reshape.Proofs.Tree.Paths
import Reshape.Proofs.Tree.Relocation
import Reshape.Proofs.Sources
import Reshape.Proofs.Yaml.Scanning
import Reshape.Proofs.Yaml.Lexing
import Reshape.Proofs.Yaml.Scalars
import Reshape.Proofs.Yaml.Values
import Reshape.Proofs.Yaml.Parsing
import Reshape.Proofs.Yaml.Causes
import Reshape.Proofs.Loading
