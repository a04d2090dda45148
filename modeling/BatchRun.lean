import BatchRun.Cluster.Api
import BatchRun.Cluster.Body
import BatchRun.Cluster.Kubeconfig
import BatchRun.Cluster.Object
import BatchRun.Cluster.Request
import BatchRun.Cluster.Resource
import BatchRun.Cluster.Schema
import BatchRun.Cluster.Script
import BatchRun.Cluster.Server
import BatchRun.Cluster.Shape
import BatchRun.Cluster.Watch
import BatchRun.Decimal.Binary64
import BatchRun.Decimal.Literal
import BatchRun.Decimal.Shortest
import BatchRun.Digest.Fingerprint
import BatchRun.Digest.Sha256
import BatchRun.Document.Along
import BatchRun.Document.Basic
import BatchRun.Document.Json
import BatchRun.Document.Place
import BatchRun.Document.Pointer
import BatchRun.Document.Reader
import BatchRun.Document.Typed
import BatchRun.Fault
import BatchRun.Log.Filter
import BatchRun.Log.Level
import BatchRun.Log.Setup
import BatchRun.Manifest.Compose
import BatchRun.Manifest.Fields
import BatchRun.Manifest.File
import BatchRun.Manifest.Shortcuts
import BatchRun.Manifest.Template
import BatchRun.Manifest.Validate
import BatchRun.Patch.Basic
import BatchRun.Patch.Diff
import BatchRun.Patch.Wire
import BatchRun.Proofs.Cluster.Absence
import BatchRun.Proofs.Cluster.LogLines
import BatchRun.Proofs.Decimal.Nearest
import BatchRun.Proofs.Decimal.Rounding
import BatchRun.Proofs.Decimal.Shortest
import BatchRun.Proofs.Decimal.Text
import BatchRun.Proofs.Digest.Fingerprint
import BatchRun.Proofs.Document.Children
import BatchRun.Proofs.Document.Depth
import BatchRun.Proofs.Document.Embedding
import BatchRun.Proofs.Document.Frame
import BatchRun.Proofs.Document.Members
import BatchRun.Proofs.Document.Place
import BatchRun.Proofs.Document.Pointer
import BatchRun.Proofs.Document.Proper
import BatchRun.Proofs.Document.Reading
import BatchRun.Proofs.Document.Typed
import BatchRun.Proofs.Manifest.Base
import BatchRun.Proofs.Manifest.Check
import BatchRun.Proofs.Manifest.Compose
import BatchRun.Proofs.Manifest.Names
import BatchRun.Proofs.Manifest.Shortcuts
import BatchRun.Proofs.Manifest.Survey
import BatchRun.Proofs.Patch.Addition
import BatchRun.Proofs.Patch.Effect
import BatchRun.Proofs.Patch.Exact
import BatchRun.Proofs.Patch.Frame
import BatchRun.Proofs.Patch.Keys
import BatchRun.Proofs.Patch.Replay
import BatchRun.Proofs.Patch.Sequence
import BatchRun.Proofs.Patch.Turns
import BatchRun.Proofs.Patch.Wire
import BatchRun.Proofs.Run.Act
import BatchRun.Proofs.Run.Alike
import BatchRun.Proofs.Run.Calls
import BatchRun.Proofs.Run.Cancellation
import BatchRun.Proofs.Run.Config
import BatchRun.Proofs.Run.Connections
import BatchRun.Proofs.Run.Counterpart
import BatchRun.Proofs.Run.Course
import BatchRun.Proofs.Run.Deadlines
import BatchRun.Proofs.Run.Errors
import BatchRun.Proofs.Run.ExitCode
import BatchRun.Proofs.Run.Handover
import BatchRun.Proofs.Run.Log
import BatchRun.Proofs.Run.Order
import BatchRun.Proofs.Run.Outcome
import BatchRun.Proofs.Run.Phases
import BatchRun.Proofs.Run.Protocol
import BatchRun.Proofs.Run.Stages
import BatchRun.Proofs.Run.Tasks
import BatchRun.Proofs.Run.Watches
import BatchRun.Proofs.Run.Workers
import BatchRun.Proofs.Slug.Cut
import BatchRun.Proofs.Slug.Language
import BatchRun.Proofs.Slug.Words
import BatchRun.Proofs.Text.Blank
import BatchRun.Proofs.Text.Encoding
import BatchRun.Proofs.Text.Map
import BatchRun.Proofs.Yaml.Brackets
import BatchRun.Proofs.Yaml.Compact
import BatchRun.Proofs.Yaml.Cursor
import BatchRun.Proofs.Yaml.Entries
import BatchRun.Proofs.Yaml.Faithful
import BatchRun.Proofs.Yaml.Flow
import BatchRun.Proofs.Yaml.Json
import BatchRun.Proofs.Yaml.Keys
import BatchRun.Proofs.Yaml.Lexer
import BatchRun.Proofs.Yaml.Literal
import BatchRun.Proofs.Yaml.Marks
import BatchRun.Proofs.Yaml.Nesting
import BatchRun.Proofs.Yaml.Nodes
import BatchRun.Proofs.Yaml.Numeral
import BatchRun.Proofs.Yaml.PlainScalar
import BatchRun.Proofs.Yaml.Quoted
import BatchRun.Proofs.Yaml.Reals
import BatchRun.Proofs.Yaml.RoundTrip
import BatchRun.Proofs.Yaml.Scalars
import BatchRun.Proofs.Yaml.Style
import BatchRun.Proofs.Yaml.Tokens
import BatchRun.Proofs.Yaml.Words
import BatchRun.Run.Client
import BatchRun.Run.Config
import BatchRun.Run.Course
import BatchRun.Run.Execute
import BatchRun.Run.Identity
import BatchRun.Run.JobEnd
import BatchRun.Run.Notice
import BatchRun.Run.Outcome
import BatchRun.Run.Phases
import BatchRun.Run.PodStart
import BatchRun.Run.Stages
import BatchRun.Run.Tasks
import BatchRun.Slug.Basic
import BatchRun.Slug.Fold
import BatchRun.Text.Blank
import BatchRun.Text.Encoding
import BatchRun.Text.Map
import BatchRun.Text.Quoted
import BatchRun.Text.Visible
import BatchRun.Time.Instant
import BatchRun.Time.Span
import BatchRun.Yaml.Cursor
import BatchRun.Yaml.Node
import BatchRun.Yaml.Parser
import BatchRun.Yaml.Plain
import BatchRun.Yaml.Problem
import BatchRun.Yaml.Reader
import BatchRun.Yaml.Style
import BatchRun.Yaml.Token
import BatchRun.Yaml.Token.Lexer
import BatchRun.Yaml.Token.Scalar
import BatchRun.Yaml.Token.Tag
import BatchRun.Yaml.Writer
