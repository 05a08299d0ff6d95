import ProofLedger.Attempt
import ProofLedger.Category
import ProofLedger.Category.Classify
import ProofLedger.CommandLine.Arguments
import ProofLedger.CommandLine.Commands
import ProofLedger.CommandLine.Invocation
import ProofLedger.CommandLine.Program
import ProofLedger.CommandLine.Report
import ProofLedger.Decimal.Binary
import ProofLedger.Decimal.Fixed
import ProofLedger.Decimal.Read
import ProofLedger.Decimal.Shortest
import ProofLedger.Declaration
import ProofLedger.Declaration.Block
import ProofLedger.Declaration.Header
import ProofLedger.Derivation
import ProofLedger.Derivation.Commit
import ProofLedger.Diagnostic
import ProofLedger.Digest.Sha256
import ProofLedger.Failure
import ProofLedger.Files.Access
import ProofLedger.Files.Source
import ProofLedger.Files.State
import ProofLedger.Files.Tree
import ProofLedger.Goal
import ProofLedger.Graph
import ProofLedger.Graph.Search
import ProofLedger.Identity
import ProofLedger.Instant
import ProofLedger.Json.Basic
import ProofLedger.Json.Number
import ProofLedger.Json.Overlay
import ProofLedger.Json.Printer
import ProofLedger.Json.Reader
import ProofLedger.Json.Record
import ProofLedger.Keyed
import ProofLedger.Ledger
import ProofLedger.LogPlan
import ProofLedger.Main
import ProofLedger.NodeHistory
import ProofLedger.Patch
import ProofLedger.PatternEntry
import ProofLedger.ProofState
import ProofLedger.Proofs.Instant.Calendar
import ProofLedger.Proofs.Instant.Text
import ProofLedger.Proofs.Json.Record
import ProofLedger.Proofs.Json.Tree
import ProofLedger.Proofs.Ranking.Finite
import ProofLedger.Proofs.Ranking.Rate
import ProofLedger.Proofs.Scheduler.Agenda
import ProofLedger.Proofs.Scheduler.Batches
import ProofLedger.Proofs.Scheduler.Chronicle
import ProofLedger.Proofs.Scheduler.Clock
import ProofLedger.Proofs.Scheduler.Independence
import ProofLedger.Proofs.Scheduler.Invariant
import ProofLedger.Proofs.Scheduler.Journal
import ProofLedger.Proofs.Scheduler.Lane
import ProofLedger.Proofs.Scheduler.Moves
import ProofLedger.Proofs.Scheduler.Outcomes
import ProofLedger.Proofs.Scheduler.Requests
import ProofLedger.Proofs.Scheduler.Totals
import ProofLedger.Proofs.Scheduler.View
import ProofLedger.Proofs.State.Cache
import ProofLedger.Proofs.State.Codec
import ProofLedger.Proofs.State.Commit
import ProofLedger.Proofs.State.Isolation
import ProofLedger.Proofs.State.Ledger
import ProofLedger.Proofs.State.Operation
import ProofLedger.Proofs.State.RoundTrip
import ProofLedger.Proofs.State.Run
import ProofLedger.Proofs.State.Sections
import ProofLedger.Ranking.Candidate
import ProofLedger.Ranking.LocalStats
import ProofLedger.Ranking.Score
import ProofLedger.Recommendation
import ProofLedger.Scheduler
import ProofLedger.Scheduler.Agenda
import ProofLedger.Scheduler.Phase
import ProofLedger.Scheduler.Script
import ProofLedger.Scheduler.Timeline
import ProofLedger.Session
import ProofLedger.Settings
import ProofLedger.Settings.Environment
import ProofLedger.Settings.Layers
import ProofLedger.Severity
import ProofLedger.SourceContext
import ProofLedger.SourceContext.Sidecar
import ProofLedger.SourceRange
import ProofLedger.Suggestion
import ProofLedger.SyncReason
import ProofLedger.Table
import ProofLedger.TacticOutcome
import ProofLedger.Text.Blank
import ProofLedger.Text.CodeRanges
import ProofLedger.Text.Column
import ProofLedger.Text.Comment
import ProofLedger.Text.Lines
import ProofLedger.Text.Lowercase
import ProofLedger.Text.Phrase
import ProofLedger.Text.Quoted
import ProofLedger.Text.Statement
import ProofLedger.Text.Truncate
import ProofLedger.Text.WordChar
import ProofLedger.Workspace
import ProofLedger.Yaml.Character
import ProofLedger.Yaml.Cursor
import ProofLedger.Yaml.Layout
import ProofLedger.Yaml.Node
import ProofLedger.Yaml.Node.Grammar
import ProofLedger.Yaml.Reader
import ProofLedger.Yaml.Scalar
import ProofLedger.Yaml.Scalar.Block
import ProofLedger.Yaml.Scalar.Plain
import ProofLedger.Yaml.Scalar.Quoted
import ProofLedger.Yaml.Tag
import ProofLedger.Yaml.Token
import ProofLedger.Yaml.Token.Label
import ProofLedger.Yaml.Token.Reading
import ProofLedger.Yaml.Value
import ProofLedger.Proofs.Ledger.Submissions
import ProofLedger.Proofs.Ledger.History
import ProofLedger.Proofs.Ranking.Statistics
import ProofLedger.Proofs.Ledger.Patterns
import ProofLedger.Proofs.Ranking.ClosedLoop
import ProofLedger.Proofs.Ledger.AppendOnly
import ProofLedger.Proofs.Graph.Search
import ProofLedger.Proofs.Graph.Consistency
import ProofLedger.Proofs.Derivation.Identity
import ProofLedger.Proofs.Derivation.Gathering
import ProofLedger.Proofs.Text.Lines
import ProofLedger.Proofs.Declaration.Blocks
import ProofLedger.Proofs.Derivation.Obligations
import ProofLedger.Proofs.Derivation.Coherence
import ProofLedger.Proofs.Derivation.Errors
import ProofLedger.Proofs.Text.Comments
import ProofLedger.Proofs.Text.Respacing
import ProofLedger.Proofs.Declaration.Header
import ProofLedger.Proofs.Derivation.Respacing
import ProofLedger.Proofs.Instant.Order
import ProofLedger.Proofs.Json.Frame
import ProofLedger.Proofs.State.FailedSync
import ProofLedger.Proofs.State.Pruning
import ProofLedger.Proofs.State.Generations
import ProofLedger.Proofs.Session.Course
import ProofLedger.Proofs.Session.Freshness
import ProofLedger.Proofs.Text.Seams
import ProofLedger.Proofs.Text.Lowercase
import ProofLedger.Proofs.Declaration.Positions
import ProofLedger.Proofs.Declaration.Pattern
import ProofLedger.Proofs.Declaration.Partition
import ProofLedger.Proofs.Derivation.LastLine
import ProofLedger.Proofs.Session.TacticKey
import ProofLedger.Proofs.Ledger.OneMore
import ProofLedger.Proofs.Session.Tactics
import ProofLedger.Proofs.Sorting
import ProofLedger.Proofs.Declaration.Content
import ProofLedger.Proofs.Declaration.Concatenation
import ProofLedger.Proofs.Declaration.Binders
import ProofLedger.Proofs.Derivation.Reordering
import ProofLedger.Proofs.Ranking.Order
import ProofLedger.Proofs.Ranking.Pools
import ProofLedger.Proofs.Ranking.Bonus
import ProofLedger.Proofs.State.Slots
import ProofLedger.Proofs.Ledger.Latest
import ProofLedger.Proofs.CommandLine.Record
import ProofLedger.Proofs.Json.Fields
import ProofLedger.Proofs.Json.Commuting
import ProofLedger.Proofs.Json.Repetition
import ProofLedger.Proofs.Text.NormalForm
import ProofLedger.Proofs.Ledger.RecordingOrder
import ProofLedger.Proofs.Text.Phrases
import ProofLedger.Proofs.Category.Stability
import ProofLedger.Proofs.Diagnostic.Payloads
import ProofLedger.Proofs.Graph.Attachment
import ProofLedger.Proofs.Derivation.SharedIds
