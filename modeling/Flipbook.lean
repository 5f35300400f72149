import Flipbook.Animation.Registry
import Flipbook.Animation.SnapshotJson
import Flipbook.Command.Run
import Flipbook.Document.Read
import Flipbook.Expression.Condition
import Flipbook.Game.Cache
import Flipbook.Game.EventTable
import Flipbook.Game.Staged
import Flipbook.Json.Value
import Flipbook.Main
import Flipbook.Proofs.Playback.Consistency
import Flipbook.Proofs.Registry.History
import Flipbook.Proofs.Registry.Consistency
import Flipbook.Proofs.Expression.Simulation
import Flipbook.Proofs.Playback.Agreement
import Flipbook.Proofs.Game.Steady
import Flipbook.Proofs.Document.Balance
import Flipbook.Proofs.Document.Overrun
import Flipbook.Proofs.Registry.Independence
import Flipbook.Proofs.Expression.Grammar
import Flipbook.Proofs.Expression.Acceptance
import Flipbook.Proofs.Document.WellFormed
import Flipbook.Proofs.Expression.Printing
import Flipbook.Proofs.Expression.StatementRules
import Flipbook.Proofs.Expression.RoundTrip
import Flipbook.Proofs.Decimal.Writing
import Flipbook.Proofs.Text.Split
import Flipbook.Proofs.Document.Writing
import Flipbook.Proofs.Document.BlockWriting
import Flipbook.Proofs.Document.BlockRoundTrip
import Flipbook.Proofs.Document.SectionedRoundTrip
import Flipbook.Proofs.Game.Sampling
import Flipbook.Proofs.Expression.Evaluation
import Flipbook.Proofs.Game.Calm
import Flipbook.Proofs.Registry.Ticks
import Flipbook.Proofs.Playback.Fallback
import Flipbook.Proofs.Registry.Blank
import Flipbook.Proofs.Playback.Seeds
import Flipbook.Proofs.Registry.Reload
import Flipbook.Proofs.Registry.Separation
import Flipbook.Proofs.Game.Conversation
import Flipbook.Proofs.Document.InvertedRanges
import Flipbook.Proofs.Expression.Brackets
import Flipbook.Proofs.Expression.Positions
import Flipbook.Proofs.Expression.Lexing
import Flipbook.Proofs.Document.Correctors
import Flipbook.Proofs.Json.Grammar
import Flipbook.Proofs.Json.Readers
import Flipbook.Proofs.Json.Strings
import Flipbook.Proofs.Json.Numbers
import Flipbook.Proofs.Json.Values
import Flipbook.Proofs.Json.Refusals
import Flipbook.Proofs.Json.Members
import Flipbook.Proofs.Animation.SnapshotReading
import Flipbook.Proofs.Animation.SnapshotRoundTrip
import Flipbook.Proofs.Playback.Selection
import Flipbook.Proofs.Playback.Runs
import Flipbook.Proofs.Playback.Timing
import Flipbook.Proofs.Playback.Endings
import Flipbook.Proofs.Playback.Replays
import Flipbook.Proofs.Playback.Aborted
import Flipbook.Proofs.Registry.Looping
import Flipbook.Proofs.Expression.Assembly
import Flipbook.Proofs.Expression.Lexical
import Flipbook.Proofs.Expression.Spacing
import Flipbook.Proofs.Expression.Height
import Flipbook.Proofs.Expression.History
import Flipbook.Proofs.Expression.Stateless
import Flipbook.Proofs.Expression.Elapsed
import Flipbook.Proofs.Expression.Marks
import Flipbook.Proofs.Expression.Edges
import Flipbook.Proofs.Expression.Declared
import Flipbook.Proofs.Document.Substitutions
import Flipbook.Proofs.Document.FrameLists
import Flipbook.Proofs.Document.Placement
import Flipbook.Proofs.Document.Scanning
import Flipbook.Proofs.Expression.Reporting
import Flipbook.Proofs.Expression.Readers
import Flipbook.Proofs.Expression.ExpressionReaders
import Flipbook.Proofs.Expression.StatementReaders
import Flipbook.Proofs.Expression.OpenStatements
import Flipbook.Proofs.Expression.FirstErrors
import Flipbook.Proofs.Document.Remarks
import Flipbook.Proofs.Document.SkippedSections
import Flipbook.Proofs.Document.Matching
