import Inlay.Text.Blank
import Inlay.Text.Search
import Inlay.Text.Quoted
import Inlay.Decimal.Layout
import Inlay.Decimal.Read
import Inlay.Word
import Inlay.Dict
import Inlay.Value.Call
import Inlay.Json.Reader
import Inlay.Json.Writer
import Inlay.Expr.Head
import Inlay.Config
import Inlay.Statement.Nesting
import Inlay.Program.Compile
import Inlay.Render.Draw
import Inlay.Report
import Inlay.Settings
import Inlay.Main
import Inlay.Proofs.Statement.Clauses
import Inlay.Proofs.Statement.Derivation
import Inlay.Proofs.Statement.Bodies
import Inlay.Proofs.Statement.Growth
import Inlay.Proofs.Statement.Nesting
import Inlay.Proofs.Program.Faithful
import Inlay.Proofs.Render.Agreement
import Inlay.Proofs.Program.Marks
import Inlay.Proofs.Render.Steps
import Inlay.Proofs.Render.Expressions
import Inlay.Proofs.Render.Worlds
import Inlay.Proofs.Program.Compiled
import Inlay.Proofs.Statement.Refusal
import Inlay.Proofs.Render.Lines
import Inlay.Proofs.Render.Twins
import Inlay.Proofs.Render.Slots
import Inlay.Proofs.Render.Writers
import Inlay.Proofs.Segment.Writing
import Inlay.Proofs.Segment.RoundTrip
import Inlay.Proofs.Statement.Places
import Inlay.Proofs.Render.Course
import Inlay.Proofs.Render.Endless
import Inlay.Proofs.Render.Kept
import Inlay.Proofs.Render.Rendering
import Inlay.Proofs.Render.EngineErrors
import Inlay.Proofs.Render.Upkeep
import Inlay.Proofs.Render.Overrides
import Inlay.Proofs.Program.References
import Inlay.Proofs.Render.Reentry
import Inlay.Proofs.Render.Termination
import Inlay.Proofs.Expr.Writing
import Inlay.Proofs.Expr.Lexing
import Inlay.Proofs.Expr.RoundTrip
import Inlay.Proofs.Expr.Recognition
import Inlay.Proofs.Expr.Phrases
import Inlay.Proofs.Expr.Viability
import Inlay.Proofs.Expr.Heads
import Inlay.Proofs.Render.Correspondence
import Inlay.Proofs.Render.Sessions
import Inlay.Proofs.Render.Caching
import Inlay.Proofs.Program.Filters
import Inlay.Proofs.Render.Escaping
import Inlay.Proofs.Path.Rooted
import Inlay.Proofs.Render.Confinement
import Inlay.Proofs.Program.Loops
import Inlay.Proofs.Program.Forest
import Inlay.Proofs.Render.Records
import Inlay.Proofs.Render.Ledgers
import Inlay.Proofs.Render.Effects
import Inlay.Proofs.Render.Lookups
import Inlay.Proofs.Render.Histories
import Inlay.Proofs.Render.Blanking
import Inlay.Proofs.Render.DrawOnce
import Inlay.Proofs.Render.Leaving
import Inlay.Proofs.Render.Unnamed
import Inlay.Proofs.Render.Stages
import Inlay.Proofs.Render.ParentBlocks
import Inlay.Proofs.Statement.Assignment
import Inlay.Proofs.Statement.Dispatch
import Inlay.Proofs.Path.Resolution
import Inlay.Proofs.Value.Integers
import Inlay.Proofs.Render.SequenceLimits
import Inlay.Proofs.Value.Sequences
import Inlay.Proofs.Value.Ranges
import Inlay.Proofs.Value.Comparison
import Inlay.Proofs.Value.Extremes
import Inlay.Proofs.Value.Truths
import Inlay.Proofs.Filter.Urls
import Inlay.Proofs.Json.Texts
import Inlay.Proofs.Json.Reading
import Inlay.Proofs.Render.Bindings
import Inlay.Proofs.Statement.Reports
import Inlay.Proofs.Files.Ways
import Inlay.Proofs.Command.Targets
