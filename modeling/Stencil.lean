import Stencil.Decimal.Notation
import Stencil.Decimal.Reading
import Stencil.Decimal.Shortest
import Stencil.Files.Loader
import Stencil.Files.Path
import Stencil.Files.Tree
import Stencil.Grammar.Expression
import Stencil.Grammar.Hook
import Stencil.Grammar.Mistake
import Stencil.Grammar.Statement
import Stencil.Grammar.Tape
import Stencil.Grammar.Template
import Stencil.Host.Callable
import Stencil.Host.Describe
import Stencil.Host.Environment
import Stencil.Host.Loader
import Stencil.Host.Shelf
import Stencil.Host.TagScript
import Stencil.Render.Action
import Stencil.Render.Assign
import Stencil.Render.Call
import Stencil.Render.Embed
import Stencil.Render.Evaluate
import Stencil.Render.Inherit
import Stencil.Render.Loop
import Stencil.Render.Outcome
import Stencil.Render.Perform
import Stencil.Render.Problem
import Stencil.Render.Scopes
import Stencil.Render.State
import Stencil.Render.Statement
import Stencil.Report.Code
import Stencil.Report.Diagnostic
import Stencil.Report.Excerpt
import Stencil.Report.Policy
import Stencil.Report.Window
import Stencil.Settings.Basic
import Stencil.Settings.Load
import Stencil.Settings.Merge
import Stencil.Settings.Place
import Stencil.Syntax.Definitions
import Stencil.Syntax.Expr
import Stencil.Syntax.Node
import Stencil.Syntax.Target
import Stencil.Syntax.Walk
import Stencil.Text.Affix
import Stencil.Text.Blank
import Stencil.Text.Cell
import Stencil.Text.Inspect
import Stencil.Text.LineIndex
import Stencil.Text.Position
import Stencil.Text.Quoted
import Stencil.Text.Search
import Stencil.Text.Span
import Stencil.Token.Kind
import Stencil.Token.Recognize
import Stencil.Token.Scan
import Stencil.Toml.Assembly
import Stencil.Toml.Datum
import Stencil.Toml.Document
import Stencil.Toml.Scalar
import Stencil.Value.Access
import Stencil.Value.Basic
import Stencil.Value.Compare
import Stencil.Value.Display
import Stencil.Value.Operate
import Stencil.Value.Table
import Stencil.Value.Update
import Stencil.Proofs.Token.Region
import Stencil.Proofs.Token.Tiling
import Stencil.Proofs.Token.Stream
import Stencil.Proofs.Grammar.Run
import Stencil.Proofs.Grammar.Shown
import Stencil.Proofs.Grammar.Body
import Stencil.Proofs.Grammar.Climbing
import Stencil.Proofs.Grammar.Operand
import Stencil.Proofs.Grammar.Output
import Stencil.Proofs.Grammar.Clause
import Stencil.Proofs.Grammar.Nesting
import Stencil.Proofs.Grammar.RoundTrip
import Stencil.Proofs.Grammar.Alarm
import Stencil.Proofs.Render.Standing
import Stencil.Proofs.Render.Balance
import Stencil.Proofs.Render.Frames
import Stencil.Proofs.Grammar.Beside
import Stencil.Proofs.Grammar.Likewise
import Stencil.Proofs.Grammar.Alongside
import Stencil.Proofs.Grammar.Abreast
import Stencil.Proofs.Grammar.Bodies
import Stencil.Proofs.Grammar.Segment
import Stencil.Proofs.Token.Apart
import Stencil.Proofs.Token.Joining
import Stencil.Proofs.Grammar.Lone
import Stencil.Proofs.Grammar.Recovery
import Stencil.Proofs.Syntax.Inner
import Stencil.Proofs.Render.Depth
import Stencil.Proofs.Render.Accord
import Stencil.Proofs.Render.Plain
import Stencil.Proofs.Render.Material
import Stencil.Proofs.Render.Uniform
import Stencil.Proofs.Render.Cache
import Stencil.Proofs.Render.Strictness
import Stencil.Proofs.Render.Termination
import Stencil.Proofs.Render.Cutoff
import Stencil.Proofs.Render.Lineage
import Stencil.Proofs.Render.Flattening
import Stencil.Proofs.Render.Inheritance
import Stencil.Proofs.Syntax.Marks
import Stencil.Proofs.Syntax.MapExprs
import Stencil.Proofs.Syntax.Akin
import Stencil.Proofs.Syntax.Ungrouped
import Stencil.Proofs.Render.Advance
import Stencil.Proofs.Render.Kinship
import Stencil.Proofs.Render.AkinExpr
import Stencil.Proofs.Render.AkinNode
import Stencil.Proofs.Render.Kindred
import Stencil.Proofs.Render.Isolation
import Stencil.Proofs.Render.Grouping
import Stencil.Proofs.Render.Attribution
import Stencil.Proofs.Token.Whole
import Stencil.Proofs.Grammar.Opening
import Stencil.Proofs.Grammar.Paired
import Stencil.Proofs.Grammar.Trimming
import Stencil.Proofs.Grammar.Edges
import Stencil.Proofs.Grammar.Unclosed
import Stencil.Proofs.Grammar.Progress
import Stencil.Proofs.Syntax.Count
import Stencil.Proofs.Grammar.Spending
import Stencil.Proofs.Grammar.Totality
import Stencil.Proofs.Render.Guarded
import Stencil.Proofs.Render.Occurrence
import Stencil.Proofs.Render.Loads
import Stencil.Proofs.Host.Chain
import Stencil.Proofs.Render.Chained
import Stencil.Proofs.Grammar.Verbatim
import Stencil.Proofs.Render.Verbatim
import Stencil.Proofs.Token.Verbatim
import Stencil.Proofs.Syntax.Placement
import Stencil.Proofs.Grammar.Survey
import Stencil.Proofs.Grammar.Placement
import Stencil.Proofs.Grammar.Lodging
import Stencil.Proofs.Grammar.Exactness
import Stencil.Proofs.Grammar.Bare
import Stencil.Proofs.Grammar.Unmarked
import Stencil.Proofs.Grammar.Parallel
import Stencil.Proofs.Grammar.Matching
import Stencil.Proofs.Token.Construct
import Stencil.Proofs.Grammar.Stripped
import Stencil.Proofs.Value.Update
import Stencil.Proofs.Render.Unpacking
import Stencil.Proofs.Render.Binding
import Stencil.Proofs.Render.CallSite
import Stencil.Proofs.Syntax.Inlining
import Stencil.Proofs.Render.Following
import Stencil.Proofs.Render.InStep
import Stencil.Proofs.Render.Inlining
import Stencil.Proofs.Text.Quoted
import Stencil.Proofs.Grammar.Lexeme
import Stencil.Proofs.Grammar.Joined
import Stencil.Proofs.Render.Joined
import Stencil.Proofs.Render.Defined
import Stencil.Proofs.Grammar.SoleOutput
import Stencil.Proofs.Grammar.Dotted
import Stencil.Proofs.Grammar.BareArguments
import Stencil.Proofs.Grammar.SourceOrder
import Stencil.Proofs.Value.Order
import Stencil.Proofs.Text.Lookup
import Stencil.Proofs.Render.Fetching
import Stencil.Proofs.Report.Ruling
import Stencil.Proofs.Files.Confinement
import Stencil.Proofs.Syntax.Definitions
import Stencil.Proofs.Host.Tables
import Stencil.Proofs.Grammar.Numeral
