import KoreanLox.Command
import KoreanLox.Console
import KoreanLox.Evaluation.Bound
import KoreanLox.Evaluation.Evaluate
import KoreanLox.Evaluation.Failure
import KoreanLox.Evaluation.Machine
import KoreanLox.Evaluation.Native
import KoreanLox.FileTree
import KoreanLox.Grammar.Expression
import KoreanLox.Grammar.Fault
import KoreanLox.Grammar.Parse
import KoreanLox.Grammar.Statement
import KoreanLox.Main
import KoreanLox.Number.Parts
import KoreanLox.Number.Shortest
import KoreanLox.Number.Text
import KoreanLox.Proofs.Evaluation.Evolution
import KoreanLox.Proofs.Evaluation.Moment
import KoreanLox.Scope.Basic
import KoreanLox.Scope.Resolution
import KoreanLox.Session
import KoreanLox.Span
import KoreanLox.Store.Array
import KoreanLox.Store.Basic
import KoreanLox.Store.Frame
import KoreanLox.Store.Object
import KoreanLox.Store.Rendering
import KoreanLox.Store.Text
import KoreanLox.Text.Blank
import KoreanLox.Text.Extender
import KoreanLox.Text.Integer
import KoreanLox.Text.Line
import KoreanLox.Text.Occurrence
import KoreanLox.Text.Quoted
import KoreanLox.Text.Unprintable
import KoreanLox.Token.Kind
import KoreanLox.Token.Listing
import KoreanLox.Token.Piece
import KoreanLox.Token.Scan
import KoreanLox.Tree.Basic
import KoreanLox.Tree.Landmark
import KoreanLox.Tree.Numbering
import KoreanLox.Tree.Printer
import KoreanLox.Value
import KoreanLox.Proofs.Evaluation.Activation
import KoreanLox.Proofs.Session.History
import KoreanLox.Proofs.Session.CallDepth
import KoreanLox.Proofs.Grammar.Naturality
import KoreanLox.Proofs.Token.Names
import KoreanLox.Proofs.Token.Decomposition
import KoreanLox.Proofs.Tree.Numbering
import KoreanLox.Proofs.Scope.Acceptance
import KoreanLox.Proofs.Scope.Regularity
import KoreanLox.Proofs.Scope.Visit
import KoreanLox.Proofs.Store.Hosting
import KoreanLox.Proofs.Evaluation.Confinement
import KoreanLox.Proofs.Store.Exactness
import KoreanLox.Proofs.Evaluation.Placement
import KoreanLox.Proofs.Session.Consistency
import KoreanLox.Proofs.Session.Frames
import KoreanLox.Proofs.Evaluation.Likeness
import KoreanLox.Proofs.Evaluation.Simulation
import KoreanLox.Proofs.Scope.WellScoped
import KoreanLox.Proofs.Grammar.Derivation
import KoreanLox.Proofs.Grammar.Reading
import KoreanLox.Proofs.Grammar.Expressions
import KoreanLox.Proofs.Grammar.Statements
import KoreanLox.Proofs.Grammar.Wholeness
import KoreanLox.Proofs.Grammar.Linearisation
import KoreanLox.Proofs.Token.Joining
import KoreanLox.Proofs.Grammar.Joining
import KoreanLox.Proofs.Scope.Likeness
import KoreanLox.Proofs.Scope.Renaming
import KoreanLox.Proofs.Scope.Joining
import KoreanLox.Proofs.Evaluation.Joining
import KoreanLox.Proofs.Session.Likeness
import KoreanLox.Proofs.Session.Renaming
import KoreanLox.Proofs.Session.Joining
import KoreanLox.Proofs.Tree.Agreement
import KoreanLox.Proofs.Store.Agreement
import KoreanLox.Proofs.Console.Output
import KoreanLox.Proofs.Scope.Agreement
import KoreanLox.Proofs.Evaluation.Agreement
import KoreanLox.Proofs.Session.Agreement
import KoreanLox.Proofs.Session.Layout
import KoreanLox.Proofs.Session.Refusal
import KoreanLox.Proofs.Evaluation.Course
import KoreanLox.Proofs.Session.OutputLimit
import KoreanLox.Proofs.Store.Endurance
import KoreanLox.Proofs.Store.Grounding
import KoreanLox.Proofs.Evaluation.Grounding
import KoreanLox.Proofs.Session.Growth
import KoreanLox.Proofs.Grammar.Track
import KoreanLox.Proofs.Grammar.Abreast
import KoreanLox.Proofs.Grammar.Totality
import KoreanLox.Proofs.Grammar.Composition
import KoreanLox.Proofs.Grammar.Isolation
import KoreanLox.Proofs.Evaluation.LineCalls
import KoreanLox.Proofs.Text.Lines
import KoreanLox.Proofs.Evaluation.LineReading
import KoreanLox.Proofs.Command.Conversation
import KoreanLox.Proofs.Token.Lookahead
import KoreanLox.Proofs.Token.Reprinting
import KoreanLox.Proofs.Token.Spans
import KoreanLox.Proofs.Token.Translation
import KoreanLox.Proofs.Tree.LookUps
import KoreanLox.Proofs.Scope.Lexical
import KoreanLox.Proofs.Scope.Walk
import KoreanLox.Proofs.Session.Labels
import KoreanLox.Proofs.Session.Returns
import KoreanLox.Proofs.Scope.Ways
import KoreanLox.Proofs.Session.Assignment
import KoreanLox.Proofs.Store.Rendering
import KoreanLox.Proofs.Evaluation.Blame
import KoreanLox.Proofs.Scope.Places
import KoreanLox.Proofs.Session.Failures
import KoreanLox.Proofs.Scope.Trails
import KoreanLox.Proofs.Evaluation.Changes
import KoreanLox.Proofs.Evaluation.Provenance
import KoreanLox.Proofs.Session.Provenance
import KoreanLox.Proofs.Session.Retention
import KoreanLox.Proofs.Evaluation.Dispatch
import KoreanLox.Proofs.Evaluation.Construction
import KoreanLox.Proofs.Session.Initializers
import KoreanLox.Proofs.Evaluation.Inheritance
import KoreanLox.Proofs.Session.Dispatch
import KoreanLox.Proofs.Store.Slots
import KoreanLox.Proofs.Number.Value
import KoreanLox.Proofs.Evaluation.SharedArrays
import KoreanLox.Proofs.Number.Rounding
import KoreanLox.Proofs.Number.Text
import KoreanLox.Proofs.Tree.Form
import KoreanLox.Proofs.Tree.Printing
import KoreanLox.Proofs.Grammar.Printing
import KoreanLox.Proofs.Tree.Copies
import KoreanLox.Proofs.Tree.Parallel
import KoreanLox.Proofs.Grammar.Counted
import KoreanLox.Proofs.Store.Parallel
import KoreanLox.Proofs.Evaluation.Parallel
import KoreanLox.Proofs.Evaluation.Lockstep
import KoreanLox.Proofs.Evaluation.Counted
import KoreanLox.Proofs.Scope.Parallel
import KoreanLox.Proofs.Scope.Cleanness
import KoreanLox.Proofs.Scope.Counted
import KoreanLox.Proofs.Session.Counted
import KoreanLox.Proofs.Text.Occurrence
import KoreanLox.Proofs.Number.Whole
import KoreanLox.Proofs.Evaluation.Texts
import KoreanLox.Proofs.Grammar.Course
import KoreanLox.Proofs.Grammar.Recorder
import KoreanLox.Proofs.Grammar.Recorded
import KoreanLox.Proofs.Grammar.Limits
