import Scriptlet.CommandLine.Arguments
import Scriptlet.CommandLine.Transcript
import Scriptlet.Decimal.FloatText
import Scriptlet.Decimal.Read
import Scriptlet.Decimal.Shortest
import Scriptlet.Diagnostic
import Scriptlet.Diagnostic.Kind
import Scriptlet.Evaluation
import Scriptlet.Fault.Lexical
import Scriptlet.Fault.Runtime
import Scriptlet.Fault.Syntactic
import Scriptlet.Frame
import Scriptlet.Grammar.Level
import Scriptlet.Grammar.Parse
import Scriptlet.Grammar.Parser
import Scriptlet.Grammar.Program
import Scriptlet.Grammar.Progress
import Scriptlet.Machine
import Scriptlet.Main
import Scriptlet.Proofs.Decimal.Conversion
import Scriptlet.Proofs.Decimal.FloatOrder
import Scriptlet.Proofs.Decimal.FloatText
import Scriptlet.Proofs.Decimal.Layout
import Scriptlet.Proofs.Decimal.Rounding
import Scriptlet.Proofs.Evaluation.Activities
import Scriptlet.Proofs.Evaluation.Confinement
import Scriptlet.Proofs.Evaluation.Declaring
import Scriptlet.Proofs.Evaluation.Ending
import Scriptlet.Proofs.Evaluation.Ensured
import Scriptlet.Proofs.Evaluation.Inertness
import Scriptlet.Proofs.Evaluation.Integers
import Scriptlet.Proofs.Evaluation.Matching
import Scriptlet.Proofs.Evaluation.Places
import Scriptlet.Proofs.Evaluation.Rephrasing
import Scriptlet.Proofs.Evaluation.Returning
import Scriptlet.Proofs.Evaluation.Safety
import Scriptlet.Proofs.Evaluation.Settling
import Scriptlet.Proofs.Evaluation.Simulation
import Scriptlet.Proofs.Evaluation.Upheld
import Scriptlet.Proofs.Evaluation.UpheldRuns
import Scriptlet.Proofs.Evaluation.Valueless
import Scriptlet.Proofs.Evaluation.Watched
import Scriptlet.Proofs.Grammar.AcceptedExpressions
import Scriptlet.Proofs.Grammar.AcceptedPrograms
import Scriptlet.Proofs.Grammar.Beginnings
import Scriptlet.Proofs.Grammar.BlankLines
import Scriptlet.Proofs.Grammar.Cursor
import Scriptlet.Proofs.Grammar.Excerpts
import Scriptlet.Proofs.Grammar.Extents
import Scriptlet.Proofs.Grammar.FirstFault
import Scriptlet.Proofs.Grammar.InBounds
import Scriptlet.Proofs.Grammar.IntegerLiterals
import Scriptlet.Proofs.Grammar.JoinedTexts
import Scriptlet.Proofs.Grammar.LineBreaks
import Scriptlet.Proofs.Grammar.Mirrored
import Scriptlet.Proofs.Grammar.Origins
import Scriptlet.Proofs.Grammar.Placement
import Scriptlet.Proofs.Grammar.PromptExpressions
import Scriptlet.Proofs.Grammar.PromptPrograms
import Scriptlet.Proofs.Grammar.Promptness
import Scriptlet.Proofs.Grammar.Reading
import Scriptlet.Proofs.Grammar.Repetition
import Scriptlet.Proofs.Grammar.Soundness
import Scriptlet.Proofs.Grammar.Unambiguous
import Scriptlet.Proofs.Grammar.WrittenExpressions
import Scriptlet.Proofs.Grammar.WrittenPrograms
import Scriptlet.Proofs.Session.Carets
import Scriptlet.Proofs.Session.Contained
import Scriptlet.Proofs.Session.Endings
import Scriptlet.Proofs.Session.Identity
import Scriptlet.Proofs.Session.Normalized
import Scriptlet.Proofs.Session.Points
import Scriptlet.Proofs.Session.ShownInts
import Scriptlet.Proofs.Session.Split
import Scriptlet.Proofs.Session.Stacks
import Scriptlet.Proofs.Source.Counting
import Scriptlet.Proofs.Store.Bare
import Scriptlet.Proofs.Store.Bound
import Scriptlet.Proofs.Store.Evolution
import Scriptlet.Proofs.Store.Matching
import Scriptlet.Proofs.Store.Placed
import Scriptlet.Proofs.Store.Region
import Scriptlet.Proofs.Store.Visibility
import Scriptlet.Proofs.Token.Admitted
import Scriptlet.Proofs.Token.Covering
import Scriptlet.Proofs.Token.Lines
import Scriptlet.Proofs.Token.Lowered
import Scriptlet.Proofs.Token.Numbers
import Scriptlet.Proofs.Token.Placing
import Scriptlet.Proofs.Token.Recutting
import Scriptlet.Proofs.Token.Respacing
import Scriptlet.Proofs.Token.Returns
import Scriptlet.Proofs.Tree.Bare
import Scriptlet.Proofs.Tree.Bracketed
import Scriptlet.Proofs.Tree.Forms
import Scriptlet.Proofs.Tree.LeafTexts
import Scriptlet.Proofs.Tree.Nesting
import Scriptlet.Proofs.Tree.Normalized
import Scriptlet.Proofs.Tree.Rephrased
import Scriptlet.Proofs.Tree.Shape
import Scriptlet.Proofs.Tree.StatementForms
import Scriptlet.Proofs.Tree.Words
import Scriptlet.Proofs.Value.Mapped
import Scriptlet.Proofs.Value.NumberOrder
import Scriptlet.Report
import Scriptlet.Runner
import Scriptlet.Session
import Scriptlet.Source
import Scriptlet.Store
import Scriptlet.Store.Inspect
import Scriptlet.Text.Blank
import Scriptlet.Text.Hidden
import Scriptlet.Text.Quoted
import Scriptlet.Token
import Scriptlet.Token.Scan
import Scriptlet.Token.Segment
import Scriptlet.Tree.Expression
import Scriptlet.Tree.Outline
import Scriptlet.Tree.Statement
import Scriptlet.Value
import Scriptlet.Value.Arithmetic
