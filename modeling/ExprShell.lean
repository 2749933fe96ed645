import ExprShell.Main
import ExprShell.Proofs.Eval.Congruence
import ExprShell.Proofs.Eval.StackDiscipline
import ExprShell.Proofs.Eval.Isolation
import ExprShell.Proofs.Eval.Direct
import ExprShell.Proofs.Eval.Termination
import ExprShell.Proofs.Number
import ExprShell.Proofs.Token.Account
import ExprShell.Proofs.Token.Nesting
import ExprShell.Proofs.Reader.Plan
import ExprShell.Proofs.Reader.Agreement
import ExprShell.Proofs.Reader.Final
import ExprShell.Proofs.Reader.ReadBack
import ExprShell.Proofs.Reader.Delimiters
import ExprShell.Proofs.Node.Inert
import ExprShell.Proofs.Reader.Contract
import ExprShell.Proofs.Environment.Clean
import ExprShell.Proofs.Eval.Inert
import ExprShell.Proofs.Pattern.Meaning
import ExprShell.Proofs.Session.Submissions
import ExprShell.Proofs.Eval.Selection
import ExprShell.Proofs.Json.RoundTrip
import ExprShell.Proofs.Reader.CodeReadBack
import ExprShell.Proofs.Token.Grammar
import ExprShell.Proofs.Token.Content
import ExprShell.Proofs.Token.Lines
import ExprShell.Proofs.Reader.Literals
import ExprShell.Proofs.Reader.LiteralReadBack
import ExprShell.Proofs.Reader.Completion
import ExprShell.Proofs.Eval.Watch
import ExprShell.Proofs.Session.Exit
import ExprShell.Proofs.Session.Interaction
import ExprShell.Proofs.Node.Role
import ExprShell.Proofs.Reader.Trees
import ExprShell.Proofs.Reader.Machine
import ExprShell.Proofs.Reader.Progress
import ExprShell.Proofs.Eval.Carrying
import ExprShell.Proofs.Eval.Unchecked
import ExprShell.Proofs.Session.Indexing
import ExprShell.Proofs.Session.RecursionLimit
import ExprShell.Proofs.Tool.Arithmetic
import ExprShell.Proofs.Pattern.Substitution
import ExprShell.Proofs.Session.ParsedCode
import ExprShell.Proofs.Reader.Spelling
import ExprShell.Proofs.Reader.QuotedList
import ExprShell.Proofs.Session.QuotedCall
import ExprShell.Proofs.Reader.Bound
import ExprShell.Proofs.Reader.Concatenation
import ExprShell.Proofs.Reader.Iteration
import ExprShell.Proofs.Reader.Extent
import ExprShell.Proofs.Reader.Arguments
import ExprShell.Proofs.Reader.Sinking
import ExprShell.Proofs.Reader.BareForms
import ExprShell.Proofs.Pattern.Order
import ExprShell.Proofs.Reader.Depths
import ExprShell.Proofs.Text.Split
import ExprShell.Proofs.Tool.Split
import ExprShell.Proofs.Eval.Recording
import ExprShell.Proofs.Eval.Stages
import ExprShell.Proofs.Eval.External
import ExprShell.Proofs.Environment.Resolution
