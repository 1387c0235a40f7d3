import OpenExpr.Main
import OpenExpr.Program.Walk
import OpenExpr.Proofs.Chain.Precedence
import OpenExpr.Proofs.Scoping.Lexical
import OpenExpr.Proofs.Shell.Agreement
import OpenExpr.Proofs.Shell.Comments
import OpenExpr.Proofs.Recovery.Reader
import OpenExpr.Proofs.Shell.Pieces
import OpenExpr.Proofs.Recovery.Statement
import OpenExpr.Proofs.Recovery.Rounds
import OpenExpr.Proofs.Recovery.Locality
import OpenExpr.Proofs.Registry.Retry
import OpenExpr.Proofs.Shell.HeldBack
import OpenExpr.Proofs.Growth.Prefixes
import OpenExpr.Proofs.Growth.Expression
import OpenExpr.Proofs.Growth.Unit
import OpenExpr.Proofs.Growth.Source
import OpenExpr.Proofs.Shell.Prompt
import OpenExpr.Proofs.Registry.Log
import OpenExpr.Proofs.Registry.Functions
import OpenExpr.Proofs.Meaning.Diagnostics
import OpenExpr.Proofs.Levels.Source
import OpenExpr.Proofs.Registry.Arity
import OpenExpr.Proofs.Meaning.Failures
import OpenExpr.Proofs.Shell.Terminators
import OpenExpr.Proofs.Token.Shift
import OpenExpr.Proofs.Greedy.Expression
import OpenExpr.Proofs.Locals.Unit
import OpenExpr.Proofs.Walk.Collected
import OpenExpr.Proofs.Shell.Stream
import OpenExpr.Proofs.Scoping.Apart
import OpenExpr.Proofs.Span.Source
import OpenExpr.Proofs.Scoping.Stack
import OpenExpr.Proofs.Scoping.Balance
import OpenExpr.Proofs.Report.Caret
import OpenExpr.Proofs.Progress.Source
