import ExprFront.Grammar.Session
import ExprFront.Main
import ExprFront.Proofs.Grammar.Acceptance
import ExprFront.Proofs.Grammar.Completeness
import ExprFront.Proofs.Grammar.Resumption
import ExprFront.Proofs.Grammar.ResumePoint
import ExprFront.Proofs.Grammar.ViablePrefix
import ExprFront.Proofs.Source.Cover
import ExprFront.Source.Session
import ExprFront.Proofs.Grammar.DepthScan
import ExprFront.Proofs.Grammar.FragmentRun
import ExprFront.Proofs.Source.Spelling
import ExprFront.Proofs.Source.MaximalMunch
import ExprFront.Proofs.Source.Respacing
import ExprFront.Grammar.Descent
import ExprFront.Proofs.Grammar.CursorMoves
import ExprFront.Proofs.Grammar.CursorRules
import ExprFront.Proofs.Grammar.CursorParse
import ExprFront.Proofs.Grammar.SteadyCursor
import ExprFront.Proofs.Grammar.Containment
import ExprFront.Proofs.Grammar.AfterEnd
import ExprFront.Proofs.Grammar.LimitStability
import ExprFront.Source.Scanner
import ExprFront.Proofs.Source.ScannerState
import ExprFront.Proofs.Source.ScannerFollows
import ExprFront.Proofs.Source.LineNumbers
import ExprFront.Proofs.Source.Joining
import ExprFront.Proofs.Grammar.Correspondence
import ExprFront.Proofs.Grammar.Relabelling
import ExprFront.Proofs.Grammar.PathScan
import ExprFront.Proofs.Grammar.StackRoom
import ExprFront.Proofs.Expr.Printing
import ExprFront.Proofs.Expr.ReadBack
import ExprFront.Proofs.CommandLine.SourceText
import ExprFront.Proofs.Text.Utf8
import ExprFront.Proofs.CommandLine.ExitCodes
import ExprFront.Proofs.CommandLine.Prompt
import ExprFront.Proofs.Grammar.RuleContract
import ExprFront.Proofs.CommandLine.Locations
import ExprFront.Proofs.Expr.Building
import ExprFront.Proofs.Expr.EqualSources
