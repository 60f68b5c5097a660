import GotoBasic.Text.Blank
import GotoBasic.Text.Lines
import GotoBasic.Text.Quoted
import GotoBasic.Pos
import GotoBasic.Binary64.Decimal
import GotoBasic.Value.Apply
import GotoBasic.Env
import GotoBasic.Line.Parser
import GotoBasic.Token.Lexer
import GotoBasic.Run
import GotoBasic.Session
import GotoBasic.Main
import GotoBasic.Proofs.Token.StringRule
import GotoBasic.Proofs.Token.Coverage
import GotoBasic.Proofs.Parser.Grammatical
import GotoBasic.Proofs.Parser.ViablePrefix
import GotoBasic.Proofs.Parser.Recast
import GotoBasic.Proofs.Run.SplitLine
import GotoBasic.Proofs.Run.Safety
import GotoBasic.Proofs.Syntax.RoundTrip
import GotoBasic.Proofs.Kind.Sound
import GotoBasic.Proofs.Program.Insertion
import GotoBasic.Proofs.Run.ExtraVariable
import GotoBasic.Proofs.Run.ExitByJump
import GotoBasic.Proofs.Run.ControlFlow
import GotoBasic.Proofs.Run.LoopByJumps
import GotoBasic.Proofs.Token.Alphabet
import GotoBasic.Proofs.Run.Names
import GotoBasic.Proofs.Run.StraightThrough
import GotoBasic.Proofs.Run.Relabelled
import GotoBasic.Proofs.Program.LineEnds
import GotoBasic.Proofs.Syntax.Positions
import GotoBasic.Proofs.Cli.Report
import GotoBasic.Proofs.Token.Cut
import GotoBasic.Proofs.Parser.LineByLine
import GotoBasic.Proofs.Parser.Halting
import GotoBasic.Proofs.Program.Assembly
import GotoBasic.Proofs.Expr.Integral
import GotoBasic.Proofs.Value.Comparison
import GotoBasic.Proofs.Value.Division
import GotoBasic.Proofs.Program.IntegerText
import GotoBasic.Proofs.Run.ComputedJump
import GotoBasic.Proofs.Run.Sharing
import GotoBasic.Proofs.Program.Messages
