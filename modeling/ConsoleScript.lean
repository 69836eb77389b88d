import ConsoleScript.CommandLine.Dialogue
import ConsoleScript.CommandLine.Execution
import ConsoleScript.CommandLine.Invocation
import ConsoleScript.Diagnostic
import ConsoleScript.Evaluation.Environment
import ConsoleScript.Evaluation.Expression
import ConsoleScript.Evaluation.Fault
import ConsoleScript.Evaluation.Statement
import ConsoleScript.Evaluation.Trace
import ConsoleScript.Evaluation.Value
import ConsoleScript.Main
import ConsoleScript.Number.Arithmetic
import ConsoleScript.Number.Binary64
import ConsoleScript.Number.Decimal
import ConsoleScript.Number.Display
import ConsoleScript.Number.Literal
import ConsoleScript.Parsing.Cursor
import ConsoleScript.Parsing.Expression
import ConsoleScript.Parsing.Program
import ConsoleScript.Parsing.Statement
import ConsoleScript.Proofs.Adequacy
import ConsoleScript.Proofs.ArgumentOrder
import ConsoleScript.Proofs.AssignmentJournal
import ConsoleScript.Proofs.BigStep
import ConsoleScript.Proofs.BindingHistory
import ConsoleScript.Proofs.BlankText
import ConsoleScript.Proofs.CharacterBoundaries
import ConsoleScript.Proofs.CleanPaths
import ConsoleScript.Proofs.ConditionalNesting
import ConsoleScript.Proofs.EndlessLoops
import ConsoleScript.Proofs.EvaluationOrder
import ConsoleScript.Proofs.ExpressionGrammar
import ConsoleScript.Proofs.ExpressionPositions
import ConsoleScript.Proofs.ExpressionReading
import ConsoleScript.Proofs.FrontEnds
import ConsoleScript.Proofs.LayoutIndependence
import ConsoleScript.Proofs.LineCutting
import ConsoleScript.Proofs.LineRecovery
import ConsoleScript.Proofs.LineShift
import ConsoleScript.Proofs.LiteralValues
import ConsoleScript.Proofs.MessageLines
import ConsoleScript.Proofs.PlainEvaluation
import ConsoleScript.Proofs.PositionOrder
import ConsoleScript.Proofs.ProgramJoining
import ConsoleScript.Proofs.ProgramPositions
import ConsoleScript.Proofs.ProgramReading
import ConsoleScript.Proofs.QuotedWords
import ConsoleScript.Proofs.ReaderCalls
import ConsoleScript.Proofs.ReaderSteps
import ConsoleScript.Proofs.ReadingEnds
import ConsoleScript.Proofs.RefusedOutput
import ConsoleScript.Proofs.Relocation
import ConsoleScript.Proofs.ReportDelivery
import ConsoleScript.Proofs.Respelling
import ConsoleScript.Proofs.RunFailures
import ConsoleScript.Proofs.RunNames
import ConsoleScript.Proofs.RunProgress
import ConsoleScript.Proofs.RunSteps
import ConsoleScript.Proofs.SeparatorExchange
import ConsoleScript.Proofs.SessionBraces
import ConsoleScript.Proofs.SessionCourse
import ConsoleScript.Proofs.SessionEcho
import ConsoleScript.Proofs.SessionHistory
import ConsoleScript.Proofs.SettingsOverlay
import ConsoleScript.Proofs.SourcePositions
import ConsoleScript.Proofs.SourceTiling
import ConsoleScript.Proofs.StatementGrammar
import ConsoleScript.Proofs.StatementReading
import ConsoleScript.Proofs.TextJoining
import ConsoleScript.Proofs.TextLiterals
import ConsoleScript.Proofs.TokenLanguages
import ConsoleScript.Proofs.TokenPrinting
import ConsoleScript.Proofs.TreeDecoding
import ConsoleScript.Proofs.TreeShape
import ConsoleScript.Proofs.TreeSpans
import ConsoleScript.Report.Data
import ConsoleScript.Report.Listing
import ConsoleScript.Report.Log
import ConsoleScript.Report.TreeData
import ConsoleScript.Session
import ConsoleScript.Settings.Basic
import ConsoleScript.Settings.Decoding
import ConsoleScript.Settings.Loading
import ConsoleScript.Settings.Path
import ConsoleScript.Source.Position
import ConsoleScript.Text.Blank
import ConsoleScript.Text.Bytes
import ConsoleScript.Text.Character
import ConsoleScript.Text.Doubled
import ConsoleScript.Text.Letter
import ConsoleScript.Text.Lowercase
import ConsoleScript.Text.Printable
import ConsoleScript.Text.Quoted
import ConsoleScript.Token.Basic
import ConsoleScript.Token.Kind
import ConsoleScript.Token.Lexing
import ConsoleScript.Token.Piece
import ConsoleScript.Tree.Basic
import ConsoleScript.Tree.Operator
import ConsoleScript.Yaml.Node
import ConsoleScript.Yaml.Scalar
import ConsoleScript.Yaml.Tag
import ConsoleScript.Yaml.Token
