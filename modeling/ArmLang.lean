import ArmLang.Compilation
import ArmLang.Execution.Run
import ArmLang.Instruction.Session
import ArmLang.Motion.Arm
import ArmLang.Proofs.Store.Operation
import ArmLang.Proofs.Store.Trace
import ArmLang.Proofs.Flattening
import ArmLang.Proofs.Interpreter.Basic
import ArmLang.Proofs.Interpreter.Simulation
import ArmLang.Proofs.Execution.Requests
import ArmLang.Proofs.Execution.Recorder
import ArmLang.Proofs.Instruction.Emission
import ArmLang.Proofs.Interpreter.Refinement
import ArmLang.Proofs.Instruction.Bracket
import ArmLang.Proofs.Execution.Refusals
import ArmLang.Proofs.Grammar.Expr
import ArmLang.Proofs.Grammar.ExprSoundness
import ArmLang.Proofs.Grammar.Statement
import ArmLang.Proofs.Grammar.StatementSoundness
import ArmLang.Proofs.Grammar.Program
import ArmLang.Proofs.Grammar.ExprCompleteness
import ArmLang.Proofs.Rendering.Basic
import ArmLang.Proofs.Rendering.Expr
import ArmLang.Proofs.Rendering.Statement
import ArmLang.Proofs.Rendering.Body
import ArmLang.Proofs.Rendering.Program
import ArmLang.Proofs.Execution.Ledger
import ArmLang.Proofs.Execution.Gating
import ArmLang.Proofs.Motion.Operation
import ArmLang.Proofs.Text.Classes
import ArmLang.Proofs.Text.Lines
import ArmLang.Proofs.Token.Language
import ArmLang.Proofs.Token.Table
import ArmLang.Proofs.Token.Lexeme
import ArmLang.Proofs.Token.Trace
import ArmLang.Proofs.Token.Tiling
import ArmLang.Proofs.Token.Loosening
import ArmLang.Proofs.Token.Spacing
import ArmLang.Proofs.Token.Longest
import ArmLang.Proofs.Token.Comment
import ArmLang.Proofs.Program.Combinators
import ArmLang.Proofs.Program.Locality
import ArmLang.Proofs.Program.Lines
import ArmLang.Proofs.Walk.Basic
import ArmLang.Proofs.Walk.Parser
import ArmLang.Proofs.Walk.Agreement
import ArmLang.Proofs.Walk.Expr
import ArmLang.Proofs.Walk.Statement
import ArmLang.Proofs.Walk.Body
import ArmLang.Proofs.Walk.Safety
import ArmLang.Proofs.Program.Nodes
import ArmLang.Proofs.Store.Replay
import ArmLang.Proofs.Layout.Basic
import ArmLang.Proofs.Layout.Reading
import ArmLang.Proofs.Layout.Read
import ArmLang.Proofs.Layout.Flatten
import ArmLang.Proofs.Layout.Independence
import ArmLang.Proofs.Layout.Places
import ArmLang.Proofs.Instruction.Report
import ArmLang.Proofs.Compilation
import ArmLang.Proofs.Program.Context
import ArmLang.Proofs.Instruction.Untaken
import ArmLang.Proofs.Execution.Effective
import ArmLang.Proofs.Execution.Timeline
import ArmLang.Proofs.Motion.Trace
import ArmLang.Proofs.Rendering.Quotation
import ArmLang.Proofs.Instruction.Session
import ArmLang.Proofs.Motion.Limits
import ArmLang.Proofs.Motion.Orientation
import ArmLang.Proofs.Evaluation.Integral
import ArmLang.Proofs.Evaluation.Chain
import ArmLang.Proofs.Evaluation.Purity
import ArmLang.Proofs.Store.Field
import ArmLang.Proofs.Rendering.Integer
import ArmLang.Proofs.Token.LineByLine
import ArmLang.Proofs.Execution.Extension
import ArmLang.Proofs.Value.Projection
import ArmLang.Proofs.Numeral.Provenance
import ArmLang.Proofs.Numeral.Readers
import ArmLang.Proofs.Numeral.Value
import ArmLang.Proofs.Numeral.Agreement
