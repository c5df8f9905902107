import ArmLang.Program.Statement

namespace ArmLang

inductive Found
  | lineEnd
  | fileEnd
  | piece (text : String)
  deriving DecidableEq, Repr

def Found.text : Found → String
  | lineEnd => "end of line"
  | fileEnd => "end of file"
  | piece s => "'" ++ s ++ "'"

inductive GrammarError
  | noRoutineName
  | noRoutineOpening
  | noRoutineClosing
  | noRoutineEnd
  | noDataType
  | noVariableName
  | noLineEndAfterVariable
  | noCompoundName (type : Compound)
  | noCompoundOpening (type : Compound)
  | noFieldName
  | unknownFieldOf (field : String) (type : Compound)
  | noCompoundClosing (type : Compound)
  | noLineEndAfterCompound (type : Compound)
  | noMotionTarget
  | noMemberName
  | unknownField (field : String)
  | noMemberAssignment
  | noWaitOpening
  | badWaitTime
  | noWaitTime
  | noWaitClosing
  | noThen
  | noLineEndAfterThen
  | noLineEndAfterElse
  | noEndIf
  | badTarget
  | integerOutOfRange
  | badReal
  | noClosing
  | noExpression (found : Found)
  deriving DecidableEq, Repr

namespace GrammarError

def message : GrammarError → String
  | noRoutineName => "Expected function name after DEF"
  | noRoutineOpening => "Expected '(' after function name"
  | noRoutineClosing => "Expected ')' after parameters"
  | noRoutineEnd => "Expected 'END' after function body"
  | noDataType => "Expected data type after DECL"
  | noVariableName => "Expected variable name"
  | noLineEndAfterVariable => "Expected end of line after variable declaration"
  | noCompoundName t => "Expected " ++ t.dataType.keyword ++ " variable name"
  | noCompoundOpening t => "Expected '\x7b' to open " ++ t.dataType.keyword ++ " value"
  | noFieldName => "Expected field name"
  | unknownFieldOf field t => "Unknown field '" ++ field ++ "' for " ++ t.dataType.keyword
  | noCompoundClosing t => "Expected '\x7d' to close " ++ t.dataType.keyword ++ " value"
  | noLineEndAfterCompound t =>
    "Expected end of line after " ++ t.dataType.keyword ++ " declaration"
  | noMotionTarget => "Expected position name after motion command"
  | noMemberName => "Expected field name after '.'"
  | unknownField field => "Unknown field '" ++ field ++ "'"
  | noMemberAssignment => "Expected assignment after field name"
  | noWaitOpening => "Expected '(' after WAIT"
  | badWaitTime => "Invalid wait time"
  | noWaitTime => "Expected numeric wait time"
  | noWaitClosing => "Expected ')' after wait time"
  | noThen => "Expected 'THEN' after 'IF' condition"
  | noLineEndAfterThen => "Expected end of line after 'THEN'"
  | noLineEndAfterElse => "Expected end of line after 'ELSE'"
  | noEndIf => "Expected 'ENDIF' to close IF statement"
  | badTarget => "Invalid assignment target"
  | integerOutOfRange => "Integer literal out of range"
  | badReal => "Invalid real literal"
  | noClosing => "Expected ')' after expression"
  | noExpression found => "Expected expression, found " ++ found.text

end GrammarError

end ArmLang
