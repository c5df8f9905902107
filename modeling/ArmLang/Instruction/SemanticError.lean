import ArmLang.Value.Conversion

namespace ArmLang

inductive SemanticError
  | undefinedVariable (name : String)
  | divisionByZero
  | targetNotVariable
  | assignment (e : ConversionFailure) (name : String)
  | declaration (e : ConversionFailure) (name : String)
  | notNumeric (type : DataType)
  | noSuchField (field : String) (type : DataType)
  | noFields (field name : String) (type : DataType)
  | undefinedTarget (name : String)
  | targetNotSpatial (name : String) (type : DataType)
  deriving DecidableEq

namespace SemanticError

def message : SemanticError → String
  | undefinedVariable name => "Undefined variable '" ++ name ++ "'"
  | divisionByZero => "Division by zero"
  | targetNotVariable => "Assignment target must be a variable"
  | assignment e name => e.message ++ " in assignment to '" ++ name ++ "'"
  | declaration e name => e.message ++ " in declaration of '" ++ name ++ "'"
  | notNumeric type => "Cannot convert " ++ type.valueName ++ " value to a number"
  | noSuchField field type => "'" ++ field ++ "' is not a field of " ++ type.keyword
  | noFields field name type =>
    "Cannot assign field '" ++ field ++ "' of '" ++ name ++ "': " ++ type.keyword ++
      " has no fields"
  | undefinedTarget name => "Undefined motion target '" ++ name ++ "'"
  | targetNotSpatial name type =>
    "Motion target '" ++ name ++ "' is " ++ type.keyword ++ ", not a position"

end SemanticError

end ArmLang
