import ArmLang.Program.Expr

namespace ArmLang

inductive Compound
  | pos
  | frame
  | axis
  deriving DecidableEq, Repr

def Compound.dataType : Compound → DataType
  | pos => .pos
  | frame => .frame
  | axis => .axis

/-- Statements with the places where they begin. A body has a place of its own: that of its first
token, even if it is empty. -/
inductive Statement
  | block (start : Location) (body : List Statement)
  | routine (name : String) (start : Location) (body : List Statement) (location : Location)
  | motion (command target : String) (args : List (String × Expr)) (location : Location)
  | declare (type : DataType) (name : String) (init : Option Expr) (location : Location)
  | declareFields (type : Compound) (name : String) (fields : List (String × Expr))
      (location : Location)
  | setField (target field : String) (value : Expr) (location : Location)
  | ifThen (condition : Expr) (start : Location) (body : List Statement) (location : Location)
  | ifElse (condition : Expr) (start : Location) (body : List Statement) (elseStart : Location)
      (elseBody : List Statement) (location : Location)
  | wait (seconds : Float) (location : Location)
  | evaluate (e : Expr)

structure Program where
  start : Location := .unknown
  body : List Statement := []

def Statement.location : Statement → Location
  | block l _ | routine _ _ _ l | motion _ _ _ l | declare _ _ _ l | declareFields _ _ _ l
  | setField _ _ _ l | ifThen _ _ _ l | ifElse _ _ _ _ _ l | wait _ l => l
  | evaluate e => e.location

end ArmLang
