import ArmLang.Motion.Drive
import ArmLang.Proofs.Evaluation

namespace ArmLang

/-- What the declared variables hold. The type of a variable is that of the value it holds. -/
def Environment : Type := String → Option Value

namespace Environment

def empty : Environment := fun _ => none

def set (env : Environment) (name : String) (v : Value) : Environment :=
  fun other => if name = other then some v else env other

end Environment

def Expr.interpret : Expr → Environment → Value × Environment
  | .literal v _, env => (v, env)
  | .var name _, env => ((env name).getD (.real 0.0), env)
  | .unary op e _, env => (op.result (e.interpret env).1, (e.interpret env).2)
  | .binary op a b _, env =>
    let left := a.interpret env
    let right := b.interpret left.2
    (op.result left.1 right.1, right.2)
  | .assign target e _, env =>
    match target.varName? with
    | none => (.real 0.0, env)
    | some name => match env name with
      | none => (.real 0.0, env)
      | some old =>
        let value := e.interpret env
        match value.1.stored? old.dataType with
        | some w => (w, value.2.set name w)
        | none => (.real 0.0, value.2)

namespace Statement

def interpretFields (v : Value) : List (String × Expr) → Environment → Value × Environment
  | [], env => (v, env)
  | (field, e) :: fields, env =>
    let value := e.interpret env
    interpretFields ((value.1.number?.bind (v.setField? field)).getD v) fields value.2

def interpretInitial (type : DataType) : Option Expr → Environment → Value × Environment
  | none, env => (type.zero, env)
  | some e, env =>
    let value := e.interpret env
    ((value.1.convert? type).getD type.zero, value.2)

def interpretSetField (target field : String) (value : Expr) (env : Environment) : Environment :=
  if ((env target).map Value.dataType).any (·.isStructured) then
    let number := value.interpret env
    match number.1.number?.bind fun x => (number.2 target).bind fun v => v.setField? field x with
    | some v => number.2.set target v
    | none => number.2
  else env

/-- The path of a motion that is carried out; the relative ones are not. -/
def pathOf? : String → Option Path
  | "PTP" => some .ptp
  | "LIN" => some .lin
  | "CIRC" => some .circ
  | "SPLINE" => some .spline
  | _ => none

def callTo? (parameters : Dynamics) (path : Path) : Value → Option Call
  | .pos p | .frame p => some (.move path p parameters)
  | .axis j => some (.moveJoints j.toList parameters)
  | _ => none

mutual

/-- Walks through a statement and lists the requests to the drive that it comes across. -/
def interpret (parameters : Dynamics) : Statement → Environment → Environment × List Call
  | block _ body, env | routine _ _ body _, env => interpretAll parameters body env
  | motion command target _ _, env =>
    (env, ((pathOf? command).bind fun path => (env target).bind (callTo? parameters path)).toList)
  | declare type name init _, env =>
    let value := interpretInitial type init env
    (value.2.set name value.1, [])
  | declareFields type name fields _, env =>
    let value := interpretFields type.dataType.zero fields env
    (value.2.set name value.1, [])
  | setField target field value _, env => (interpretSetField target field value env, [])
  | ifThen condition _ body _, env =>
    let test := condition.interpret env
    if test.1.number?.any (· != 0.0) then interpretAll parameters body test.2 else (test.2, [])
  | ifElse condition _ body _ elseBody _, env =>
    let test := condition.interpret env
    if test.1.number?.any (· != 0.0) then interpretAll parameters body test.2
    else interpretAll parameters elseBody test.2
  | wait seconds _, env => (env, [.wait seconds])
  | evaluate e, env => ((e.interpret env).2, [])

def interpretAll (parameters : Dynamics) : List Statement → Environment → Environment × List Call
  | [], env => (env, [])
  | s :: ss, env =>
    let first := interpret parameters s env
    let others := interpretAll parameters ss first.1
    (others.1, first.2 ++ others.2)

end

end Statement

def Program.interpret (parameters : Dynamics) (p : Program) : List Call :=
  (Statement.interpretAll parameters p.body .empty).2

end ArmLang
