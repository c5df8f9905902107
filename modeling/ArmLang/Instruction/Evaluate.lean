import ArmLang.Instruction.Effect
import ArmLang.Program.Statement
import ArmLang.Store

namespace ArmLang

/-- What an operator makes of two numbers. Comparisons and logic give one for true and zero for
false; a number other than zero is true. Division by zero has no result. -/
def BinaryOp.apply? (op : BinaryOp) (a b : Float) : Option Float :=
  match op with
  | .or => some (Number.ofTruth (a != 0.0 || b != 0.0))
  | .and => some (Number.ofTruth (a != 0.0 && b != 0.0))
  | .equal => some (Number.ofTruth (a == b))
  | .notEqual => some (Number.ofTruth (a != b))
  | .less => some (Number.ofTruth (decide (a < b)))
  | .lessEqual => some (Number.ofTruth (decide (a ≤ b)))
  | .greater => some (Number.ofTruth (decide (b < a)))
  | .greaterEqual => some (Number.ofTruth (decide (b ≤ a)))
  | .add => some (a + b)
  | .subtract => some (a - b)
  | .multiply => some (a * b)
  | .divide => if b == 0.0 then none else some (a / b)

namespace Expr

def number (v : Value) (l : Location) : Step σ (Option Float) := do
  let x := v.number?
  if x.isNone then Step.note (.notNumeric v.dataType) l
  return x

/-- What a unary operator makes of a value. An integer is negated as an integer; where there is no
number, zero is taken. -/
def evaluateUnary (op : UnaryOp) (v : Value) (l : Location) : Step σ Value :=
  match op, v with
  | .negate, .int n => pure (.int (-n))
  | .negate, v => do
    let x ← number v l
    return .real (-(x.getD 0.0))
  | .not, v => do
    let x ← number v l
    return .real (Number.ofTruth (x.getD 0.0 == 0.0))

/-- What a binary operator makes of two values. Where one of them has no number, or there is no
result, zero is taken. -/
def evaluateBinary (op : BinaryOp) (v : Value) (vl : Location) (w : Value) (wl l : Location) :
    Step σ Value := do
  let x ← number v vl
  let y ← number w wl
  match x, y with
  | some a, some b => match op.apply? a b with
    | some c => return .real c
    | none =>
      Step.note .divisionByZero l
      return .real 0.0
  | _, _ => return .real 0.0

/-- Stores a value in a declared variable of the given type, converted to that type. A scalar takes
its zero if there is no conversion, and a compound variable is then left alone. -/
def assignValue (name : String) (type : DataType) (v : Value) (target value : Location) :
    Step Store Value := do
  let stored ← match v.convert type with
    | .ok w => pure (some w)
    | .error e => do
      Step.note (.assignment e name) value
      pure (if type.isStructured then none else some type.zero)
  match stored with
  | none => return .real 0.0
  | some w =>
    let s ← Step.get
    Step.put ((s.assign? name w).getD s)
    Step.emit ⟨"ASSIGN_" ++ name, [("variable", .char name), ("value", w)], target⟩
    return w

/-- The value of an expression. An assignment changes the store, emits an instruction and has the
stored value; one to an undeclared name does not even evaluate its right side. -/
def evaluate : Expr → Step Store Value
  | literal v _ => pure v
  | var name l => do
    match (← Step.get).value? name with
    | some v => return v
    | none =>
      Step.note (.undefinedVariable name) l
      return .real 0.0
  | unary op e _ => do
    let v ← evaluate e
    evaluateUnary op v e.location
  | binary op a b l => do
    let v ← evaluate a
    let w ← evaluate b
    evaluateBinary op v a.location w b.location l
  | assign target e _ => do
    match target.varName? with
    | none =>
      Step.note .targetNotVariable target.location
      return .real 0.0
    | some name => match (← Step.get).dataType? name with
      | none =>
        Step.note (.undefinedVariable name) target.location
        return .real 0.0
      | some type =>
        let v ← evaluate e
        assignValue name type v target.location e.location

end Expr

end ArmLang
