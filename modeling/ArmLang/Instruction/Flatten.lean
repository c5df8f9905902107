import ArmLang.Instruction.Evaluate

namespace ArmLang

/-- What a program leaves behind: its variables and the value evaluated last. -/
structure Memory where
  store : Store := .empty
  last : Value := .real 0.0
  deriving DecidableEq

/-- Evaluates an expression, whose value is then the last one. -/
def Expr.remember (e : Expr) : Step Memory Value := fun m =>
  let r := e.evaluate m.store
  ⟨r.value, ⟨r.state, r.value⟩, r.code, r.issues⟩

namespace Compound

/-- The command that declares a variable of the type, with the name of the argument for its value. -/
def declaration : Compound → String × String
  | pos => ("POSITION_DECL", "Position")
  | frame => ("FRAME_DECL", "Frame")
  | axis => ("AXIS_DECL", "Axis")

end Compound

namespace Statement

def declareVariable (name : String) (type : DataType) (v : Value) : Step Memory Unit := do
  let m ← Step.get
  Step.put { m with store := m.store.declare name type v }

def initialValue (type : DataType) (name : String) : Option Expr → Step Memory Value
  | none => pure type.zero
  | some e => do
    match (← e.remember).convert type with
    | .ok w => return w
    | .error err =>
      Step.note (.declaration err name) e.location
      return type.zero

def setFields (type : Compound) (v : Value) : List (String × Expr) → Step Memory Value
  | [] => pure v
  | (field, e) :: fields => do
    match ← Expr.number (← e.remember) e.location with
    | none => setFields type v fields
    | some x => match v.setField? field x with
      | some w => setFields type w fields
      | none =>
        Step.note (.noSuchField field type.dataType) e.location
        setFields type v fields

def flattenSetField (target field : String) (value : Expr) (l : Location) :
    Step Memory Unit := do
  match (← Step.get).store.dataType? target with
  | none => Step.note (.undefinedVariable target) l
  | some type =>
    if !type.isStructured then Step.note (.noFields field target type) l
    else match ← Expr.number (← value.remember) value.location with
      | none => pure ()
      | some x =>
        let m ← Step.get
        match m.store.setField? target field x with
        | some s => Step.put { m with store := s }
        | none => Step.note (.noSuchField field type) l

/-- The arguments of a motion command; a variable is passed on by name. -/
def evaluateArgs : List (String × Expr) → Step Memory (List (String × Value))
  | [] => pure []
  | (name, e) :: args => do
    let v ← match e.varName? with
      | some var => pure (.char var)
      | none => e.remember
    return (name, v) :: (← evaluateArgs args)

def motionTarget? : Value → Option (String × Value)
  | .pos p | .frame p => some (Instruction.poseKey, .pos p)
  | .axis j => some (Instruction.jointsKey, .axis j)
  | _ => none

/-- Emits a motion to what the target holds before the other arguments are evaluated. -/
def flattenMotion (command target : String) (args : List (String × Expr)) (l : Location) :
    Step Memory Unit := do
  match (← Step.get).store.find? target with
  | none => Step.note (.undefinedTarget target) l
  | some x => match motionTarget? x.value with
    | none => Step.note (.targetNotSpatial target x.value.dataType) l
    | some goal =>
      let others ← evaluateArgs args
      Step.emit ⟨command, others ++ [goal], l⟩

def evaluateCondition (condition : Expr) : Step Memory Bool := do
  let x ← Expr.number (← condition.remember) condition.location
  return x.any (· != 0.0)

mutual

/-- The instructions of a statement. A routine runs where it stands, and of a conditional statement
only the branch that is taken is flattened. -/
def flatten : Statement → Step Memory Unit
  | block _ body => flattenAll body
  | routine _ _ body _ => flattenAll body
  | motion command target args l => flattenMotion command target args l
  | declare type name init l => do
    let v ← initialValue type name init
    declareVariable name type v
    Step.emit ⟨"DECL_" ++ name, [("type", .char type.keyword), ("value", v)], l⟩
  | declareFields type name fields l => do
    let v ← setFields type type.dataType.zero fields
    declareVariable name type.dataType v
    Step.emit
      ⟨type.declaration.1, [("name", .char name), (type.declaration.2, v)], l⟩
  | setField target field value l => flattenSetField target field value l
  | ifThen condition start body l => do
    let taken ← evaluateCondition condition
    Step.emit ⟨"IF_START", [("condition", .bool taken)], l⟩
    if taken then
      Step.emit ⟨"THEN_BLOCK", [], start⟩
      flattenAll body
    Step.emit ⟨"IF_END", [], l⟩
  | ifElse condition start body elseStart elseBody l => do
    let taken ← evaluateCondition condition
    Step.emit ⟨"IF_START", [("condition", .bool taken)], l⟩
    if taken then
      Step.emit ⟨"THEN_BLOCK", [], start⟩
      flattenAll body
    else
      Step.emit ⟨"ELSE_BLOCK", [], elseStart⟩
      flattenAll elseBody
    Step.emit ⟨"IF_END", [], l⟩
  | wait seconds l => Step.emit ⟨"WAIT", [(Instruction.durationKey, .real seconds)], l⟩
  | evaluate e => do
    let _ ← e.remember

def flattenAll : List Statement → Step Memory Unit
  | [] => pure ()
  | s :: ss => do
    flatten s
    flattenAll ss

end

end Statement

def Program.flatten (p : Program) : Effect Memory Unit := Statement.flattenAll p.body {}

end ArmLang
