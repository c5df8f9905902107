import ArmLang.Instruction.Flatten

namespace ArmLang

/-- One generator of instructions for a series of programs. It works in place: the instructions so
far, the variables and the value evaluated last belong to the program at hand, and the problems stay
until they are taken out. -/
structure Session where
  code : List Instruction := []
  memory : Memory := {}
  pending : List (Issue SemanticError) := []

abbrev SessionM (α : Type) : Type := StateM Session α

namespace Session

def emit (i : Instruction) : SessionM Unit :=
  modify fun s => { s with code := s.code ++ [i] }

def report (e : SemanticError) (l : Location) : SessionM Unit :=
  modify fun s => { s with pending := s.pending ++ [⟨e, l⟩] }

def store : SessionM Store := do return (← get).memory.store

def setStore (t : Store) : SessionM Unit :=
  modify fun s => { s with memory := { s.memory with store := t } }

def setLast (v : Value) : SessionM Unit :=
  modify fun s => { s with memory := { s.memory with last := v } }

def number (v : Value) (l : Location) : SessionM (Option Float) := do
  let x := v.number?
  if x.isNone then report (.notNumeric v.dataType) l
  return x

def applyUnary (op : UnaryOp) (v : Value) (l : Location) : SessionM Value :=
  match op, v with
  | .negate, .int n => pure (.int (-n))
  | .negate, v => do
    let x ← number v l
    return .real (-(x.getD 0.0))
  | .not, v => do
    let x ← number v l
    return .real (Number.ofTruth (x.getD 0.0 == 0.0))

def applyBinary (op : BinaryOp) (v : Value) (vl : Location) (w : Value) (wl l : Location) :
    SessionM Value := do
  let x ← number v vl
  let y ← number w wl
  match x, y with
  | some a, some b => match op.apply? a b with
    | some c => return .real c
    | none =>
      report .divisionByZero l
      return .real 0.0
  | _, _ => return .real 0.0

def write (name : String) (v : Value) (l : Location) : SessionM Value := do
  let t ← store
  setStore ((t.assign? name v).getD t)
  emit ⟨"ASSIGN_" ++ name, [("variable", .char name), ("value", v)], l⟩
  return v

def assign (name : String) (type : DataType) (v : Value) (target value : Location) :
    SessionM Value := do
  match v.convert type with
  | .ok w => write name w target
  | .error e =>
    report (.assignment e name) value
    if type.isStructured then return .real 0.0 else write name type.zero target

/-- The value of a step becomes the last one. -/
def recorded (m : SessionM Value) : SessionM Value := do
  let v ← m
  setLast v
  return v

/-- The value of an expression, which becomes the last one, as those of its parts did before. -/
def evaluate : Expr → SessionM Value
  | .literal v _ => recorded (pure v)
  | .var name l => recorded do
    match (← store).value? name with
    | some v => return v
    | none =>
      report (.undefinedVariable name) l
      return .real 0.0
  | .unary op e _ => recorded do
    let v ← evaluate e
    applyUnary op v e.location
  | .binary op a b l => recorded do
    let v ← evaluate a
    let w ← evaluate b
    applyBinary op v a.location w b.location l
  | .assign target e _ => recorded do
    match target.varName? with
    | none =>
      report .targetNotVariable target.location
      return .real 0.0
    | some name => match (← store).dataType? name with
      | none =>
        report (.undefinedVariable name) target.location
        return .real 0.0
      | some type =>
        let v ← evaluate e
        assign name type v target.location e.location

def declareVariable (name : String) (type : DataType) (v : Value) : SessionM Unit := do
  let t ← store
  setStore (t.declare name type v)

def initialValue (type : DataType) (name : String) : Option Expr → SessionM Value
  | none => pure type.zero
  | some e => do
    match (← evaluate e).convert type with
    | .ok w => return w
    | .error err =>
      report (.declaration err name) e.location
      return type.zero

def setFields (type : Compound) (v : Value) : List (String × Expr) → SessionM Value
  | [] => pure v
  | (field, e) :: fields => do
    match ← number (← evaluate e) e.location with
    | none => setFields type v fields
    | some x => match v.setField? field x with
      | some w => setFields type w fields
      | none =>
        report (.noSuchField field type.dataType) e.location
        setFields type v fields

def setField (target field : String) (value : Expr) (l : Location) : SessionM Unit := do
  match (← store).dataType? target with
  | none => report (.undefinedVariable target) l
  | some type =>
    if !type.isStructured then report (.noFields field target type) l
    else match ← number (← evaluate value) value.location with
      | none => pure ()
      | some x => match (← store).setField? target field x with
        | some t => setStore t
        | none => report (.noSuchField field type) l

def evaluateArgs : List (String × Expr) → SessionM (List (String × Value))
  | [] => pure []
  | (name, e) :: args => do
    let v ← match e.varName? with
      | some var => pure (.char var)
      | none => evaluate e
    return (name, v) :: (← evaluateArgs args)

def flattenMotion (command target : String) (args : List (String × Expr)) (l : Location) :
    SessionM Unit := do
  match (← store).find? target with
  | none => report (.undefinedTarget target) l
  | some x => match Statement.motionTarget? x.value with
    | none => report (.targetNotSpatial target x.value.dataType) l
    | some goal =>
      let others ← evaluateArgs args
      emit ⟨command, others ++ [goal], l⟩

def evaluateCondition (condition : Expr) : SessionM Bool := do
  let x ← number (← evaluate condition) condition.location
  return x.any (· != 0.0)

mutual

def flattenStatement : Statement → SessionM Unit
  | .block _ body => flattenAll body
  | .routine _ _ body _ => flattenAll body
  | .motion command target args l => flattenMotion command target args l
  | .declare type name init l => do
    let v ← initialValue type name init
    declareVariable name type v
    emit ⟨"DECL_" ++ name, [("type", .char type.keyword), ("value", v)], l⟩
  | .declareFields type name fields l => do
    let v ← setFields type type.dataType.zero fields
    declareVariable name type.dataType v
    emit ⟨type.declaration.1, [("name", .char name), (type.declaration.2, v)], l⟩
  | .setField target field value l => setField target field value l
  | .ifThen condition start body l => do
    let taken ← evaluateCondition condition
    emit ⟨"IF_START", [("condition", .bool taken)], l⟩
    if taken then
      emit ⟨"THEN_BLOCK", [], start⟩
      flattenAll body
    emit ⟨"IF_END", [], l⟩
  | .ifElse condition start body elseStart elseBody l => do
    let taken ← evaluateCondition condition
    emit ⟨"IF_START", [("condition", .bool taken)], l⟩
    if taken then
      emit ⟨"THEN_BLOCK", [], start⟩
      flattenAll body
    else
      emit ⟨"ELSE_BLOCK", [], elseStart⟩
      flattenAll elseBody
    emit ⟨"IF_END", [], l⟩
  | .wait seconds l => emit ⟨"WAIT", [(Instruction.durationKey, .real seconds)], l⟩
  | .evaluate e => do
    let _ ← evaluate e

def flattenAll : List Statement → SessionM Unit
  | [] => pure ()
  | st :: sts => do
    flattenStatement st
    flattenAll sts

end

def clear : SessionM Unit :=
  modify fun s => { s with code := [], memory := {} }

/-- The instructions of the next program; there are none without a program. -/
def flattenProgram : Option Program → SessionM (List Instruction)
  | none => do
    clear
    return []
  | some p => do
    clear
    flattenAll p.body
    modifyGet fun s => (s.code, { s with code := [] })

def flatten (s : Session) (program : Option Program) : List Instruction × Session :=
  flattenProgram program s

def take (s : Session) : List (Issue SemanticError) × Session :=
  (s.pending, { s with pending := [] })

end Session

end ArmLang
