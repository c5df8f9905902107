import ArmLang.Proofs.Walk.Basic

namespace ArmLang

def Tier.operatorKinds : Tier → List Kind
  | disjunction => [.or]
  | conjunction => [.and]
  | equality => [.equal, .notEqual]
  | comparison => [.less, .greater, .lessEqual, .greaterEqual]
  | sum => [.plus, .minus]
  | product => [.times, .divide]

/-- The level that binds tighter, if there is one. -/
def Tier.next : Tier → Tier
  | disjunction => conjunction
  | conjunction => equality
  | equality => comparison
  | comparison => sum
  | sum | product => product

namespace Walk

/-! The rules of the grammar, each with the rules that it goes back to as arguments. -/

section

variable (expression primary unary : Walk Expr) (level operand : Tier → Walk Expr)
  (chain : Tier → Expr → Walk Expr)

abbrev expressionRule : Walk Expr := do
  let target ← level .disjunction
  match ← acceptAny (· = .assign) with
  | some sign =>
    let value ← expression
    if target.varName?.isSome then
      return .assign target value target.location
    else
      noteAt .badTarget sign.location
      return target
  | none => return target

abbrev levelRule (t : Tier) : Walk Expr := do
  chain t (← operand t)

abbrev chainRule (t : Tier) (left : Expr) : Walk Expr := do
  match ← acceptAny t.operatorKinds.contains with
  | some o =>
    let right ← operand t
    match BinaryOp.ofKind? o.kind with
    | some op => chain t (.binary op left right left.location)
    | none => chain t left
  | none => return left

abbrev operandRule (t : Tier) : Walk Expr :=
  if t = .product then unary else level t.next

abbrev unaryRule : Walk Expr := do
  match ← acceptAny fun k => k = .minus || k = .not with
  | some o =>
    return .unary (if o.kind = .minus then .negate else .not) (← unary) o.location
  | none => primary

abbrev primaryRule : Walk Expr := do
  let t ← peek
  if t.kind = .leftParen then
    let _ ← advance
    let e ← expression
    acceptOrNote .rightParen .noClosing
    return e
  else
    match Expr.ofToken t with
    | .ok e =>
      let _ ← advance
      return e
    | .error e => failHere e

end

-- The rules go back to one another here, handed over as steps like that of `synchronize`.

mutual

def expression : Walk Expr := expressionRule (by apply expression) (by apply level)
partial_fixpoint

def level (t : Tier) : Walk Expr := levelRule (by apply operand) (by apply chain) t
partial_fixpoint

def chain (t : Tier) (left : Expr) : Walk Expr :=
  chainRule (by apply operand) (by apply chain) t left
partial_fixpoint

def operand (t : Tier) : Walk Expr := operandRule (by apply unary) (by apply level) t
partial_fixpoint

def unary : Walk Expr := unaryRule (by apply primary) (by apply unary)
partial_fixpoint

def primary : Walk Expr := primaryRule (by apply expression)
partial_fixpoint

end

/-- One field of a compound value, a name and an expression, and those that follow behind commas. -/
abbrev fieldsRule (fields : Compound → Walk (List (String × Expr))) (type : Compound) :
    Walk (List (String × Expr)) := do
  let field ← expect .identifier .noFieldName
  if !type.dataType.fieldNames.contains field.text then
    failAt (.unknownFieldOf field.text type) field.location
  else
    let e ← expression
    let more ← (do if ← accept .comma then fields type else return [])
    return (field.text, e) :: more

def fields (type : Compound) : Walk (List (String × Expr)) :=
  fieldsRule (by apply fields) type
partial_fixpoint

def compound (type : Compound) : Walk (List (String × Expr)) := do
  if ← accept .assign then
    let _ ← expect .leftBrace (.noCompoundOpening type)
    let value ← (do if (← peek).kind = .rightBrace then return [] else fields type)
    let _ ← expect .rightBrace (.noCompoundClosing type)
    return value
  else return []

def compoundDeclaration (type : Compound) (start : Location) : Walk Statement := do
  let name ← expect .identifier (.noCompoundName type)
  let value ← compound type
  acceptOrNote .lineEnd (.noLineEndAfterCompound type)
  return .declareFields type name.text value start

def scalarDeclaration (type : DataType) (start : Location) : Walk Statement := do
  let name ← expect .identifier .noVariableName
  let init ← if ← accept .assign then (do return some (← expression)) else pure none
  acceptOrNote .lineEnd .noLineEndAfterVariable
  return .declare type name.text init start

def variableDeclaration : Walk Statement := do
  let start ← previous
  match (← peek).kind with
  | .keyword (.type type) =>
    let _ ← advance
    match type.compound? with
    | some c => compoundDeclaration c start.location
    | none => scalarDeclaration type start.location
  | _ => failHere .noDataType

def motion (word : Token) : Walk Statement := do
  let target ← expect .identifier .noMotionTarget
  return .motion word.kind.name target.text [("position", .var target.text target.location)]
    word.location

def memberAssignment : Walk Statement := do
  let target ← advance
  let _ ← advance
  let field ← expect .identifier .noMemberName
  if !(Pose.fieldNames ++ Joints.fieldNames).contains field.text then
    failAt (.unknownField field.text) field.location
  else
    let _ ← expect .assign .noMemberAssignment
    let value ← expression
    return .setField target.text field.text value target.location

def waitStatement : Walk Statement := do
  let start ← previous
  let _ ← expect .leftParen .noWaitOpening
  let time ← peek
  if time.kind = .integer ∨ time.kind = .real then
    match Number.real? time.text with
    | some seconds =>
      let _ ← advance
      let _ ← expect .rightParen .noWaitClosing
      return .wait seconds start.location
    | none => failHere .badWaitTime
  else failHere .noWaitTime

def expressionStatement : Walk Statement := do
  let e ← expression
  let _ ← accept .lineEnd
  return .evaluate e

def routineHead : Walk String := do
  let name ← expect .identifier .noRoutineName
  let _ ← expect .leftParen .noRoutineOpening
  let _ ← expect .rightParen .noRoutineClosing
  return name.text

def condition : Walk Expr := do
  let e ← expression
  let _ ← expect (.keyword .thenWord) .noThen
  let _ ← expect .lineEnd .noLineEndAfterThen
  return e

def elseHead : Walk Bool := do
  let more ← accept (.keyword .elseWord)
  if more then
    let _ ← expect .lineEnd .noLineEndAfterElse
  return more

def giveUp (issue : Issue GrammarError) : Walk (Option Statement) := do
  noteAt issue.cause issue.location
  synchronize
  return none

section

variable (body : Bool → Walk (List Statement)) (routineDeclaration conditional : Walk Statement)
  (round declaration statement : Walk (Option Statement))

/-- The statements up to the end, or, inside another statement, up to a token that closes the
body. -/
abbrev bodyRule (nested : Bool) : Walk (List Statement) := do
  if ← atEnd then return []
  else if nested && Statement.closesBody (← peek).kind then return []
  else
    let o ← round
    let more ← body nested
    return o.toList ++ more

/-- One round of reading a body: a statement or what is given up in its place. -/
abbrev roundRule (tokens : List Token) (c : Cursor) :
    Option (Except (Issue GrammarError) (Option Statement) × Cursor) := do
  -- A problem is not passed on but given up here, so this is not a composition of walks.
  match ← declaration tokens c with
  | (.ok o, c) => return (.ok o, c)
  | (.error issue, c) => giveUp issue tokens c

abbrev declarationRule : Walk (Option Statement) := do
  if ← accept (.keyword .defWord) then
    return some (← routineDeclaration)
  else if ← accept (.keyword .decl) then
    return some (← variableDeclaration)
  else statement

abbrev statementRule : Walk (Option Statement) := do
  match (← peek).kind with
  | .keyword (.motion _ _) =>
    let word ← advance
    return some (← motion word)
  | .keyword .ifWord =>
    let _ ← advance
    return some (← conditional)
  | .keyword .wait =>
    let _ ← advance
    return some (← waitStatement)
  | .keyword .returnWord | .lineEnd =>
    let _ ← advance
    return none
  | .identifier =>
    if (← peekNext).kind = .dot then return some (← memberAssignment)
    else return some (← expressionStatement)
  | _ => return some (← expressionStatement)

abbrev routineRule : Walk Statement := do
  let start ← previous
  let name ← routineHead
  let first ← peek
  let statements ← body true
  let _ ← expect (.keyword .endWord) .noRoutineEnd
  return .routine name first.location statements start.location

abbrev conditionalRule : Walk Statement := do
  let start ← previous
  let condition ← condition
  let first ← peek
  let yes ← body true
  if ← elseHead then
    let second ← peek
    let no ← body true
    let _ ← expect (.keyword .endIf) .noEndIf
    return .ifElse condition first.location yes second.location no start.location
  else
    let _ ← expect (.keyword .endIf) .noEndIf
    return .ifThen condition first.location yes start.location

end

mutual

def body (nested : Bool) : Walk (List Statement) := bodyRule (by apply body) (by apply round) nested
partial_fixpoint

def round : Walk (Option Statement) := fun tokens c =>
  roundRule (by apply declaration) tokens c
partial_fixpoint

def declaration : Walk (Option Statement) :=
  declarationRule (by apply routineDeclaration) (by apply statement)
partial_fixpoint

def statement : Walk (Option Statement) := statementRule (by apply conditional)
partial_fixpoint

def routineDeclaration : Walk Statement := routineRule (by apply body)
partial_fixpoint

def conditional : Walk Statement := conditionalRule (by apply body)
partial_fixpoint

end

theorem round_apply (tokens : List Token) (c : Cursor) :
    round tokens c = match declaration tokens c with
      | none => none
      | some (.ok o, c') => some (.ok o, c')
      | some (.error issue, c') => giveUp issue tokens c' := by
  rw [round, roundRule]
  cases declaration tokens c with
  | none => rfl
  | some p =>
    obtain ⟨outcome, c'⟩ := p
    cases outcome with
    | ok o => rfl
    | error issue => rfl

def program : Walk Program := do
  let first ← peek
  let statements ← body false
  return ⟨first.location, statements⟩

/-- The tokens that a program is read off: those that matter to the grammar, with a mark of the end
behind them if there is none. -/
def marked (tokens : List Token) : List Token :=
  let tokens := Program.significant tokens
  match tokens.getLast? with
  | none => [⟨.fileEnd, "", ⟨1, 1⟩⟩]
  | some t =>
    if t.kind = .fileEnd then tokens
    else tokens ++ [⟨.fileEnd, "", ⟨t.location.line + 1, 1⟩⟩]

end Walk

end ArmLang
