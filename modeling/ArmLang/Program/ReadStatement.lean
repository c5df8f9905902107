import ArmLang.Program.ReadExpr

namespace ArmLang

def DataType.compound? : DataType → Option Compound
  | .pos => some .pos
  | .frame => some .frame
  | .axis => some .axis
  | _ => none

theorem DataType.dataType_of_compound? {type : DataType} {c : Compound}
    (h : type.compound? = some c) : c.dataType = type := by
  cases type <;> cases h <;> rfl

theorem DataType.isStructured_of_compound? {type : DataType} (h : type.compound? = none) :
    type.isStructured = false := by
  cases type <;> first | rfl | cases h

namespace Expr

def reader : Reader Expr := read

end Expr

namespace Statement

mutual

def readFields (type : Compound) (stop : Location) (s : List Token) :
    Reading (List (String × Expr)) :=
  match s with
  | [] => .failure .noFieldName stop
  | f :: rest =>
    if f.kind ≠ .identifier then .failure .noFieldName f.location
    else if !type.dataType.fieldNames.contains f.text then
      (Reading.failure (.unknownFieldOf f.text type) f.location).after 1
    else
      let number := Expr.read stop rest
      (number.after 1).andThen fun e =>
        (readMoreFields type stop (rest.drop number.used)).map fun more => (f.text, e) :: more
termination_by 2 * s.length
decreasing_by
  simp only [List.length_drop, List.length_cons]
  omega

def readMoreFields (type : Compound) (stop : Location) (s : List Token) :
    Reading (List (String × Expr)) :=
  match s with
  | [] => .value []
  | c :: rest => if c.kind = .comma then (readFields type stop rest).after 1 else .value []
termination_by 2 * s.length + 1

end

def readCompound (type : Compound) : Reader (List (String × Expr)) := do
  if !(← Reader.accept .assign) then return []
  let _ ← Reader.expect .leftBrace (.noCompoundOpening type)
  let fields ← fun stop s =>
    if s.head?.any (·.kind = .rightBrace) then .value [] else readFields type stop s
  let _ ← Reader.expect .rightBrace (.noCompoundClosing type)
  return fields

def readCompoundDeclaration (type : Compound) (start : Location) : Reader Statement := do
  let name ← Reader.expect .identifier (.noCompoundName type)
  let fields ← readCompound type
  Reader.acceptOrNote .lineEnd (.noLineEndAfterCompound type)
  return declareFields type name.text fields start

def readScalarDeclaration (type : DataType) (start : Location) : Reader Statement := do
  let name ← Reader.expect .identifier .noVariableName
  let init ← if ← Reader.accept .assign then some <$> Expr.reader else pure none
  Reader.acceptOrNote .lineEnd .noLineEndAfterVariable
  return declare type name.text init start

def readDeclaration (start : Location) : Reader Statement := fun stop s =>
  match s with
  | ⟨.keyword (.type type), _, _⟩ :: rest =>
    (match type.compound? with
      | some c => readCompoundDeclaration c start stop rest
      | none => readScalarDeclaration type start stop rest).after 1
  | _ => .failure .noDataType (nextLocation stop s)

/-- Reads what follows the word of a motion command. The target is also passed on as an argument. -/
def readMotion (command : String) (start : Location) : Reader Statement := do
  let target ← Reader.expect .identifier .noMotionTarget
  return motion command target.text [("position", .var target.text target.location)] start

def readSetField (target : Token) : Reader Statement := do
  let field ← Reader.expect .identifier .noMemberName
  if !(Pose.fieldNames ++ Joints.fieldNames).contains field.text then
    Reader.failAt (.unknownField field.text) field.location
  let _ ← Reader.expect .assign .noMemberAssignment
  let value ← Expr.reader
  return setField target.text field.text value target.location

def readSeconds : Reader Float := fun stop s =>
  match s with
  | [] => .failure .noWaitTime stop
  | t :: _ =>
    if t.kind = .integer ∨ t.kind = .real then
      match Number.real? t.text with
      | some x => ⟨.ok x, 1, []⟩
      | none => .failure .badWaitTime t.location
    else .failure .noWaitTime t.location

def readWait (start : Location) : Reader Statement := do
  let _ ← Reader.expect .leftParen .noWaitOpening
  let seconds ← readSeconds
  let _ ← Reader.expect .rightParen .noWaitClosing
  return wait seconds start

def readEvaluation : Reader Statement := do
  let e ← Expr.reader
  let _ ← Reader.accept .lineEnd
  return evaluate e

def readRoutineHead : Reader String := do
  let name ← Reader.expect .identifier .noRoutineName
  let _ ← Reader.expect .leftParen .noRoutineOpening
  let _ ← Reader.expect .rightParen .noRoutineClosing
  return name.text

def readCondition : Reader Expr := do
  let condition ← Expr.reader
  let _ ← Reader.expect (.keyword .thenWord) .noThen
  let _ ← Reader.expect .lineEnd .noLineEndAfterThen
  return condition

def readElse : Reader Bool := do
  let more ← Reader.accept (.keyword .elseWord)
  if more then
    let _ ← Reader.expect .lineEnd .noLineEndAfterElse
  return more

def closesBody : Kind → Bool
  | .keyword .endWord | .keyword .elseWord | .keyword .endIf | .keyword .endFor => true
  | _ => false

def lineLength : List Token → Nat
  | [] => 0
  | t :: s => if t.kind = .lineEnd then 1 else 1 + lineLength s

/-- Gives up a statement that could not be read, noting the problem and passing over the rest of
the line. -/
def recover (s : List Token) (r : Reading (Option Statement)) : Reading (Option Statement) :=
  match r.outcome with
  | .ok _ => r
  | .error e => ⟨.ok none, r.used + lineLength (s.drop r.used), r.noted ++ [e]⟩

/-- A body that was read: there is always one, whatever was noted. -/
structure Body where
  statements : List Statement
  used : Nat
  noted : List (Issue GrammarError)

def Body.andThen (b : Body) (f : List Statement → Reading α) : Reading α :=
  let q := f b.statements
  ⟨q.outcome, b.used + q.used, b.noted ++ q.noted⟩

mutual

/-- Reads statements to the end of the file or, inside another statement, to a token that ends the
body. -/
def readBody (nested : Bool) (stop : Location) (s : List Token) : Body :=
  match s with
  | [] => ⟨[], 0, []⟩
  | t :: rest =>
    if nested && closesBody t.kind then ⟨[], 0, []⟩
    else
      let item := recover (t :: rest) (readItem t stop rest)
      let more := readBody nested stop (rest.drop (item.used - 1))
      let statements := match item.outcome with
        | .ok (some st) => st :: more.statements
        | _ => more.statements
      ⟨statements, item.used + more.used, item.noted ++ more.noted⟩
termination_by 3 * s.length + 1
decreasing_by
  · simp only [List.length_cons]
    omega
  · simp only [List.length_cons, List.length_drop]
    omega

/-- Reads the statement that begins with the token `t`; the end of a line and `RETURN` give none. -/
def readItem (t : Token) (stop : Location) (s : List Token) : Reading (Option Statement) :=
  match t.kind with
  | .keyword .defWord => ((readRoutine t.location stop s).after 1).map some
  | .keyword .decl => ((readDeclaration t.location stop s).after 1).map some
  | .keyword (.motion _ _) => ((readMotion t.kind.name t.location stop s).after 1).map some
  | .keyword .ifWord => ((readConditional t.location stop s).after 1).map some
  | .keyword .wait => ((readWait t.location stop s).after 1).map some
  | .keyword .returnWord | .lineEnd => ⟨.ok none, 1, []⟩
  | .identifier =>
    match s with
    | ⟨.dot, _, _⟩ :: rest => ((readSetField t stop rest).after 2).map some
    | _ => (readEvaluation stop (t :: s)).map some
  | _ => (readEvaluation stop (t :: s)).map some
termination_by 3 * s.length + 3

def readRoutine (start stop : Location) (s : List Token) : Reading Statement :=
  let head := readRoutineHead stop s
  head.andThen fun name =>
    let inner := s.drop head.used
    let body := readBody true stop inner
    body.andThen fun statements =>
      (Reader.expect (.keyword .endWord) .noRoutineEnd stop (inner.drop body.used)).map fun _ =>
        routine name (nextLocation stop inner) statements start
termination_by 3 * s.length + 2
decreasing_by
  simp only [List.length_drop]
  omega

def readConditional (start stop : Location) (s : List Token) : Reading Statement :=
  let head := readCondition stop s
  head.andThen fun condition =>
    let inner := s.drop head.used
    let body := readBody true stop inner
    body.andThen fun yes =>
      let middle := readElse stop (inner.drop body.used)
      middle.andThen fun more =>
        let other := (inner.drop body.used).drop middle.used
        if more then
          let otherBody := readBody true stop other
          otherBody.andThen fun no =>
            (Reader.expect (.keyword .endIf) .noEndIf stop (other.drop otherBody.used)).map fun _ =>
              ifElse condition (nextLocation stop inner) yes (nextLocation stop other) no start
        else
          (Reader.expect (.keyword .endIf) .noEndIf stop other).map fun _ =>
            ifThen condition (nextLocation stop inner) yes start
termination_by 3 * s.length + 2
decreasing_by
  all_goals
    simp only [List.length_drop]
    omega

end

end Statement

end ArmLang
