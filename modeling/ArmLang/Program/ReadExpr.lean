import ArmLang.Number.Numeral
import ArmLang.Program.Reading
import ArmLang.Text.Quoted

namespace ArmLang.Expr

/-- The binary64 number nearest to the ratio of a circle's circumference to its diameter. -/
def piValue : Float := 3.141592653589793

def found (t : Token) : Found :=
  match t.kind with
  | .lineEnd => .lineEnd
  | .fileEnd => .fileEnd
  | _ => .piece t.text

def ofToken (t : Token) : Except GrammarError Expr :=
  match t.kind with
  | .keyword (.truth b) => .ok (literal (.bool b) t.location)
  | .keyword .pi => .ok (literal (.real piValue) t.location)
  | .integer => match Number.integer? t.text with
    | some n => .ok (literal (.int n) t.location)
    | none => .error .integerOutOfRange
  | .real => match Number.real? t.text with
    | some x => .ok (literal (.real x) t.location)
    | none => .error .badReal
  | .text => .ok (literal (.char (Text.Quoted.decode t.text)) t.location)
  | .identifier | .input | .output => .ok (var t.text t.location)
  | _ => .error (.noExpression (found t))

def prefixOp? : Kind → Option UnaryOp
  | .minus => some .negate
  | .not => some .not
  | _ => none

mutual

/-- Reads an expression: operands of the loosest level with its operators, or an assignment. -/
def read (stop : Location) (s : List Token) : Reading Expr :=
  let left := readTier .disjunction stop s
  left.andThen fun target => readAssigned target stop (s.drop left.used)
termination_by 20 * s.length + 16
decreasing_by
  · simp [Tier.height]
  · simp only [List.length_drop]
    omega

/-- Reads on after what may be the target of an assignment, which takes in everything to its right.
Only a variable can be assigned to; anything else is kept without the assignment. -/
def readAssigned (target : Expr) (stop : Location) (s : List Token) : Reading Expr :=
  match s with
  | [] => .value target
  | t :: rest =>
    if t.kind = .assign then
      ((read stop rest).after 1).andThen fun e =>
        match target.varName? with
        | some _ => .value (assign target e target.location)
        | none => .noting target .badTarget t.location
    else .value target
termination_by 20 * s.length

/-- Reads operands of one level with its operators between them, which group to the left. -/
def readTier (t : Tier) (stop : Location) (s : List Token) : Reading Expr :=
  let first := readOperand t stop s
  first.andThen fun left => readChain t left stop (s.drop first.used)
termination_by 20 * s.length + 2 * t.height + 5
decreasing_by
  · omega
  · simp only [List.length_drop]
    omega

def readChain (t : Tier) (left : Expr) (stop : Location) (s : List Token) : Reading Expr :=
  match s with
  | [] => .value left
  | o :: rest =>
    match t.operator? o.kind with
    | none => .value left
    | some op =>
      let right := readOperand t stop rest
      (right.after 1).andThen fun e =>
        readChain t (binary op left e left.location) stop (rest.drop right.used)
termination_by 20 * s.length
decreasing_by
  · have := t.height_le
    simp only [List.length_cons]
    omega
  · simp only [List.length_cons, List.length_drop]
    omega

def readOperand (t : Tier) (stop : Location) (s : List Token) : Reading Expr :=
  match t with
  | .disjunction => readTier .conjunction stop s
  | .conjunction => readTier .equality stop s
  | .equality => readTier .comparison stop s
  | .comparison => readTier .sum stop s
  | .sum => readTier .product stop s
  | .product => readUnary stop s
termination_by 20 * s.length + 2 * t.height + 4
decreasing_by all_goals simp [Tier.height]

def readUnary (stop : Location) (s : List Token) : Reading Expr :=
  match s with
  | [] => readPrimary stop []
  | t :: rest =>
    match prefixOp? t.kind with
    | some op => ((readUnary stop rest).after 1).map fun e => unary op e t.location
    | none => readPrimary stop (t :: rest)
termination_by 20 * s.length + 2

/-- Reads a single token, or an expression in parentheses, whose closing one may be missing. -/
def readPrimary (stop : Location) (s : List Token) : Reading Expr :=
  match s with
  | [] => .failure (.noExpression .fileEnd) stop
  | t :: rest =>
    if t.kind = .leftParen then
      let inner := read stop rest
      (inner.after 1).andThen fun e =>
        (Reader.acceptOrNote .rightParen .noClosing stop (rest.drop inner.used)).map fun _ => e
    else match ofToken t with
      | .ok e => ⟨.ok e, 1, []⟩
      | .error e => .failure e t.location
termination_by 20 * s.length + 1

end

end ArmLang.Expr
