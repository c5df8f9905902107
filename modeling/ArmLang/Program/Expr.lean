import ArmLang.Token.Basic

namespace ArmLang

inductive UnaryOp
  | negate
  | not
  deriving DecidableEq, Repr

inductive BinaryOp
  | or
  | and
  | equal
  | notEqual
  | less
  | lessEqual
  | greater
  | greaterEqual
  | add
  | subtract
  | multiply
  | divide
  deriving DecidableEq, Repr

/-- The levels of binary operators, from the loosest to the tightest. -/
inductive Tier
  | disjunction
  | conjunction
  | equality
  | comparison
  | sum
  | product
  deriving DecidableEq, Repr

def Tier.height : Tier → Nat
  | disjunction => 5
  | conjunction => 4
  | equality => 3
  | comparison => 2
  | sum => 1
  | product => 0

theorem Tier.height_le (t : Tier) : t.height ≤ 5 := by cases t <;> decide

namespace BinaryOp

def all : List BinaryOp :=
  [or, and, equal, notEqual, less, lessEqual, greater, greaterEqual, add, subtract, multiply,
    divide]

def symbol : BinaryOp → String
  | or => "OR"
  | and => "AND"
  | equal => "=="
  | notEqual => "<>"
  | less => "<"
  | lessEqual => "<="
  | greater => ">"
  | greaterEqual => ">="
  | add => "+"
  | subtract => "-"
  | multiply => "*"
  | divide => "/"

def tier : BinaryOp → Tier
  | or => .disjunction
  | and => .conjunction
  | equal | notEqual => .equality
  | less | lessEqual | greater | greaterEqual => .comparison
  | add | subtract => .sum
  | multiply | divide => .product

def kind : BinaryOp → Kind
  | or => .or
  | and => .and
  | equal => .equal
  | notEqual => .notEqual
  | less => .less
  | lessEqual => .lessEqual
  | greater => .greater
  | greaterEqual => .greaterEqual
  | add => .plus
  | subtract => .minus
  | multiply => .times
  | divide => .divide

def ofKind? (k : Kind) : Option BinaryOp := all.find? (·.kind == k)

def ofSymbol? (s : String) : Option BinaryOp := all.find? (·.symbol == s)

theorem ofKind?_kind (op : BinaryOp) : ofKind? op.kind = some op := by
  cases op <;> decide

theorem kind_of_ofKind? {k : Kind} {op : BinaryOp} (h : ofKind? k = some op) : op.kind = k := by
  simpa using List.find?_some h

end BinaryOp

def Tier.operator? (t : Tier) (k : Kind) : Option BinaryOp :=
  (BinaryOp.ofKind? k).filter (·.tier = t)

def assignSymbol : String := "="

def Kind.infixSymbol? (k : Kind) : Option String :=
  if k = .assign then some assignSymbol else (BinaryOp.ofKind? k).map (·.symbol)

inductive Expr
  | literal (value : Value) (location : Location)
  | var (name : String) (location : Location)
  | unary (op : UnaryOp) (operand : Expr) (location : Location)
  | binary (op : BinaryOp) (left right : Expr) (location : Location)
  | assign (target value : Expr) (location : Location)
  deriving DecidableEq, Inhabited

namespace Expr

def location : Expr → Location
  | literal _ l | var _ l | unary _ _ l | binary _ _ _ l | assign _ _ l => l

def varName? : Expr → Option String
  | var name _ => some name
  | _ => none

end Expr

end ArmLang
