import ArmLang.Value.Joints

namespace ArmLang

inductive DataType
  | int
  | real
  | bool
  | char
  | pos
  | frame
  | axis
  deriving DecidableEq, Repr, Inhabited

/-- A value carries the type it has. Poses serve both as positions and as frames. -/
inductive Value
  | int (n : Int64)
  | real (x : Float)
  | bool (b : Bool)
  | char (s : String)
  | pos (p : Pose)
  | frame (p : Pose)
  | axis (j : Joints)
  deriving DecidableEq, Inhabited

namespace DataType

def keyword : DataType → String
  | int => "INT"
  | real => "REAL"
  | bool => "BOOL"
  | char => "CHAR"
  | pos => "POS"
  | frame => "FRAME"
  | axis => "AXIS"

def valueName : DataType → String
  | int => "integer"
  | real => "real"
  | bool => "boolean"
  | char => "text"
  | pos => "position"
  | frame => "frame"
  | axis => "axis"

def all : List DataType := [int, real, bool, char, pos, frame, axis]

def isStructured : DataType → Bool
  | pos | frame | axis => true
  | _ => false

def fieldNames : DataType → List String
  | pos | frame => Pose.fieldNames
  | axis => Joints.fieldNames
  | _ => []

/-- What a declaration without an initial value starts with. -/
def zero : DataType → Value
  | int => .int 0
  | real => .real 0.0
  | bool => .bool false
  | char => .char ""
  | pos => .pos .zero
  | frame => .frame .zero
  | axis => .axis .zero

end DataType

namespace Value

def dataType : Value → DataType
  | int _ => .int
  | real _ => .real
  | bool _ => .bool
  | char _ => .char
  | pos _ => .pos
  | frame _ => .frame
  | axis _ => .axis

/-- The number that arithmetic, comparisons and conditions see; texts and structured values have
none. -/
def number? : Value → Option Float
  | int n => some (Number.ofInteger n)
  | real x => some x
  | bool b => some (Number.ofTruth b)
  | _ => none

def pose? : Value → Option Pose
  | pos p | frame p => some p
  | _ => none

def setField? (v : Value) (field : String) (x : Float) : Option Value :=
  match v with
  | pos p => (p.set? field x).map pos
  | frame p => (p.set? field x).map frame
  | axis j => (j.set? field x).map axis
  | _ => none

def text : Value → String
  | int n => toString n.toInt
  | real x => Number.text x
  | bool b => if b then "TRUE" else "FALSE"
  | char s => s
  | pos p | frame p => p.text
  | axis j => j.text

@[simp] theorem dataType_zero (t : DataType) : t.zero.dataType = t := by cases t <;> rfl

theorem dataType_setField? {v w : Value} {field : String} {x : Float}
    (h : v.setField? field x = some w) : w.dataType = v.dataType := by
  cases v <;> simp only [setField?, Option.map_eq_some_iff, reduceCtorEq] at h
  all_goals
    obtain ⟨_, _, rfl⟩ := h
    rfl

end Value

end ArmLang
