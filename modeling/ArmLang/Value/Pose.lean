import ArmLang.Number.Positional

namespace ArmLang

/-- A place of the tool in space: millimetres along `x y z` and degrees of roll `a`, pitch `b` and
yaw `c`. -/
structure Pose where
  x : Float := 0.0
  y : Float := 0.0
  z : Float := 0.0
  a : Float := 0.0
  b : Float := 0.0
  c : Float := 0.0
  deriving DecidableEq, Inhabited

namespace Pose

def zero : Pose := {}

def fieldNames : List String := ["x", "y", "z", "a", "b", "c"]

def toList (p : Pose) : List Float := [p.x, p.y, p.z, p.a, p.b, p.c]

def fields (p : Pose) : List (String × Float) := fieldNames.zip p.toList

def set? (p : Pose) (field : String) (v : Float) : Option Pose :=
  match field with
  | "x" => some { p with x := v }
  | "y" => some { p with y := v }
  | "z" => some { p with z := v }
  | "a" => some { p with a := v }
  | "b" => some { p with b := v }
  | "c" => some { p with c := v }
  | _ => none

def add (p q : Pose) : Pose :=
  ⟨p.x + q.x, p.y + q.y, p.z + q.z, p.a + q.a, p.b + q.b, p.c + q.c⟩

def distance (p q : Pose) : Float :=
  let dx := p.x - q.x
  let dy := p.y - q.y
  let dz := p.z - q.z
  (dx * dx + dy * dy + dz * dz).sqrt

/-- The same orientation at another place. -/
def moveTo (p : Pose) (x y z : Float) : Pose := { p with x := x, y := y, z := z }

end Pose

/-- The text of named numbers: names and numbers in turn, in braces. -/
def fieldsText (fields : List (String × Float)) : String :=
  "\x7b" ++ ", ".intercalate (fields.map fun f => f.1 ++ " " ++ Number.text f.2) ++ "\x7d"

def Pose.text (p : Pose) : String := fieldsText p.fields

end ArmLang
