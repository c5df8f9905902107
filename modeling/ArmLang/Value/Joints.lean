import ArmLang.Value.Pose

namespace ArmLang

/-- Target values of the six joints. -/
structure Joints where
  a1 : Float := 0.0
  a2 : Float := 0.0
  a3 : Float := 0.0
  a4 : Float := 0.0
  a5 : Float := 0.0
  a6 : Float := 0.0
  deriving DecidableEq, Inhabited

namespace Joints

def zero : Joints := {}

def fieldNames : List String := ["A1", "A2", "A3", "A4", "A5", "A6"]

def toList (j : Joints) : List Float := [j.a1, j.a2, j.a3, j.a4, j.a5, j.a6]

def fields (j : Joints) : List (String × Float) := fieldNames.zip j.toList

def set? (j : Joints) (field : String) (v : Float) : Option Joints :=
  match field with
  | "A1" => some { j with a1 := v }
  | "A2" => some { j with a2 := v }
  | "A3" => some { j with a3 := v }
  | "A4" => some { j with a4 := v }
  | "A5" => some { j with a5 := v }
  | "A6" => some { j with a6 := v }
  | _ => none

def text (j : Joints) : String := fieldsText j.fields

end Joints

end ArmLang
