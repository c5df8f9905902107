import ArmLang.Value.Basic

namespace ArmLang

structure ConversionFailure where
  source : DataType
  target : DataType
  deriving DecidableEq

def ConversionFailure.message (e : ConversionFailure) : String :=
  "cannot convert " ++ e.source.valueName ++ " value to " ++ e.target.keyword

namespace Value

/-- The form a value has in a type, if it has one. A number is cut to an integer, compared with
zero for a truth value, and written out for a text; a position and a frame are interchangeable. -/
def convert? (v : Value) (t : DataType) : Option Value :=
  match t with
  | .int => match v with
    | int n => some (int n)
    | _ => v.number?.map fun x => int (Number.truncate x)
  | .real => v.number?.map real
  | .bool => v.number?.map fun x => bool (x != 0.0)
  | .char => match v with
    | pos _ | frame _ | axis _ => none
    | _ => some (char v.text)
  | .pos => v.pose?.map pos
  | .frame => v.pose?.map frame
  | .axis => match v with
    | axis j => some (axis j)
    | _ => none

def convert (v : Value) (t : DataType) : Except ConversionFailure Value :=
  match v.convert? t with
  | some w => .ok w
  | none => .error ⟨v.dataType, t⟩

theorem dataType_convert? {v w : Value} {t : DataType} (h : v.convert? t = some w) :
    w.dataType = t := by
  cases t <;> cases v <;> simp [convert?, number?, pose?] at h <;> subst h <;> rfl

theorem dataType_convert {v w : Value} {t : DataType} (h : v.convert t = .ok w) :
    w.dataType = t := by
  unfold convert at h
  split at h
  · next u hu => cases h; exact dataType_convert? hu
  · cases h

end Value

end ArmLang
