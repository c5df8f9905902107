import ArmLang.Location
import ArmLang.Value.Basic

namespace ArmLang

/-- One step for the machine that drives the arm: a command with named arguments. -/
structure Instruction where
  command : String
  args : List (String × Value) := []
  location : Option Location := none
  deriving DecidableEq

namespace Instruction

def poseKey : String := "Position Information"

def jointsKey : String := "Axis Information"

def durationKey : String := "duration_time"

def arg? (i : Instruction) (name : String) : Option Value :=
  (i.args.find? (·.1 = name)).map (·.2)

end Instruction

end ArmLang
