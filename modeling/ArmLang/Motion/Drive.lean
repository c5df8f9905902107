import ArmLang.Token.Keyword

namespace ArmLang

/-- The dynamic limits of one move: millimetres, or degrees for joints, and seconds. -/
structure Dynamics where
  velocity : Float := 100.0
  acceleration : Float := 1000.0
  deceleration : Float := 1000.0
  jerk : Float := 5000.0
  deriving DecidableEq, Inhabited

/-- Why a move was refused. The arm has not moved then. -/
inductive Refusal
  | outOfWorkspace (component : String) (value min max : Float)
  | jointCount (expected found : Nat)
  deriving DecidableEq

def Refusal.message : Refusal → String
  | outOfWorkspace component value min max =>
    "target " ++ component ++ " = " ++ Number.text value ++ " is outside workspace limits [" ++
      Number.text min ++ ", " ++ Number.text max ++ "]"
  | jointCount expected found =>
    "joint count mismatch: expected " ++ toString expected ++ ", got " ++ toString found

/-- What drives an arm, seen as something with a state. Only moves can be refused. -/
class Drive (σ : Type) where
  moveToPose : σ → Pose → Path → Dynamics → σ × Except Refusal Unit
  moveJoints : σ → List Float → Dynamics → σ × Except Refusal Unit
  wait : σ → Float → σ
  stop : σ → σ
  emergencyStop : σ → σ
  isMoving : σ → Bool
  pose : σ → Pose
  joints : σ → List Float

inductive Call
  | move (path : Path) (pose : Pose) (parameters : Dynamics)
  | moveJoints (joints : List Float) (parameters : Dynamics)
  | wait (seconds : Float)
  | stop
  | emergencyStop
  deriving DecidableEq

namespace Call

def perform [Drive σ] (drive : σ) : Call → σ × Except Refusal Unit
  | move path pose parameters => Drive.moveToPose drive pose path parameters
  | moveJoints joints parameters => Drive.moveJoints drive joints parameters
  | wait seconds => (Drive.wait drive seconds, .ok ())
  | stop => (Drive.stop drive, .ok ())
  | emergencyStop => (Drive.emergencyStop drive, .ok ())

def reach [Drive σ] (drive : σ) (path : Path) (x y z : Float) : Call :=
  move path ((Drive.pose drive).moveTo x y z) {}

end Call

def Drive.reach [Drive σ] (drive : σ) (path : Path) (x y z : Float) :
    σ × Except Refusal Unit :=
  (Call.reach drive path x y z).perform drive

end ArmLang
