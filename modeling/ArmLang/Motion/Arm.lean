import ArmLang.Motion.Drive

namespace ArmLang

/-- The limits within which every component of a target has to lie, both included. -/
structure Workspace where
  min : Pose := ⟨-1000.0, -1000.0, -1000.0, -180.0, -180.0, -180.0⟩
  max : Pose := ⟨1000.0, 1000.0, 1000.0, 180.0, 180.0, 180.0⟩
  deriving DecidableEq, Inhabited

/-- How a simulated arm is set up. The tool offset is added to every target once the target has been
checked. The time scale is the share of simulated time that a simulation takes. -/
structure ArmConfig where
  workspace : Workspace := {}
  tool : Pose := .zero
  timeScale : Float := 1.0
  deriving DecidableEq, Inhabited

/-- A simulated arm with six joints. Announced are the poses it has come to, the first one first. -/
structure Arm where
  config : ArmConfig := {}
  pose : Pose := .zero
  joints : List Float := Joints.zero.toList
  moving : Bool := false
  time : Float := 0.0
  announced : List Pose := []
  deriving DecidableEq, Inhabited

/-- The first component of a target that is below its lower or above its upper limit. What cannot be
compared is not outside. -/
def Workspace.violation? (w : Workspace) (target : Pose) : Option Refusal :=
  let limits := w.min.toList.zip w.max.toList
  let outside := (target.fields.zip limits).find? fun ((_, v), (lo, hi)) => v < lo ∨ hi < v
  outside.map fun ((name, v), (lo, hi)) => .outOfWorkspace name v lo hi

/-- The seconds a way takes. Without a positive velocity there is no telling, and none are counted. -/
def Dynamics.travelTime (parameters : Dynamics) (distance : Float) : Float :=
  if parameters.velocity > 0.0 then distance / parameters.velocity else 0.0

def largestChange (source target : List Float) : Float :=
  (source.zip target).foldl
    (fun largest (s, t) => if largest < (t - s).abs then (t - s).abs else largest) 0.0

namespace Arm

/-- Lets time pass, if it is a positive and finite number of seconds. -/
def pass (arm : Arm) (seconds : Float) : Arm :=
  if !seconds.isFinite || seconds ≤ 0.0 then arm else { arm with time := arm.time + seconds }

/-- Moves the tool to a target in the workspace and announces the pose that is reached. The path
makes no difference to the simulation. -/
def moveToPose (arm : Arm) (target : Pose) (parameters : Dynamics) :
    Arm × Except Refusal Unit :=
  match arm.config.workspace.violation? target with
  | some fault => (arm, .error fault)
  | none =>
    let reached := target.add arm.config.tool
    let arm := arm.pass (parameters.travelTime (arm.pose.distance reached))
    ({ arm with pose := reached, announced := arm.announced ++ [reached], moving := false }, .ok ())

def moveJoints (arm : Arm) (targets : List Float) (parameters : Dynamics) :
    Arm × Except Refusal Unit :=
  if targets.length ≠ arm.joints.length then
    (arm, .error (.jointCount arm.joints.length targets.length))
  else
    let arm := arm.pass (parameters.travelTime (largestChange arm.joints targets))
    ({ arm with joints := targets, moving := false }, .ok ())

def stop (arm : Arm) : Arm := { arm with moving := false }

def setTool (arm : Arm) (tool : Pose) : Arm :=
  { arm with config := { arm.config with tool } }

def setWorkspace (arm : Arm) (workspace : Workspace) : Arm :=
  { arm with config := { arm.config with workspace } }

instance : Drive Arm where
  moveToPose arm target _ parameters := arm.moveToPose target parameters
  moveJoints := moveJoints
  wait := pass
  stop := stop
  emergencyStop := stop
  isMoving := moving
  pose := pose
  joints := joints

end Arm

end ArmLang
