import ArmLang.Motion.Arm
import ArmLang.Proofs.Execution.Requests

namespace ArmLang

theorem Workspace.violation?_eq_some {w : Workspace} {target : Pose} {cause : Refusal}
    (h : w.violation? target = some cause) :
    ∃ component value lo hi, cause = .outOfWorkspace component value lo hi := by
  obtain ⟨_, _, rfl⟩ := Option.map_eq_some_iff.1 h
  exact ⟨_, _, _, _, rfl⟩

namespace Arm

/-- What can be done to an arm from outside. Looking at it changes nothing. -/
inductive Operation
  | call (c : Call)
  | reach (path : Path) (x y z : Float)
  | setTool (tool : Pose)
  | setWorkspace (workspace : Workspace)

def perform (arm : Arm) : Operation → Arm
  | .call c => (c.perform arm).1
  | .reach path x y z => (Drive.reach arm path x y z).1
  | .setTool tool => arm.setTool tool
  | .setWorkspace workspace => arm.setWorkspace workspace

def performAll (arm : Arm) (ops : List Operation) : Arm := ops.foldl perform arm

/-- Nothing but the time changes when it passes. -/
theorem pass_eq (arm : Arm) (seconds : Float) :
    arm.pass seconds = { arm with time := (arm.pass seconds).time } := by
  unfold pass
  split <;> rfl

theorem joints_pass (arm : Arm) (seconds : Float) : (arm.pass seconds).joints = arm.joints := by
  rw [pass_eq]

theorem config_pass (arm : Arm) (seconds : Float) : (arm.pass seconds).config = arm.config := by
  rw [pass_eq]

theorem moveToPose_refused {arm : Arm} {target : Pose} {cause : Refusal}
    (h : arm.config.workspace.violation? target = some cause) (parameters : Dynamics) :
    arm.moveToPose target parameters = (arm, .error cause) := by
  rw [moveToPose, h]

/-- A move to a pose in the workspace takes some time, comes to the pose with the tool added, and is
announced. -/
theorem moveToPose_eq {arm : Arm} {target : Pose}
    (h : arm.config.workspace.violation? target = none) (parameters : Dynamics) :
    ∃ time, arm.moveToPose target parameters =
      ({ arm with
          pose := target.add arm.config.tool, moving := false, time
          announced := arm.announced ++ [target.add arm.config.tool] }, .ok ()) := by
  rw [moveToPose, h]
  dsimp only
  rw [pass_eq]
  exact ⟨_, rfl⟩

theorem moveToPose_accepted {arm : Arm} {target : Pose}
    (h : arm.config.workspace.violation? target = none) (parameters : Dynamics) :
    (arm.moveToPose target parameters).2 = .ok () := by
  obtain ⟨time, hm⟩ := moveToPose_eq h parameters
  rw [hm]

/-- A move of as many joints as there are takes some time and turns them. -/
theorem moveJoints_eq {arm : Arm} {targets : List Float}
    (h : targets.length = arm.joints.length) (parameters : Dynamics) :
    ∃ time, arm.moveJoints targets parameters =
      ({ arm with joints := targets, moving := false, time }, .ok ()) := by
  rw [moveJoints, if_neg (not_not_intro h)]
  dsimp only
  rw [pass_eq]
  exact ⟨_, rfl⟩

theorem moveJoints_accepted {arm : Arm} {targets : List Float}
    (h : targets.length = arm.joints.length) (parameters : Dynamics) :
    (arm.moveJoints targets parameters).2 = .ok () := by
  obtain ⟨time, hm⟩ := moveJoints_eq h parameters
  rw [hm]

theorem moveJoints_refused {arm : Arm} {targets : List Float}
    (h : targets.length ≠ arm.joints.length) (parameters : Dynamics) :
    arm.moveJoints targets parameters =
      (arm, .error (.jointCount arm.joints.length targets.length)) := by
  rw [moveJoints, if_pos h]

/-- A request that is refused leaves the arm just as it was. -/
theorem perform_of_refused {arm : Arm} {c : Call} {cause : Refusal}
    (h : (c.perform arm).2 = .error cause) : (c.perform arm).1 = arm := by
  cases c with
  | move path pose parameters =>
    change (arm.moveToPose pose parameters).1 = arm
    cases hv : arm.config.workspace.violation? pose with
    | none => cases (moveToPose_accepted hv parameters).symm.trans h
    | some fault => rw [moveToPose_refused hv]
  | moveJoints joints parameters =>
    change (arm.moveJoints joints parameters).1 = arm
    by_cases hl : joints.length = arm.joints.length
    · cases (moveJoints_accepted hl parameters).symm.trans h
    · rw [moveJoints_refused hl]
  | wait | stop | emergencyStop => cases h

theorem config_perform (arm : Arm) (c : Call) : (c.perform arm).1.config = arm.config := by
  cases c with
  | move path pose parameters =>
    change (arm.moveToPose pose parameters).1.config = _
    unfold moveToPose
    split
    · rfl
    · exact config_pass ..
  | moveJoints joints parameters =>
    change (arm.moveJoints joints parameters).1.config = _
    unfold moveJoints
    split
    · rfl
    · exact config_pass ..
  | wait seconds => exact config_pass ..
  | stop => rfl
  | emergencyStop => rfl

theorem length_joints_perform (arm : Arm) (c : Call) :
    (c.perform arm).1.joints.length = arm.joints.length := by
  cases c with
  | move path pose parameters =>
    change (arm.moveToPose pose parameters).1.joints.length = _
    unfold moveToPose
    split
    · rfl
    · exact congrArg List.length (joints_pass ..)
  | moveJoints joints parameters =>
    change (arm.moveJoints joints parameters).1.joints.length = _
    unfold moveJoints
    split
    · rfl
    · next h => exact Decidable.not_not.1 h
  | wait seconds => exact congrArg List.length (joints_pass ..)
  | stop => rfl
  | emergencyStop => rfl

theorem config_performCalls (arm : Arm) (calls : List Call) :
    (Call.performAll arm calls).config = arm.config := by
  induction calls generalizing arm with
  | nil => rfl
  | cons c calls ih => exact (ih _).trans (config_perform arm c)

theorem length_joints_performCalls (arm : Arm) (calls : List Call) :
    (Call.performAll arm calls).joints.length = arm.joints.length := by
  induction calls generalizing arm with
  | nil => rfl
  | cons c calls ih => exact (ih _).trans (length_joints_perform arm c)

theorem length_joints_performAll (arm : Arm) (ops : List Operation) :
    (arm.performAll ops).joints.length = arm.joints.length := by
  induction ops generalizing arm with
  | nil => rfl
  | cons op ops ih =>
    have hop : (arm.perform op).joints.length = arm.joints.length := by
      cases op with
      | call c => exact length_joints_perform arm c
      | reach path x y z => exact length_joints_perform arm _
      | setTool tool => rfl
      | setWorkspace workspace => rfl
    exact (ih _).trans hop

end Arm

end ArmLang
