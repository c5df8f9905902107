import ArmLang.Proofs.Motion.Operation

namespace ArmLang

theorem getLast?_toList_append (o : Option α) (l : List α) (a : α) :
    (o.toList ++ l).getLast?.getD a = l.getLast?.getD (o.getD a) := by
  cases o with
  | none => rfl
  | some b => simp [List.getLast?_cons]

namespace Arm

/-- Only moves can be refused. -/
def answer (arm : Arm) : Operation → Except Refusal Unit
  | .call c => (c.perform arm).2
  | .reach path x y z => (Drive.reach arm path x y z).2
  | .setTool _ | .setWorkspace _ => .ok ()

namespace Operation

def target? (arm : Arm) : Operation → Option Pose
  | call (.move _ target _) => some target
  | reach _ x y z => some (arm.pose.moveTo x y z)
  | _ => none

def joints? : Operation → Option (List Float)
  | call (.moveJoints targets _) => some targets
  | _ => none

def configure (config : ArmConfig) : Operation → ArmConfig
  | setTool tool => { config with tool }
  | setWorkspace workspace => { config with workspace }
  | _ => config

/-- Where an arm comes to by an operation: a target that is accepted, with the tool added that the
arm has then. -/
def reached? (arm : Arm) (op : Operation) : Option Pose :=
  if (arm.answer op).isOk then (op.target? arm).map (·.add arm.config.tool) else none

def turned? (arm : Arm) (op : Operation) : Option (List Float) :=
  if (arm.answer op).isOk then op.joints? else none

end Operation

/-- Operations one after the other, each with the arm that it finds. -/
def history (arm : Arm) : List Operation → List (Arm × Operation)
  | [] => []
  | op :: ops => (arm, op) :: history (arm.perform op) ops

def reached (arm : Arm) (ops : List Operation) : List Pose :=
  (history arm ops).filterMap fun (arm, op) => op.reached? arm

def turned (arm : Arm) (ops : List Operation) : List (List Float) :=
  (history arm ops).filterMap fun (arm, op) => op.turned? arm

/-- What becomes of an arm by one operation. -/
structure Performed (arm : Arm) (op : Operation) : Prop where
  pose : (arm.perform op).pose = (op.reached? arm).getD arm.pose
  joints : (arm.perform op).joints = (op.turned? arm).getD arm.joints
  announced : (arm.perform op).announced = arm.announced ++ (op.reached? arm).toList
  config : (arm.perform op).config = op.configure arm.config
  moving : arm.moving = false → (arm.perform op).moving = false

section

variable {arm : Arm} {op : Operation}

theorem moveToPose_ok_iff {target : Pose} {parameters : Dynamics} :
    (arm.moveToPose target parameters).2 = .ok () ↔
      arm.config.workspace.violation? target = none := by
  cases hv : arm.config.workspace.violation? target with
  | none => exact iff_of_true (moveToPose_accepted hv parameters) rfl
  | some cause =>
    rw [moveToPose_refused hv]
    exact iff_of_false nofun nofun

theorem moveJoints_ok_iff {targets : List Float} {parameters : Dynamics} :
    (arm.moveJoints targets parameters).2 = .ok () ↔ targets.length = arm.joints.length := by
  by_cases hl : targets.length = arm.joints.length
  · exact iff_of_true (moveJoints_accepted hl parameters) hl
  · rw [moveJoints_refused hl]
    exact iff_of_false nofun hl

/-- What an arm accepts: targets in its workspace, and one value for each of its joints. -/
theorem answer_ok_iff : arm.answer op = .ok () ↔
    (∀ target ∈ op.target? arm, arm.config.workspace.violation? target = none) ∧
      ∀ targets ∈ op.joints?, targets.length = arm.joints.length := by
  cases op with
  | call c =>
    cases c with
    | move path target parameters =>
      exact moveToPose_ok_iff.trans (by simp [Operation.target?, Operation.joints?])
    | moveJoints targets parameters =>
      exact moveJoints_ok_iff.trans (by simp [Operation.target?, Operation.joints?])
    | wait | stop | emergencyStop => exact iff_of_true rfl ⟨nofun, nofun⟩
  | reach path x y z =>
    change (arm.moveToPose (arm.pose.moveTo x y z) {}).2 = .ok () ↔ _
    exact moveToPose_ok_iff.trans (by simp [Operation.target?, Operation.joints?])
  | setTool | setWorkspace => exact iff_of_true rfl ⟨nofun, nofun⟩

theorem perform_of_error {cause : Refusal} (h : arm.answer op = .error cause) :
    arm.perform op = arm := by
  cases op with
  | call c => exact perform_of_refused h
  | reach path x y z => exact perform_of_refused h
  | setTool | setWorkspace => cases h

theorem performed_of_error {cause : Refusal} (h : arm.answer op = .error cause) :
    Performed arm op := by
  have hperform := perform_of_error h
  have hreached : op.reached? arm = none := by
    rw [Operation.reached?, h]
    rfl
  have hturned : op.turned? arm = none := by
    rw [Operation.turned?, h]
    rfl
  constructor
  case pose => rw [hperform, hreached]; rfl
  case joints => rw [hperform, hturned]; rfl
  case announced => rw [hperform, hreached]; exact (List.append_nil _).symm
  case config =>
    rw [hperform]
    cases op with
    | call | reach => rfl
    | setTool | setWorkspace => cases h
  case moving => rw [hperform]; exact id

theorem performed_of_ok {after : Arm} (h : arm.answer op = .ok ()) (hafter : arm.perform op = after)
    (hpose : after.pose = ((op.target? arm).map (·.add arm.config.tool)).getD arm.pose)
    (hjoints : after.joints = op.joints?.getD arm.joints)
    (hannounced : after.announced =
      arm.announced ++ ((op.target? arm).map (·.add arm.config.tool)).toList)
    (hconfig : after.config = op.configure arm.config)
    (hmoving : arm.moving = false → after.moving = false) : Performed arm op := by
  have hreached : op.reached? arm = (op.target? arm).map (·.add arm.config.tool) := by
    rw [Operation.reached?, h]
    rfl
  have hturned : op.turned? arm = op.joints? := by
    rw [Operation.turned?, h]
    rfl
  subst hafter
  constructor
  case pose => rw [hreached, hpose]
  case joints => rw [hturned, hjoints]
  case announced => rw [hreached, hannounced]
  case config => exact hconfig
  case moving => exact hmoving

end

theorem performed_move (arm : Arm) (path : Path) (target : Pose) (parameters : Dynamics) :
    Performed arm (.call (.move path target parameters)) := by
  cases hv : arm.config.workspace.violation? target with
  | some cause =>
    exact performed_of_error (congrArg Prod.snd (moveToPose_refused hv parameters))
  | none =>
    obtain ⟨time, hm⟩ := moveToPose_eq hv parameters
    exact performed_of_ok (congrArg Prod.snd hm) (congrArg Prod.fst hm) rfl rfl rfl rfl
      fun _ => rfl

theorem performed_moveJoints (arm : Arm) (targets : List Float) (parameters : Dynamics) :
    Performed arm (.call (.moveJoints targets parameters)) := by
  by_cases hl : targets.length = arm.joints.length
  · obtain ⟨time, hm⟩ := moveJoints_eq hl parameters
    exact performed_of_ok (congrArg Prod.snd hm) (congrArg Prod.fst hm) rfl rfl
      (List.append_nil _).symm rfl fun _ => rfl
  · exact performed_of_error (congrArg Prod.snd (moveJoints_refused hl parameters))

theorem performed (arm : Arm) (op : Operation) : Performed arm op := by
  have hsilent : arm.announced = arm.announced ++ [] := (List.append_nil _).symm
  cases op with
  | call c =>
    cases c with
    | move path target parameters => exact performed_move arm path target parameters
    | moveJoints targets parameters => exact performed_moveJoints arm targets parameters
    | wait seconds => exact performed_of_ok rfl (pass_eq arm seconds) rfl rfl hsilent rfl id
    | stop | emergencyStop => exact performed_of_ok rfl rfl rfl rfl hsilent rfl fun _ => rfl
  | reach path x y z =>
    -- This is one move, with the usual limits, to a target that depends on the arm.
    obtain ⟨hpose, hjoints, hannounced, hconfig, hmoving⟩ :=
      performed_move arm path (arm.pose.moveTo x y z) {}
    exact ⟨hpose, hjoints, hannounced, hconfig, hmoving⟩
  | setTool | setWorkspace => exact performed_of_ok rfl rfl rfl rfl hsilent rfl id

/-- What becomes of an arm by a series of operations. -/
structure PerformedAll (arm : Arm) (ops : List Operation) : Prop where
  pose : (arm.performAll ops).pose = (arm.reached ops).getLast?.getD arm.pose
  joints : (arm.performAll ops).joints = (arm.turned ops).getLast?.getD arm.joints
  announced : (arm.performAll ops).announced = arm.announced ++ arm.reached ops
  config : (arm.performAll ops).config = ops.foldl Operation.configure arm.config
  moving : arm.moving = false → (arm.performAll ops).moving = false

theorem performedAll (arm : Arm) (ops : List Operation) : PerformedAll arm ops := by
  induction ops generalizing arm with
  | nil => exact ⟨rfl, rfl, (List.append_nil _).symm, rfl, id⟩
  | cons op ops ih =>
    have hstep := performed arm op
    have hrest := ih (arm.perform op)
    have hreached : arm.reached (op :: ops) =
        (op.reached? arm).toList ++ (arm.perform op).reached ops := filterMap_cons_toList ..
    have hturned : arm.turned (op :: ops) =
        (op.turned? arm).toList ++ (arm.perform op).turned ops := filterMap_cons_toList ..
    constructor
    case pose =>
      rw [hreached, getLast?_toList_append, ← hstep.pose]
      exact hrest.pose
    case joints =>
      rw [hturned, getLast?_toList_append, ← hstep.joints]
      exact hrest.joints
    case announced =>
      rw [hreached, ← List.append_assoc, ← hstep.announced]
      exact hrest.announced
    case config =>
      rw [List.foldl_cons, ← hstep.config]
      exact hrest.config
    case moving => exact fun h => hrest.moving (hstep.moving h)

/-- What holds of an arm after it was set up and operated on. -/
structure Traced (config : ArmConfig) (ops : List Operation) (arm : Arm) : Prop where
  six : arm.joints.length = 6
  still : arm.moving = false
  pose : arm.pose = (reached { config } ops).getLast?.getD .zero
  joints : arm.joints = (turned { config } ops).getLast?.getD Joints.zero.toList
  announced : arm.announced = reached { config } ops
  /-- The tool and the workspace are those that were set last. -/
  config : arm.config = ops.foldl Operation.configure config
  accepted : ∀ op : Operation, arm.answer op = .ok () ↔
    (∀ target ∈ op.target? arm, arm.config.workspace.violation? target = none) ∧
      ∀ targets ∈ op.joints?, targets.length = 6
  refused : ∀ op cause, arm.answer op = .error cause → arm.perform op = arm

/-- Whatever its configuration and the operations so far, an arm is at rest where the last accepted
moves took it, has announced every pose it came to, and is not changed by a move that it refuses. -/
theorem traced (config : ArmConfig) (ops : List Operation) :
    Traced config ops (performAll { config } ops) := by
  have h := performedAll { config } ops
  have hsix : (performAll { config } ops).joints.length = 6 :=
    length_joints_performAll { config } ops
  constructor
  case six => exact hsix
  case still => exact h.moving rfl
  case pose => exact h.pose
  case joints => exact h.joints
  case announced => exact h.announced
  case config => exact h.config
  case accepted =>
    intro op
    rw [← hsix]
    exact answer_ok_iff
  case refused => exact fun _ _ => perform_of_error

end Arm

end ArmLang
