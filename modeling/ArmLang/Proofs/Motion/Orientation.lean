import ArmLang.Proofs.Motion.Trace
import ArmLang.Proofs.Number.Sum

namespace ArmLang

namespace Pose

def Finite (p : Pose) : Prop := ∀ v ∈ p.toList, v.isFinite

def Oriented (p : Pose) : Prop := p.a.isNaN = false ∧ p.b.isNaN = false ∧ p.c.isNaN = false

def SameOrientation (p q : Pose) : Prop :=
  (p.a == q.a) = true ∧ (p.b == q.b) = true ∧ (p.c == q.c) = true

/-- Whether the pose, as a tool, leaves the orientation alone. -/
def Unrotated (p : Pose) : Prop := p.SameOrientation zero

instance (p : Pose) : Decidable p.Finite := inferInstanceAs (Decidable (∀ v ∈ p.toList, _))

instance (p q : Pose) : Decidable (p.SameOrientation q) := inferInstanceAs (Decidable (_ ∧ _))

instance (p : Pose) : Decidable p.Unrotated := inferInstanceAs (Decidable (p.SameOrientation zero))

theorem Finite.orientation {p : Pose} (h : p.Finite) :
    p.a.isFinite ∧ p.b.isFinite ∧ p.c.isFinite := by
  simp only [Finite, toList, List.forall_mem_cons] at h
  obtain ⟨-, -, -, ha, hb, hc, -⟩ := h
  exact ⟨ha, hb, hc⟩

theorem Finite.oriented {p : Pose} (h : p.Finite) : p.Oriented := by
  obtain ⟨ha, hb, hc⟩ := h.orientation
  exact ⟨Number.isNaN_of_isFinite ha, Number.isNaN_of_isFinite hb, Number.isNaN_of_isFinite hc⟩

theorem oriented_zero : zero.Oriented := ⟨by decide, by decide, by decide⟩

theorem Oriented.moveTo {p : Pose} (h : p.Oriented) (x y z : Float) : (p.moveTo x y z).Oriented := h

theorem Oriented.add {p q : Pose} (hp : p.Oriented) (hq : q.Finite) : (p.add q).Oriented := by
  obtain ⟨ha, hb, hc⟩ := hq.orientation
  exact ⟨Number.isNaN_add hp.1 ha, Number.isNaN_add hp.2.1 hb, Number.isNaN_add hp.2.2 hc⟩

theorem Oriented.sameOrientation_add {p q : Pose} (hp : p.Oriented) (hq : q.Unrotated) :
    (p.add q).SameOrientation p :=
  ⟨Number.add_zero_beq hp.1 hq.1, Number.add_zero_beq hp.2.1 hq.2.1,
    Number.add_zero_beq hp.2.2 hq.2.2⟩

end Pose

namespace Arm

def Operation.Finite : Operation → Prop
  | call (.move _ target _) => target.Finite
  | setTool tool => tool.Finite
  | _ => True

instance (op : Operation) : Decidable op.Finite := by
  unfold Operation.Finite
  split <;> infer_instance

/-- What finite poses keep up: the arm has an orientation, and its tool is finite. -/
structure Steady (arm : Arm) : Prop where
  pose : arm.pose.Oriented
  tool : arm.config.tool.Finite

variable {arm : Arm} {op : Operation}

theorem oriented_target? (h : arm.pose.Oriented) (hop : op.Finite) :
    ∀ target ∈ op.target? arm, target.Oriented := by
  intro target htarget
  cases op with
  | call c =>
    cases c with
    | move path pose parameters =>
      cases htarget
      exact hop.oriented
    | moveJoints | wait | stop | emergencyStop => cases htarget
  | reach path x y z =>
    cases htarget
    exact h.moveTo x y z
  | setTool | setWorkspace => cases htarget

theorem Steady.reached? (h : arm.Steady) (hop : op.Finite) :
    ∀ pose ∈ op.reached? arm, pose.Oriented := by
  intro pose hpose
  rw [Operation.reached?] at hpose
  split at hpose
  · obtain ⟨target, htarget, rfl⟩ := Option.map_eq_some_iff.1 hpose
    exact (oriented_target? h.pose hop target htarget).add h.tool
  · cases hpose

theorem Steady.configure (h : arm.Steady) (hop : op.Finite) :
    (op.configure arm.config).tool.Finite := by
  cases op with
  | setTool tool => exact hop
  | call | reach | setWorkspace => exact h.tool

theorem Steady.perform (h : arm.Steady) (hop : op.Finite) : (arm.perform op).Steady := by
  have hstep := performed arm op
  constructor
  case pose =>
    rw [hstep.pose]
    cases hreached : op.reached? arm with
    | none => exact h.pose
    | some pose => exact h.reached? hop pose hreached
  case tool =>
    rw [hstep.config]
    exact h.configure hop

theorem Steady.performAll (h : arm.Steady) {ops : List Operation} (hops : ∀ op ∈ ops, op.Finite) :
    (arm.performAll ops).Steady := by
  induction ops generalizing arm with
  | nil => exact h
  | cons op ops ih =>
    rw [List.forall_mem_cons] at hops
    exact ih (h.perform hops.1) hops.2

theorem steady_new {config : ArmConfig} (h : config.tool.Finite) : Steady { config } where
  pose := Pose.oriented_zero
  tool := h

/-- A place that is accepted is gone to with the tool added, in its rotation as well. So the
orientation is kept if the tool is not rotated, wherever the arm has been before. -/
theorem reach_orientation {config : ArmConfig} {ops : List Operation} {path : Path} {x y z : Float}
    (hconfig : config.tool.Finite) (hops : ∀ op ∈ ops, op.Finite)
    (hok : (performAll { config } ops).answer (.reach path x y z) = .ok ()) :
    let before := performAll { config } ops
    let after := before.perform (.reach path x y z)
    after.pose = (before.pose.moveTo x y z).add before.config.tool ∧
      (before.config.tool.Unrotated → after.pose.SameOrientation before.pose) := by
  intro before after
  have hpose : after.pose = (before.pose.moveTo x y z).add before.config.tool := by
    have hstep := (performed before (.reach path x y z)).pose
    rwa [Operation.reached?, hok] at hstep
  refine ⟨hpose, fun htool => ?_⟩
  have hsteady : before.Steady := (steady_new hconfig).performAll hops
  rw [hpose]
  exact (hsteady.pose.moveTo x y z).sameOrientation_add htool

/-- An arm that was turned keeps its orientation with a long tool. -/
theorem reach_orientation_long_tool :
    let config : ArmConfig := { tool := { z := 50.0 } }
    let ops := [Operation.call (.move .lin ⟨1.0, 2.0, 3.0, 10.0, 20.0, 30.0⟩ {})]
    let before := performAll { config } ops
    let after := before.perform (.reach .ptp 4.0 5.0 6.0)
    (config.tool.Finite ∧ (∀ op ∈ ops, op.Finite) ∧
      before.answer (.reach .ptp 4.0 5.0 6.0) = .ok () ∧ before.config.tool.Unrotated) ∧
      before.pose = ⟨1.0, 2.0, 53.0, 10.0, 20.0, 30.0⟩ ∧
      after.pose.SameOrientation before.pose := by
  intro config ops before after
  have hconfig : config.tool.Finite := by decide
  have hops : ∀ op ∈ ops, op.Finite := by decide
  have hok : before.answer (.reach .ptp 4.0 5.0 6.0) = .ok () := by decide +kernel
  have htool : before.config.tool.Unrotated := by decide +kernel
  have hpose : before.pose = ⟨1.0, 2.0, 53.0, 10.0, 20.0, 30.0⟩ := by decide +kernel
  exact ⟨⟨hconfig, hops, hok, htool⟩, hpose, (reach_orientation hconfig hops hok).2 htool⟩

/-- A rotated tool turns the arm on its way to a place. -/
theorem reach_turned :
    let arm : Arm := { config := { tool := { a := 10.0 } } }
    arm.answer (.reach .ptp 1.0 2.0 3.0) = .ok () ∧
      ¬ (arm.perform (.reach .ptp 1.0 2.0 3.0)).pose.SameOrientation arm.pose := by
  decide

end Arm

end ArmLang
