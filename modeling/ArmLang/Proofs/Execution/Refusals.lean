import ArmLang.Proofs.Compilation
import ArmLang.Proofs.Execution.Ledger
import ArmLang.Proofs.Instruction.Bracket
import ArmLang.Proofs.Motion.Operation

namespace ArmLang

theorem Category.name_of_ofCommand? {command : String} {path : Path}
    (h : ofCommand? command = some (.motion path)) : command = path.name := by
  unfold ofCommand? at h
  split at h
  · cases h
  · obtain ⟨_, hp, he⟩ := Option.map_eq_some_iff.1 h
    cases he
    have hname := List.find?_some hp
    exact (of_decide_eq_true hname).symm

namespace Instruction

variable {i : Instruction} {parameters : Dynamics}

def refusal? (workspace : Workspace) (i : Instruction) : Option RunError :=
  match Category.ofCommand? i.command, i.arg? poseKey with
  | some (.motion _), some (.pos p) => (workspace.violation? p).map (.fault i.command)
  | _, _ => none

theorem error?_outcome_skipped (h : Category.ofCommand? i.command = none) (arm : Arm) :
    (i.outcome parameters arm).error? = i.refusal? arm.config.workspace := by
  unfold outcome refusal?
  rw [h]
  rfl

theorem error?_outcome_motion {v : Value} {goal : String × Value}
    (h : Statement.motionTarget? v = some goal) (path : Path) (relative : Bool) (target : String)
    (l : Location) {arm : Arm} (hj : arm.joints.length = 6) :
    let i : Instruction :=
      ⟨(Keyword.motion path relative).text, [("position", .char target), goal], l⟩
    (i.outcome parameters arm).error? = i.refusal? arm.config.workspace := by
  intro i
  have hc := Category.ofCommand?_motion path relative
  have hr := Statement.request?_motion h parameters path relative target l
  rw [Statement.pathOf?_motion] at hr
  cases relative with
  | true => exact error?_outcome_skipped hc arm
  | false =>
    have hpose (p : Pose) (hg : goal = (poseKey, .pos p))
        (hr : i.request? parameters = some (.move path p parameters)) :
        (i.outcome parameters arm).error? = i.refusal? arm.config.workspace := by
      have ha : i.arg? poseKey = some (.pos p) := by
        subst hg
        rfl
      unfold refusal?
      rw [ha, hc]
      simp only [Bool.false_eq_true, if_false]
      cases hv : arm.config.workspace.violation? p with
      | none =>
        rw [outcome_of_ok hr (Arm.moveToPose_accepted hv parameters)]
        rfl
      | some cause =>
        rw [outcome_of_error hr (congrArg Prod.snd (Arm.moveToPose_refused hv parameters))]
        rfl
    cases v with
    | pos p => exact hpose p (Option.some.inj h).symm hr
    | frame p => exact hpose p (Option.some.inj h).symm hr
    | axis joints =>
      have ha : i.arg? poseKey = none := by
        cases h
        rfl
      have hlength : joints.toList.length = arm.joints.length := hj.symm
      have hok : ((Call.moveJoints joints.toList parameters).perform arm).2 = .ok () :=
        Arm.moveJoints_accepted hlength parameters
      rw [outcome_of_ok hr hok]
      unfold refusal?
      rw [ha, hc]
      rfl
    | _ => cases h

/-- An arm with six joints refuses nothing that a compiled instruction asks for but a pose outside
its workspace. -/
theorem error?_outcome (h : Emitted i ∨ i.command ∈ marks) {arm : Arm}
    (hj : arm.joints.length = 6) :
    (i.outcome parameters arm).error? = i.refusal? arm.config.workspace := by
  rcases h with h | h
  · cases h with
    | assignment name w l =>
      exact error?_outcome_skipped (Category.ofCommand?_append (by decide) name) arm
    | declaration name type v l =>
      exact error?_outcome_skipped (Category.ofCommand?_append (by decide) name) arm
    | fields type name v l => exact error?_outcome_skipped type.ofCommand?_declaration arm
    | motion path relative target l hg => exact error?_outcome_motion hg path relative target l hj
    | wait seconds l =>
      rw [outcome_of_ok (c := .wait seconds) rfl rfl]
      rfl
  · exact error?_outcome_skipped (Statement.ofCommand?_mark _ h) arm

theorem refusal?_eq_some {workspace : Workspace} {e : RunError}
    (h : i.refusal? workspace = some e) :
    ∃ (path : Path) (pose : Pose) (component : String) (value lo hi : Float),
      i.command = path.name ∧ i.arg? poseKey = some (.pos pose) ∧
        workspace.violation? pose = some (.outOfWorkspace component value lo hi) ∧
        e = .fault path.name (.outOfWorkspace component value lo hi) := by
  unfold refusal? at h
  split at h
  · next path pose hc ha =>
    have hpath := Category.name_of_ofCommand? hc
    obtain ⟨cause, hv, rfl⟩ := Option.map_eq_some_iff.1 h
    obtain ⟨component, value, lo, hi, rfl⟩ := Workspace.violation?_eq_some hv
    exact ⟨path, pose, component, value, lo, hi, hpath, ha, hv, by rw [hpath]⟩
  · cases h

end Instruction

namespace Execution

/-- What an arm with six joints answers to compiled instructions depends on its workspace only. -/
theorem filterMap_error?_outcomes {is : List Instruction} (parameters : Dynamics)
    (h : ∀ i ∈ is, Instruction.Emitted i ∨ i.command ∈ Instruction.marks) {arm : Arm}
    (hj : arm.joints.length = 6) :
    (outcomes parameters arm is).filterMap Outcome.error? =
      is.filterMap (·.refusal? arm.config.workspace) := by
  induction is generalizing arm with
  | nil => rfl
  | cons i is ih =>
    rw [List.forall_mem_cons] at h
    have hafter := (Arm.length_joints_performCalls arm (i.request? parameters).toList).trans hj
    rw [outcomes, List.filterMap_cons, List.filterMap_cons, Instruction.error?_outcome h.1 hj,
      ih h.2 hafter, Arm.config_performCalls]

end Execution

theorem instructions_compile (source : String) :
    (compile source).instructions = [] ∨
      (compile source).instructions = (Program.read (Token.scan source)).1.flatten.code := by
  have h := staged_compile source
  generalize compile source = c at h ⊢
  cases h with
  | lexical | grammatical => exact .inl rfl
  | semantic => exact .inr rfl

theorem forall_mem_instructions_compile (source : String) :
    ∀ i ∈ (compile source).instructions, Instruction.Emitted i ∨ i.command ∈ Instruction.marks := by
  rcases instructions_compile source with h | h
  · rw [h]
    exact List.forall_mem_nil _
  · rw [h]
    exact (Program.bracketed_emitted _).forall_mem

/-- A compiled program runs on every simulated arm, whatever was done to it before, and the only
errors are those of the motions to poses outside the workspace. -/
theorem run_compile_refusals (source : String) (config : ArmConfig) (ops : List Arm.Operation)
    (handlers : List (Notice × String)) (parameters : Dynamics) :
    let arm := Arm.performAll { config } ops
    let x : Execution Arm := ⟨arm, { Controller.standard with handlers }, parameters⟩
    let is := (compile source).instructions
    ∃ report, (Execution.run is x).1 = .ok report ∧
      report.faults = is.filterMap (·.refusal? arm.config.workspace) ∧
      ∀ e ∈ report.faults, ∃ i ∈ is, ∃ (path : Path) (pose : Pose) (component : String)
        (value lo hi : Float), i.command = path.name ∧
          i.arg? Instruction.poseKey = some (.pos pose) ∧
          arm.config.workspace.violation? pose = some (.outOfWorkspace component value lo hi) ∧
          e = .fault path.name (.outOfWorkspace component value lo hi) := by
  intro arm x is
  have hj : arm.joints.length = 6 := Arm.length_joints_performAll { config } ops
  have hfaults := Execution.filterMap_error?_outcomes parameters
    (forall_mem_instructions_compile source) hj
  have hstart : x.controller.trigger? Controller.startEvent =
      some ({ Execution.running with handlers }, Controller.conversion .idle .running) := rfl
  have hrun := Execution.run_started hstart rfl is
  dsimp only at hrun
  have hreport : (Report.ofOutcomes (Execution.outcomes parameters arm is)).faults =
      is.filterMap (·.refusal? arm.config.workspace) :=
    (Report.faults_ofOutcomes _).trans hfaults
  rw [hrun]
  refine ⟨_, rfl, hreport, fun e he => ?_⟩
  obtain ⟨i, hi, he⟩ := List.mem_filterMap.1 (hreport ▸ he)
  exact ⟨i, hi, Instruction.refusal?_eq_some he⟩

end ArmLang
