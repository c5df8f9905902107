import ArmLang.Motion.Arm
import ArmLang.Proofs.Execution.Recorder

namespace ArmLang

theorem Category.ofCommand?_eq_none_iff {command : String} :
    ofCommand? command = none ↔ command ∉ commands := by
  constructor
  · intro h hm
    have hall : ∀ c ∈ commands, ofCommand? c ≠ none := by decide
    exact hall command hm h
  · exact ofCommand?_eq_none

theorem Category.mem_commands {command : String} {category : Category}
    (h : ofCommand? command = some category) : command ∈ commands := by
  by_contra hn
  rw [ofCommand?_eq_none hn] at h
  cases h

namespace Outcome

def command? : Outcome → Option String
  | skipped command => some command
  | carriedOut | failed _ => none

def error? : Outcome → Option RunError
  | failed e => some e
  | carriedOut | skipped _ => none

end Outcome

namespace Report

def add (r r' : Report) : Report :=
  ⟨r.carriedOut + r'.carriedOut, r.skipped ++ r'.skipped, r.faults ++ r'.faults, r'.final⟩

theorem enter_add (r r' : Report) (o : Outcome) : (r.add r').enter o = (r.enter o).add r' := by
  cases o with
  | skipped command => rfl
  | carriedOut =>
    simp only [enter, add]
    rw [Nat.add_right_comm]
  | failed e => rfl

theorem ofOutcomes_append (os os' : List Outcome) :
    ofOutcomes (os ++ os') = (ofOutcomes os).add (ofOutcomes os') := by
  induction os with
  | nil => simp [ofOutcomes, add]
  | cons o os ih =>
    have h : ofOutcomes (o :: (os ++ os')) = (ofOutcomes (os ++ os')).enter o := rfl
    rw [List.cons_append, h, ih, enter_add]
    rfl

theorem skipped_ofOutcomes (os : List Outcome) :
    (ofOutcomes os).skipped = os.filterMap Outcome.command? := by
  induction os with
  | nil => rfl
  | cons o os ih =>
    cases o with
    | skipped command => exact congrArg (command :: ·) ih
    | carriedOut => exact ih
    | failed e => exact ih

theorem faults_ofOutcomes (os : List Outcome) :
    (ofOutcomes os).faults = os.filterMap Outcome.error? := by
  induction os with
  | nil => rfl
  | cons o os ih =>
    cases o with
    | skipped command => exact ih
    | carriedOut => exact ih
    | failed e => exact congrArg (e :: ·) ih

theorem carriedOut_ofOutcomes (os : List Outcome) :
    (ofOutcomes os).carriedOut = os.count .carriedOut := by
  induction os with
  | nil => rfl
  | cons o os ih =>
    cases o with
    | skipped command =>
      rw [List.count_cons_of_ne (by simp)]
      exact ih
    | carriedOut =>
      rw [List.count_cons_self]
      exact congrArg (· + 1) ih
    | failed e =>
      rw [List.count_cons_of_ne (by simp)]
      exact ih

theorem length_ofOutcomes (os : List Outcome) :
    (ofOutcomes os).carriedOut + (ofOutcomes os).skipped.length + (ofOutcomes os).faults.length =
      os.length := by
  induction os with
  | nil => rfl
  | cons o os ih =>
    have h : ofOutcomes (o :: os) = (ofOutcomes os).enter o := rfl
    rw [h]
    cases o <;> simp only [enter, List.length_cons] <;> omega

end Report

namespace Instruction

/-- Whether there is something to go by: a number of seconds to wait for, or joints or a pose to
move to. -/
def HasArgument (i : Instruction) : Prop :=
  if i.command = waitCommand then ∃ v, i.arg? durationKey = some v ∧ v.number?.isSome
  else (∃ j, i.arg? jointsKey = some (.axis j)) ∨ ∃ v, i.arg? poseKey = some v ∧ v.pose?.isSome

theorem isSome_motionCall? (i : Instruction) (path : Path) (parameters : Dynamics) :
    (Execution.motionCall? i path parameters).isSome ↔
      (∃ j, i.arg? jointsKey = some (.axis j)) ∨
        ∃ v, i.arg? poseKey = some v ∧ v.pose?.isSome := by
  unfold Execution.motionCall?
  split
  · next j hj => simp [hj]
  · next hj =>
    have hnot : ¬ ∃ j, i.arg? jointsKey = some (.axis j) := fun ⟨j, h⟩ => hj j h
    rw [or_iff_right hnot, Option.isSome_map, Option.isSome_bind]
    cases i.arg? poseKey <;> simp

theorem isSome_request? (i : Instruction) (parameters : Dynamics) :
    (i.request? parameters).isSome ↔
      i.command ∈ Category.commands ∧ i.HasArgument := by
  unfold request? HasArgument
  cases hc : Category.ofCommand? i.command with
  | none =>
    have hm := Category.ofCommand?_eq_none_iff.1 hc
    simp only [Option.isSome_none, Bool.false_eq_true, hm, false_and]
  | some category =>
    rw [and_iff_right (Category.mem_commands hc)]
    unfold Category.ofCommand? at hc
    split at hc
    · next hw =>
      cases hc
      rw [if_pos hw, Option.isSome_map, Option.isSome_bind]
      cases i.arg? durationKey <;> simp
    · next hw =>
      obtain ⟨path, _, rfl⟩ := Option.map_eq_some_iff.1 hc
      rw [if_neg hw]
      exact isSome_motionCall? i path parameters

theorem command?_outcome [Drive σ] (parameters : Dynamics) (drive : σ) (i : Instruction) :
    (i.outcome parameters drive).command? =
      if i.command ∈ Category.commands then none else some i.command := by
  unfold outcome
  cases hc : Category.ofCommand? i.command with
  | none =>
    rw [if_neg (Category.ofCommand?_eq_none_iff.1 hc)]
    rfl
  | some category =>
    rw [if_pos (Category.mem_commands hc)]
    dsimp only
    cases i.failure? parameters drive category <;> rfl

variable {i : Instruction} {parameters : Dynamics}

theorem isSome_ofCommand?_of_request? {c : Call} (h : i.request? parameters = some c) :
    ∃ category, Category.ofCommand? i.command = some category := by
  cases hc : Category.ofCommand? i.command with
  | none =>
    rw [request?_eq_none hc] at h
    cases h
  | some category => exact ⟨category, rfl⟩

theorem outcome_of_ok [Drive σ] {drive : σ} {c : Call} (h : i.request? parameters = some c)
    (hok : (c.perform drive).2 = .ok ()) : i.outcome parameters drive = .carriedOut := by
  obtain ⟨category, hc⟩ := isSome_ofCommand?_of_request? h
  unfold outcome failure?
  rw [hc, h]
  dsimp only
  rw [hok]

theorem outcome_of_error [Drive σ] {drive : σ} {c : Call} {cause : Refusal}
    (h : i.request? parameters = some c) (herr : (c.perform drive).2 = .error cause) :
    i.outcome parameters drive = .failed (.fault i.command cause) := by
  obtain ⟨category, hc⟩ := isSome_ofCommand?_of_request? h
  unfold outcome failure?
  rw [hc, h]
  dsimp only
  rw [herr]

end Instruction

namespace Execution

open Activity

variable [Drive σ]

theorem length_outcomes (parameters : Dynamics) (drive : σ) (is : List Instruction) :
    (outcomes parameters drive is).length = is.length := by
  induction is generalizing drive with
  | nil => rfl
  | cons i is ih => exact congrArg (· + 1) (ih _)

theorem outcomes_append (parameters : Dynamics) (drive : σ) (is js : List Instruction) :
    outcomes parameters drive (is ++ js) =
      outcomes parameters drive is ++
        outcomes parameters
          (Call.performAll drive (is.filterMap (·.request? parameters))) js := by
  induction is generalizing drive with
  | nil => rfl
  | cons i is ih =>
    rw [List.cons_append, outcomes, ih, outcomes, List.cons_append, Instruction.requests_cons,
      Call.performAll_append]

theorem filterMap_command?_outcomes (parameters : Dynamics) (drive : σ) (is : List Instruction) :
    (outcomes parameters drive is).filterMap Outcome.command? =
      (is.map (·.command)).filter (· ∉ Category.commands) := by
  induction is generalizing drive with
  | nil => rfl
  | cons i is ih =>
    rw [outcomes, List.map_cons, List.filterMap_cons, List.filter_cons, ih,
      Instruction.command?_outcome]
    by_cases hm : i.command ∈ Category.commands
    · simp [hm]
    · simp [hm]

theorem carryOutAll_append {x : Execution σ} (h : x.controller.mode = .running)
    (is js : List Instruction) :
    carryOutAll (is ++ js) x =
      (do
        let r ← carryOutAll is
        let r' ← carryOutAll js
        return r.add r' : Activity σ Report) x := by
  have hx : (x.after (is.filterMap (·.request? x.parameters))).controller.mode = .running := h
  rw [bind_apply, carryOutAll_eq h, carryOutAll_eq h]
  dsimp only
  rw [bind_pure_apply, carryOutAll_eq hx, after_after, outcomes_append, Report.ofOutcomes_append,
    List.filterMap_append, List.flatMap_append]
  rfl

theorem start_of_run_ok {x : Execution σ} {is : List Instruction} {report : Report}
    (h : (run is x).1 = .ok report) :
    ∃ c notices, x.controller.trigger? Controller.startEvent = some (c, notices) ∧
      c.mode = .running := by
  cases ht : x.controller.trigger? Controller.startEvent with
  | none =>
    rw [run_refused ht] at h
    cases h
  | some started =>
    obtain ⟨c, notices⟩ := started
    by_cases hc : c.mode = .running
    · exact ⟨c, notices, rfl, hc⟩
    · rw [run_diverted ht hc] at h
      cases h

/-- A report that accounts for every instruction of a run that began in `x`. -/
structure Accounts (x : Execution σ) (is : List Instruction) (report : Report) : Prop where
  /-- The machine is running before each instruction, so that none is left out. -/
  running : ∀ done todo, is = done ++ todo →
    let started := (trigger Controller.startEvent x).2.1
    (carryOutAll done started).2.1.controller.mode = .running ∧
      carryOutAll is started =
        (do
          let r ← carryOutAll done
          let r' ← carryOutAll todo
          return r.add r' : Activity σ Report) started
  skipped : report.skipped =
    (is.map (·.command)).filter (· ∉ ["WAIT", "PTP", "LIN", "CIRC", "SPLINE"])
  faults : report.faults = (outcomes x.parameters x.drive is).filterMap Outcome.error?
  carriedOut : report.carriedOut = (outcomes x.parameters x.drive is).count .carriedOut
  total : report.carriedOut + report.skipped.length + report.faults.length = is.length
  /-- The drive gets one request for each instruction with an effect that has its argument. -/
  calls : (run is x).2.2.filterMap Event.call? = is.filterMap (·.request? x.parameters)
  received : (run is (x.record [])).2.1.drive.received = is.filterMap (·.request? x.parameters)
  request : ∀ i : Instruction, (i.request? x.parameters).isSome ↔
    i.command ∈ ["WAIT", "PTP", "LIN", "CIRC", "SPLINE"] ∧ i.HasArgument

/-- Whatever the transitions of the machine and the answers of the drive, a run that gives a report
accounts for every instruction exactly once. -/
theorem run_accounts {x : Execution σ} {is : List Instruction} {report : Report}
    (h : (run is x).1 = .ok report) : Accounts x is report := by
  obtain ⟨c, notices, ht, hc⟩ := start_of_run_ok h
  have hrun := run_started ht hc is
  dsimp only at hrun
  have hx : ({ x with controller := c } : Execution σ).controller.mode = .running := hc
  have hstarted : (trigger Controller.startEvent x).2.1 = { x with controller := c } := by
    rw [trigger_apply ht]
  have hcalls : (run is x).2.2.filterMap Event.call? =
      is.filterMap (·.request? x.parameters) := by
    rw [hrun, List.filterMap_append, List.filterMap_append, filterMap_call?_notice,
      Call.filterMap_call?_episode, filterMap_call?_trigger, List.append_nil, List.nil_append]
  rw [hrun] at h
  cases h
  constructor
  case running =>
    rintro done todo rfl
    rw [hstarted]
    refine ⟨?_, carryOutAll_append hx done todo⟩
    rw [carryOutAll_eq hx]
    exact hc
  case skipped => exact (Report.skipped_ofOutcomes _).trans (filterMap_command?_outcomes ..)
  case faults => exact Report.faults_ofOutcomes _
  case carriedOut => exact Report.carriedOut_ofOutcomes _
  case total => exact (Report.length_ofOutcomes _).trans (length_outcomes ..)
  case calls => exact hcalls
  case received => rw [received_run, hcalls]
  case request => exact fun i => i.isSome_request? x.parameters

/-- A command without effect, a pose that is missing, one that is out of reach, and two instructions
that are carried out. -/
def patrol : List Instruction :=
  [⟨"DECL_p", [], none⟩, ⟨"PTP", [], none⟩,
    ⟨"LIN", [(Instruction.poseKey, .frame ⟨5000.0, 0.0, 0.0, 0.0, 0.0, 0.0⟩)], none⟩,
    ⟨"WAIT", [(Instruction.durationKey, .int 2)], none⟩,
    ⟨"CIRC", [(Instruction.jointsKey, .axis .zero)], none⟩]

/-- A machine that is started when it is stopped, and cannot be brought back to idling. -/
def stoppedArm : Execution Arm where
  drive := default
  controller := ⟨.stopped, [⟨.stopped, .running, Controller.startEvent⟩], []⟩

def patrolReport : Report where
  carriedOut := 2
  skipped := ["DECL_p"]
  faults :=
    [.missingArgument "PTP" Instruction.poseKey,
      .fault "LIN" (.outOfWorkspace "x" 5000.0 (-1000.0) 1000.0)]
  final := .running

theorem accounts_patrol :
    (run patrol stoppedArm).1 = .ok patrolReport ∧ Accounts stoppedArm patrol patrolReport := by
  have h : (run patrol stoppedArm).1 = .ok patrolReport := by decide +kernel
  exact ⟨h, run_accounts h⟩

end Execution

end ArmLang
