import ArmLang.Proofs.Execution.Gating
import ArmLang.Proofs.Execution.Ledger
import ArmLang.Proofs.Motion.Operation

namespace ArmLang

/-- On such a drive a request that is refused leaves no trace. -/
def Drive.RefusesCleanly (σ : Type) [Drive σ] : Prop :=
  ∀ (drive : σ) (c : Call) (cause : Refusal), (c.perform drive).2 = .error cause →
    (c.perform drive).1 = drive

theorem Arm.refusesCleanly : Drive.RefusesCleanly Arm := fun _ _ _ h => perform_of_refused h

def Event.notice? : Event → Option Notice
  | .notice n => some n
  | .call _ => none

def Controller.heard (c : Controller) (es : List Event) : List String :=
  es.filterMap fun e => e.notice?.bind c.handler?

namespace Controller

theorem heard_append (c : Controller) (es es' : List Event) :
    c.heard (es ++ es') = c.heard es ++ c.heard es' :=
  List.filterMap_append

end Controller

namespace Report

/-- Without what was skipped and what failed, a report is the same but for the lists of those. -/
theorem ofOutcomes_filter (os : List Outcome) :
    ofOutcomes (os.filter (· = .carriedOut)) =
      { ofOutcomes os with skipped := [], faults := [] } := by
  induction os with
  | nil => rfl
  | cons o os ih =>
    cases o with
    | skipped command => exact ih
    | carriedOut => exact congrArg (fun r => r.enter .carriedOut) ih
    | failed e => exact ih

end Report

namespace Instruction

variable [Drive σ] {i : Instruction} {parameters : Dynamics} {drive : σ}

/-- An instruction that is not carried out makes no request or one that is refused. -/
theorem refused_of_outcome (h : i.outcome parameters drive ≠ .carriedOut) {c : Call}
    (hc : i.request? parameters = some c) : ∃ cause, (c.perform drive).2 = .error cause := by
  cases hp : (c.perform drive).2 with
  | ok u => exact absurd (outcome_of_ok hc hp) h
  | error cause => exact ⟨cause, rfl⟩

theorem performAll_of_outcome (hσ : Drive.RefusesCleanly σ)
    (h : i.outcome parameters drive ≠ .carriedOut) :
    Call.performAll drive (i.request? parameters).toList = drive := by
  cases hc : i.request? parameters with
  | none => rfl
  | some c =>
    obtain ⟨cause, hcause⟩ := refused_of_outcome h hc
    exact hσ drive c cause hcause

/-- Only a wait has a mode of its own, and that is never refused. -/
theorem heard_of_outcome (h : i.outcome parameters drive ≠ .carriedOut) (c : Controller) :
    c.heard ((i.request? parameters).toList.flatMap Call.episode) = [] := by
  cases hc : i.request? parameters with
  | none => rfl
  | some call =>
    obtain ⟨cause, hcause⟩ := refused_of_outcome h hc
    cases call with
    | wait => cases hcause
    | move | moveJoints | stop | emergencyStop => rfl

end Instruction

namespace Execution

variable [Drive σ]

theorem outcomes_take (parameters : Dynamics) (drive : σ) (is : List Instruction) (n : Nat) :
    outcomes parameters drive (is.take n) = (outcomes parameters drive is).take n := by
  induction is generalizing drive n with
  | nil => simp [outcomes]
  | cons i is ih =>
    cases n with
    | zero => rfl
    | succ n => exact congrArg (_ :: ·) (ih _ n)

/-- The instructions that are carried out if all are run one after the other: those that are skipped
and those that fail are left out. -/
def effective (parameters : Dynamics) (drive : σ) (is : List Instruction) : List Instruction :=
  ((is.zip (outcomes parameters drive is)).filter (·.2 = .carriedOut)).map (·.1)

theorem effective_cons (parameters : Dynamics) (drive : σ) (i : Instruction)
    (is : List Instruction) :
    effective parameters drive (i :: is) =
      let rest :=
        effective parameters (Call.performAll drive (i.request? parameters).toList) is
      if i.outcome parameters drive = .carriedOut then i :: rest else rest := by
  unfold effective
  rw [outcomes, List.zip_cons_cons, List.filter_cons]
  by_cases h : i.outcome parameters drive = .carriedOut
  · simp [h]
  · simp [h]

section

variable (hσ : Drive.RefusesCleanly σ) (parameters : Dynamics) (drive : σ) (is : List Instruction)

include hσ

theorem outcomes_effective :
    outcomes parameters drive (effective parameters drive is) =
      (outcomes parameters drive is).filter (· = .carriedOut) := by
  induction is generalizing drive with
  | nil => rfl
  | cons i is ih =>
    rw [effective_cons, outcomes]
    by_cases h : i.outcome parameters drive = .carriedOut
    · rw [if_pos h, outcomes, ih, List.filter_cons_of_pos (by simp [h])]
    · rw [if_neg h, Instruction.performAll_of_outcome hσ h, ih,
        List.filter_cons_of_neg (by simp [h])]

theorem performAll_effective :
    Call.performAll drive ((effective parameters drive is).filterMap (·.request? parameters)) =
      Call.performAll drive (is.filterMap (·.request? parameters)) := by
  induction is generalizing drive with
  | nil => rfl
  | cons i is ih =>
    rw [effective_cons, Instruction.requests_cons, Call.performAll_append]
    by_cases h : i.outcome parameters drive = .carriedOut
    · rw [if_pos h, Instruction.requests_cons, Call.performAll_append, ih]
    · rw [if_neg h, Instruction.performAll_of_outcome hσ h, ih]

theorem heard_effective (c : Controller) :
    c.heard
        (((effective parameters drive is).filterMap (·.request? parameters)).flatMap
          Call.episode) =
      c.heard ((is.filterMap (·.request? parameters)).flatMap Call.episode) := by
  induction is generalizing drive with
  | nil => rfl
  | cons i is ih =>
    rw [effective_cons, Instruction.requests_cons, List.flatMap_append, Controller.heard_append]
    by_cases h : i.outcome parameters drive = .carriedOut
    · rw [if_pos h, Instruction.requests_cons, List.flatMap_append, Controller.heard_append, ih]
    · rw [if_neg h, Instruction.heard_of_outcome h, Instruction.performAll_of_outcome hσ h, ih]
      rfl

theorem run_effective_of_refusesCleanly {x : Execution σ} (hs : x.controller.Settled)
    (hm : x.controller.mode = .idle) :
    let os := outcomes x.parameters x.drive is
    let js := effective x.parameters x.drive is
    (run js x).1 = .ok { Report.ofOutcomes os with skipped := [], faults := [], final := .idle } ∧
      (run js x).2.1 = (run is x).2.1 ∧
      x.controller.heard (run js x).2.2 = x.controller.heard (run is x).2.2 := by
  intro os js
  rw [run_idle_eq hs hm, run_idle_eq hs hm]
  refine ⟨?_, ?_, ?_⟩
  · rw [outcomes_effective hσ, Report.ofOutcomes_filter]
  · unfold after
    rw [performAll_effective hσ]
  · unfold runLog
    simp only [Controller.heard_append]
    rw [heard_effective hσ]

end

/-- The instructions that a run of a simulated arm skips or fails to carry out might as well not be
there: without them the arm, with all it has announced, the machine and what its handlers write are
the same, as many instructions are carried out, and none is skipped and none fails. What became of
each instruction shows in the reports of the runs that end with it. -/
theorem run_effective (arm : Arm) (handlers : List (Notice × String)) (parameters : Dynamics)
    (is : List Instruction) :
    let x : Execution Arm := ⟨arm, { Controller.standard with handlers }, parameters⟩
    let os := outcomes parameters arm is
    let js := effective parameters arm is
    (∀ n, (run (is.take n) x).1 = .ok { Report.ofOutcomes (os.take n) with final := .idle }) ∧
      (run js x).1 =
        .ok { Report.ofOutcomes os with skipped := [], faults := [], final := .idle } ∧
      (run js x).2.1 = (run is x).2.1 ∧
      x.controller.heard (run js x).2.2 = x.controller.heard (run is x).2.2 := by
  intro x os js
  have hs : x.controller.Settled := ⟨rfl, Mode.noConfusion⟩
  refine ⟨fun n => ?_, run_effective_of_refusesCleanly Arm.refusesCleanly is hs rfl⟩
  rw [run_idle_eq hs rfl, outcomes_take]

end Execution

end ArmLang
