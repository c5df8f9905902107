import ArmLang.Execution.Basic

namespace ArmLang.Execution

open Activity

def carryOutWait [Drive σ] (i : Instruction) : Activity σ (Except RunError Unit) := do
  match (i.arg? Instruction.durationKey).bind Value.number? with
  | none => return .error (.missingArgument i.command Instruction.durationKey)
  | some seconds =>
    convert .waiting
    let _ ← call (.wait seconds)
    convert .running
    return .ok ()

/-- The request that a motion instruction makes; joints go before a pose. -/
def motionCall? (i : Instruction) (path : Path) (parameters : Dynamics) : Option Call :=
  match i.arg? Instruction.jointsKey with
  | some (.axis j) => some (.moveJoints j.toList parameters)
  | _ => ((i.arg? Instruction.poseKey).bind Value.pose?).map fun p => .move path p parameters

def carryOutMotion [Drive σ] (i : Instruction) (path : Path) :
    Activity σ (Except RunError Unit) := do
  match motionCall? i path (← get).parameters with
  | none => return .error (.missingArgument i.command Instruction.poseKey)
  | some c => match ← call c with
    | .ok () => return .ok ()
    | .error fault => return .error (.fault i.command fault)

def carryOut [Drive σ] (i : Instruction) : Category → Activity σ (Except RunError Unit)
  | .wait => carryOutWait i
  | .motion path => carryOutMotion i path

/-- Goes through instructions for as long as the mode stays `running`. -/
def carryOutAll [Drive σ] : List Instruction → Activity σ Report
  | [] => return {}
  | i :: is => do
    if (← mode) ≠ .running then return {}
    match Category.ofCommand? i.command with
    | none =>
      let r ← carryOutAll is
      return { r with skipped := i.command :: r.skipped }
    | some category => match ← carryOut i category with
      | .ok () =>
        let r ← carryOutAll is
        return { r with carriedOut := r.carriedOut + 1 }
      | .error e =>
        let r ← carryOutAll is
        return { r with faults := e :: r.faults }

/-- Runs a program. It fails only if it cannot be started; an instruction that fails is passed
over. -/
def run [Drive σ] (is : List Instruction) : Activity σ (Except RunError Report) := do
  let started ← trigger Controller.startEvent
  if !started || (← mode) ≠ .running then return .error (.notRunning (← mode))
  let r ← carryOutAll is
  if (← mode) = .running then
    let _ ← trigger Controller.completeEvent
  return .ok { r with final := ← mode }

def start : Activity σ Bool := trigger Controller.startEvent

def stop [Drive σ] : Activity σ Bool := do
  let stopped ← trigger Controller.stopEvent
  if stopped then
    let _ ← call .stop
  return stopped

/-- Stops the drive whatever the mode, then takes the emergency event. -/
def emergencyStop [Drive σ] : Activity σ Bool := do
  let _ ← call .emergencyStop
  trigger Controller.emergencyEvent

def reset : Activity σ Bool := trigger Controller.resetEvent

end ArmLang.Execution
