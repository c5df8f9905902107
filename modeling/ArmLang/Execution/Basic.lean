import ArmLang.Controller
import ArmLang.Instruction.Basic
import ArmLang.Motion.Drive

namespace ArmLang

/-- Why a run could not be started, or an instruction not be carried out. -/
inductive RunError
  | notRunning (mode : Mode)
  | missingArgument (command argument : String)
  | fault (command : String) (cause : Refusal)
  deriving DecidableEq

def RunError.message : RunError → String
  | notRunning mode => "cannot start execution from state " ++ mode.title
  | missingArgument command argument =>
    command ++ " is missing its '" ++ argument ++ "' argument"
  | fault command cause => command ++ " failed: " ++ cause.message

inductive Category
  | motion (path : Path)
  | wait
  deriving DecidableEq, Repr

def waitCommand : String := "WAIT"

/-- The category of a command. Commands without one have no effect when a program runs. -/
def Category.ofCommand? (command : String) : Option Category :=
  if command = waitCommand then some .wait
  else (Path.all.find? (·.name = command)).map .motion

/-- What came of a run: how many instructions were carried out, which commands were passed over, and
which instructions failed, with the mode at the end. -/
structure Report where
  carriedOut : Nat := 0
  skipped : List String := []
  faults : List RunError := []
  final : Mode := .idle
  deriving DecidableEq

def Report.isClean (r : Report) : Bool := r.faults.isEmpty

/-- One thing that can be seen of an execution from outside. A request is made in the mode `m`. -/
inductive Event
  | notice (n : Notice)
  | call {m : Mode} (c : Call)
  deriving DecidableEq

structure Execution (σ : Type) where
  drive : σ
  controller : Controller := .standard
  parameters : Dynamics := {}

/-- A step of an execution: its result, the execution after it, and what could be seen of it. -/
def Activity (σ α : Type) : Type := Execution σ → α × Execution σ × List Event

namespace Activity

instance : Monad (Activity σ) where
  pure a := fun x => (a, x, [])
  bind m f := fun x =>
    let (a, x, seen) := m x
    let (b, x, more) := f a x
    (b, x, seen ++ more)

def get : Activity σ (Execution σ) := fun x => (x, x, [])

def mode : Activity σ Mode := do return (← get).controller.mode

/-- Gives notice of the mode that the controller is in. -/
def announce (moment : Moment) : Activity σ Unit := fun x =>
  ((), x, [.notice ⟨moment, x.controller.mode⟩])

def setMode (mode : Mode) : Activity σ Unit := fun x =>
  ((), { x with controller := { x.controller with mode } }, [])

/-- Goes over to a mode, whatever the transitions. -/
def convert (mode : Mode) : Activity σ Unit := do
  announce .exit
  setMode mode
  announce .entry
  announce .action

def trigger (event : String) : Activity σ Bool := do
  match (← get).controller.target? event with
  | some mode =>
    convert mode
    return true
  | none => return false

def call [Drive σ] (c : Call) : Activity σ (Except Refusal Unit) := fun x =>
  let (drive, result) := c.perform x.drive
  (result, { x with drive }, [.call (m := x.controller.mode) c])

theorem bind_apply (m : Activity σ α) (f : α → Activity σ β) (x : Execution σ) :
    (m >>= f) x =
      ((f (m x).1 (m x).2.1).1, (f (m x).1 (m x).2.1).2.1,
        (m x).2.2 ++ (f (m x).1 (m x).2.1).2.2) :=
  rfl

theorem pure_apply (a : α) (x : Execution σ) : (pure a : Activity σ α) x = (a, x, []) := rfl

/-- The controller is in the old mode until it is left and in the new one from its entry on, as it
is when it goes over by itself. -/
theorem convert_apply (mode : Mode) (x : Execution σ) :
    convert mode x =
      ((), { x with controller := (x.controller.convert mode).1 },
        (x.controller.convert mode).2.map .notice) := rfl

theorem trigger_apply {x : Execution σ} {event : String} {c : Controller} {notices : List Notice}
    (h : x.controller.trigger? event = some (c, notices)) :
    trigger event x = (true, { x with controller := c }, notices.map .notice) := by
  obtain ⟨mode, hmode, hc⟩ := Option.map_eq_some_iff.1 h
  cases hc
  have htrigger : trigger event x = (do convert mode; return true : Activity σ Bool) x := by
    simp only [trigger, bind_apply, get, hmode]
    rfl
  rw [htrigger, bind_apply, convert_apply]
  rfl

theorem trigger_apply_none {x : Execution σ} {event : String}
    (h : x.controller.trigger? event = none) : trigger event x = (false, x, []) := by
  simp only [trigger, bind_apply, get, Option.map_eq_none_iff.1 h]
  rfl

end Activity

end ArmLang
