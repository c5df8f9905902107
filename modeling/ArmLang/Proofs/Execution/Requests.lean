import ArmLang.Execution.Run
import Mathlib.Data.List.Basic

namespace ArmLang

theorem append_not_mem {cs : List String} {a : String} (h : ∀ c ∈ cs, ¬ a.toList <+: c.toList)
    (b : String) : a ++ b ∉ cs :=
  fun hm => h _ hm ⟨b.toList, String.toList_append.symm⟩

theorem filterMap_cons_toList (f : α → Option β) (a : α) (l : List α) :
    (a :: l).filterMap f = (f a).toList ++ l.filterMap f := by
  rw [List.filterMap_eq_flatMap_toList, List.filterMap_eq_flatMap_toList, List.flatMap_cons]

namespace Event

def call? : Event → Option Call
  | notice _ => none
  | call c => some c

/-- The mode that the controller is in at the event. A notice is of no other mode than that. -/
def mode : Event → Mode
  | notice n => n.mode
  | @call m _ => m

end Event

namespace Call

/-- The drive after requests are made one after the other, whatever it answers. -/
def performAll [Drive σ] (drive : σ) (calls : List Call) : σ :=
  calls.foldl (fun drive c => (c.perform drive).1) drive

theorem performAll_append [Drive σ] (drive : σ) (calls more : List Call) :
    performAll drive (calls ++ more) = performAll (performAll drive calls) more :=
  List.foldl_append

/-- What is seen while an instruction makes a request: a wait has a mode of its own. -/
def episode : Call → List Event
  | wait seconds =>
    (Controller.conversion .running .waiting).map .notice ++
      .call (m := .waiting) (wait seconds) ::
        (Controller.conversion .waiting .running).map .notice
  | c => [.call (m := .running) c]

theorem filterMap_call?_episode (calls : List Call) :
    (calls.flatMap episode).filterMap Event.call? = calls := by
  induction calls with
  | nil => rfl
  | cons c calls ih =>
    rw [List.flatMap_cons, List.filterMap_append, ih]
    cases c <;> rfl

end Call

namespace Category

def commands : List String := waitCommand :: Path.all.map (·.name)

theorem ofCommand?_eq_none {command : String} (h : command ∉ commands) :
    ofCommand? command = none := by
  obtain ⟨hw, hp⟩ := List.ne_and_not_mem_of_not_mem_cons h
  rw [ofCommand?, if_neg hw, Option.map_eq_none_iff, List.find?_eq_none]
  intro path hpath he
  exact hp (List.mem_map.2 ⟨path, hpath, of_decide_eq_true he⟩)

theorem ofCommand?_append {a : String} (h : ∀ c ∈ commands, ¬ a.toList <+: c.toList)
    (b : String) : ofCommand? (a ++ b) = none :=
  ofCommand?_eq_none (append_not_mem h b)

theorem ofCommand?_motion (path : Path) (relative : Bool) :
    ofCommand? (Keyword.motion path relative).text =
      if relative then none else some (.motion path) := by
  cases path <;> cases relative <;> decide

def key : Category → String
  | wait => Instruction.durationKey
  | motion _ => Instruction.poseKey

end Category

inductive Outcome
  | skipped (command : String)
  | carriedOut
  | failed (e : RunError)
  deriving DecidableEq

namespace Instruction

/-- The request that an instruction makes of the drive when it is carried out. -/
def request? (parameters : Dynamics) (i : Instruction) : Option Call :=
  match Category.ofCommand? i.command with
  | none => none
  | some .wait => ((i.arg? durationKey).bind Value.number?).map .wait
  | some (.motion path) => Execution.motionCall? i path parameters

theorem request?_eq_none {i : Instruction} (h : Category.ofCommand? i.command = none)
    (parameters : Dynamics) : i.request? parameters = none := by
  unfold request?
  rw [h]

theorem requests_cons (i : Instruction) (is : List Instruction) (parameters : Dynamics) :
    (i :: is).filterMap (·.request? parameters) =
      (i.request? parameters).toList ++ is.filterMap (·.request? parameters) :=
  filterMap_cons_toList ..

def failure? [Drive σ] (parameters : Dynamics) (drive : σ) (i : Instruction)
    (category : Category) : Option RunError :=
  match i.request? parameters with
  | none => some (.missingArgument i.command category.key)
  | some c => match (c.perform drive).2 with
    | .ok () => none
    | .error cause => some (.fault i.command cause)

def outcome [Drive σ] (parameters : Dynamics) (drive : σ) (i : Instruction) : Outcome :=
  match Category.ofCommand? i.command with
  | none => .skipped i.command
  | some category => match i.failure? parameters drive category with
    | none => .carriedOut
    | some e => .failed e

end Instruction

namespace Activity

theorem get_bind (f : Execution σ → Activity σ β) (x : Execution σ) : (get >>= f) x = f x x := rfl

theorem mode_bind (f : Mode → Activity σ β) (x : Execution σ) :
    (mode >>= f) x = f x.controller.mode x := rfl

theorem bind_pure_apply (m : Activity σ α) (f : α → β) (x : Execution σ) :
    (m >>= fun a => pure (f a)) x = (f (m x).1, (m x).2) := by
  rw [bind_apply]
  exact congrArg (fun seen => (f (m x).1, (m x).2.1, seen)) (List.append_nil _)

theorem call_bind [Drive σ] (c : Call) (f : Except Refusal Unit → Activity σ β)
    (x : Execution σ) :
    (call c >>= f) x =
      let r := f (c.perform x.drive).2 { x with drive := (c.perform x.drive).1 }
      (r.1, r.2.1, .call (m := x.controller.mode) c :: r.2.2) := rfl

theorem trigger_bind {x : Execution σ} {event : String} {c : Controller} {notices : List Notice}
    (h : x.controller.trigger? event = some (c, notices)) (f : Bool → Activity σ β) :
    (trigger event >>= f) x =
      let r := f true { x with controller := c }
      (r.1, r.2.1, notices.map .notice ++ r.2.2) := by
  rw [bind_apply, trigger_apply h]

theorem trigger_bind_none {x : Execution σ} {event : String}
    (h : x.controller.trigger? event = none) (f : Bool → Activity σ β) :
    (trigger event >>= f) x = f false x := by
  rw [bind_apply, trigger_apply_none h]
  rfl

theorem filterMap_call?_notice (notices : List Notice) :
    (notices.map Event.notice).filterMap Event.call? = [] := by
  induction notices with
  | nil => rfl
  | cons n notices ih => exact ih

theorem filterMap_call?_trigger (event : String) (x : Execution σ) :
    (trigger event x).2.2.filterMap Event.call? = [] := by
  cases h : x.controller.trigger? event with
  | none => rw [trigger_apply_none h]; rfl
  | some r => rw [trigger_apply h]; exact filterMap_call?_notice r.2

end Activity

namespace Report

def enter (r : Report) : Outcome → Report
  | .skipped command => { r with skipped := command :: r.skipped }
  | .carriedOut => { r with carriedOut := r.carriedOut + 1 }
  | .failed e => { r with faults := e :: r.faults }

def ofOutcomes (os : List Outcome) : Report := os.foldr (fun o r => r.enter o) {}

end Report

namespace Execution

open Activity

variable [Drive σ]

def after (x : Execution σ) (calls : List Call) : Execution σ :=
  { x with drive := Call.performAll x.drive calls }

theorem after_after (x : Execution σ) (calls more : List Call) :
    (x.after calls).after more = x.after (calls ++ more) := by
  unfold after
  rw [Call.performAll_append]

def outcomes (parameters : Dynamics) : σ → List Instruction → List Outcome
  | _, [] => []
  | drive, i :: is =>
    i.outcome parameters drive ::
      outcomes parameters (Call.performAll drive (i.request? parameters).toList) is

theorem episode_of_motionCall? {i : Instruction} {path : Path} {parameters : Dynamics} {c : Call}
    (h : motionCall? i path parameters = some c) : c.episode = [.call (m := .running) c] := by
  unfold motionCall? at h
  split at h
  · cases h
    rfl
  · obtain ⟨p, _, rfl⟩ := Option.map_eq_some_iff.1 h
    rfl

/-- Carrying out an instruction says why it fails, if it does, and changes nothing but the drive. -/
theorem carryOut_eq {x : Execution σ} (h : x.controller.mode = .running) {i : Instruction}
    {category : Category} (hc : Category.ofCommand? i.command = some category) :
    carryOut i category x =
      ((match i.failure? x.parameters x.drive category with
        | none => .ok ()
        | some e => .error e),
        x.after (i.request? x.parameters).toList,
        (i.request? x.parameters).toList.flatMap Call.episode) := by
  unfold Instruction.failure? Instruction.request?
  rw [hc]
  cases category with
  | wait =>
    unfold carryOut carryOutWait
    dsimp only
    cases (i.arg? Instruction.durationKey).bind Value.number? with
    | none => rfl
    | some seconds =>
      -- The detour through `waiting` ends in the mode it began in.
      obtain ⟨drive, ⟨mode, transitions, handlers⟩, parameters⟩ := x
      cases h
      rfl
  | motion path =>
    unfold carryOut carryOutMotion
    dsimp only
    rw [get_bind]
    cases hm : motionCall? i path x.parameters with
    | none => rfl
    | some c =>
      dsimp only
      rw [call_bind, h, Option.toList_some, List.flatMap_singleton, episode_of_motionCall? hm]
      cases (c.perform x.drive).2 with
      | ok u => rfl
      | error fault => rfl

/-- The step of a run: the request of the first instruction is made, what became of it is entered
into the report of the others, and the mode is what it was. -/
theorem carryOutAll_cons {x : Execution σ} (h : x.controller.mode = .running) (i : Instruction)
    (is : List Instruction) :
    carryOutAll (i :: is) x =
      let r := carryOutAll is (x.after (i.request? x.parameters).toList)
      (r.1.enter (i.outcome x.parameters x.drive), r.2.1,
        (i.request? x.parameters).toList.flatMap Call.episode ++ r.2.2) := by
  rw [carryOutAll, mode_bind, h]
  simp only [ne_eq, not_true_eq_false, if_false]
  unfold Instruction.outcome
  cases hc : Category.ofCommand? i.command with
  | none =>
    rw [Instruction.request?_eq_none hc]
    dsimp only
    rw [bind_pure_apply]
    rfl
  | some category =>
    dsimp only
    rw [bind_apply, carryOut_eq h hc]
    cases i.failure? x.parameters x.drive category with
    | none =>
      dsimp only
      rw [bind_pure_apply]
      rfl
    | some e =>
      dsimp only
      rw [bind_pure_apply]
      rfl

/-- Whatever the instructions and the answers of the drive, each request that an instruction makes
is made, in order, and the report has what became of each. -/
theorem carryOutAll_eq {x : Execution σ} (h : x.controller.mode = .running)
    (is : List Instruction) :
    carryOutAll is x =
      (Report.ofOutcomes (outcomes x.parameters x.drive is),
        x.after (is.filterMap (·.request? x.parameters)),
        (is.filterMap (·.request? x.parameters)).flatMap Call.episode) := by
  induction is generalizing x with
  | nil => rfl
  | cons i is ih =>
    have hi := ih (x := x.after (i.request? x.parameters).toList) h
    rw [carryOutAll_cons h, hi]
    dsimp only
    rw [after_after, Instruction.requests_cons, List.flatMap_append]
    rfl

/-- A run that can be started makes the requests of its instructions while the machine is running,
and then the event that completes it is taken. -/
theorem run_started {x : Execution σ} {c : Controller} {notices : List Notice}
    (h : x.controller.trigger? Controller.startEvent = some (c, notices))
    (hc : c.mode = .running) (is : List Instruction) :
    let calls := is.filterMap (·.request? x.parameters)
    let done := trigger Controller.completeEvent (after { x with controller := c } calls)
    run is x =
      (.ok { Report.ofOutcomes (outcomes x.parameters x.drive is) with
          final := done.2.1.controller.mode },
        done.2.1, notices.map .notice ++ (calls.flatMap Call.episode ++ done.2.2)) := by
  intro calls done
  have hx : ({ x with controller := c } : Execution σ).controller.mode = .running := hc
  rw [run, trigger_bind h, mode_bind]
  simp only [hc, Bool.not_true, ne_eq, not_true_eq_false, decide_false, Bool.or_self,
    Bool.false_eq_true, if_false]
  rw [bind_apply, carryOutAll_eq hx]
  dsimp only
  rw [mode_bind]
  have hy : (after { x with controller := c } calls).controller.mode = .running := hc
  rw [if_pos hy, bind_apply, mode_bind, pure_apply, List.append_nil]

theorem run_refused {x : Execution σ}
    (h : x.controller.trigger? Controller.startEvent = none) (is : List Instruction) :
    run is x = (.error (.notRunning x.controller.mode), x, []) := by
  rw [run, trigger_bind_none h]
  rfl

theorem run_diverted {x : Execution σ} {c : Controller} {notices : List Notice}
    (h : x.controller.trigger? Controller.startEvent = some (c, notices))
    (hc : c.mode ≠ .running) (is : List Instruction) :
    run is x =
      (.error (.notRunning c.mode), { x with controller := c }, notices.map .notice) := by
  rw [run, trigger_bind h, mode_bind]
  simp [hc, mode_bind, pure_apply]

/-- An execution that made the requests `calls` and is otherwise back where it was. -/
structure Served (x : Execution σ) (calls : List Call) (x' : Execution σ) (seen : List Event) :
    Prop where
  state : x' = x.after calls
  calls : seen.filterMap Event.call? = calls

def running : Controller := { Controller.standard with mode := .running }

theorem trigger?_start : Controller.standard.trigger? Controller.startEvent =
    some (running, Controller.conversion .idle .running) := by
  decide

theorem trigger?_complete : running.trigger? Controller.completeEvent =
    some (Controller.standard, Controller.conversion .running .idle) := by
  decide

/-- A run of an idle machine cannot fail. It makes the requests of its instructions and leaves the
machine idle again, whatever the drive answers. -/
theorem run_served (drive : σ) (parameters : Dynamics) (is : List Instruction) :
    let x : Execution σ := { drive, parameters }
    (∃ report, (run is x).1 = .ok report) ∧
      Served x (is.filterMap (·.request? parameters)) (run is x).2.1 (run is x).2.2 := by
  intro x
  have hrun := run_started (x := x) trigger?_start rfl is
  rw [hrun]
  refine ⟨⟨_, rfl⟩, ?_, ?_⟩
  · have hcomplete : (after { x with controller := running }
        (is.filterMap (·.request? parameters))).controller.trigger? Controller.completeEvent =
          some (Controller.standard, Controller.conversion .running .idle) := trigger?_complete
    rw [trigger_apply hcomplete]
    rfl
  · dsimp only
    rw [List.filterMap_append, List.filterMap_append, filterMap_call?_notice,
      Call.filterMap_call?_episode, filterMap_call?_trigger, List.append_nil]
    rfl

end Execution

end ArmLang
