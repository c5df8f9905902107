import ArmLang.Proofs.Execution.Effective
import Mathlib.Data.List.Destutter

namespace ArmLang

theorem destutter'_append_of_eq [DecidableEq α] {a : α} {l : List α} (h : ∀ b ∈ l, b = a)
    (l' : List α) : (l ++ l').destutter' (· ≠ ·) a = l'.destutter' (· ≠ ·) a := by
  induction l with
  | nil => rfl
  | cons b l ih =>
    obtain ⟨rfl, hl⟩ := List.forall_mem_cons.1 h
    rw [List.cons_append, List.destutter'_cons_neg _ (not_not.2 rfl), ih hl]

namespace Event

def entered? : Event → Option Mode
  | .notice ⟨.entry, mode⟩ => some mode
  | _ => none

def isMove : Event → Bool
  | .call (.move _ _ _) | .call (.moveJoints _ _) => true
  | _ => false

theorem notice?_of_isMove {e : Event} (h : e.isMove) : e.notice? = none := by
  cases e with
  | notice n => cases h
  | call c => rfl

theorem entered?_of_isMove {e : Event} (h : e.isMove) : e.entered? = none := by
  cases e with
  | notice n => cases h
  | call c => rfl

end Event

namespace Controller

/-- What is given notice of while modes follow one another: each is left, then the next one is
entered, and then the action of that follows. -/
def notices : List Mode → List Notice
  | source :: target :: modes =>
    ⟨.exit, source⟩ :: ⟨.entry, target⟩ :: ⟨.action, target⟩ :: notices (target :: modes)
  | _ => []

/-- The modes of a run with so many waits. -/
def itinerary (waits : Nat) : List Mode :=
  .idle :: .running :: ((List.replicate waits [.waiting, .running]).flatten ++ [.idle])

theorem notices_itinerary (waits : Nat) :
    notices (itinerary waits) =
      notices [.idle, .running] ++
        ((List.replicate waits (notices [.running, .waiting, .running])).flatten ++
          notices [.running, .idle]) := by
  have hwaits :
      notices (.running :: ((List.replicate waits [.waiting, .running]).flatten ++ [.idle])) =
      (List.replicate waits (notices [.running, .waiting, .running])).flatten ++
        notices [.running, .idle] := by
    induction waits with
    | zero => rfl
    | succ waits ih => exact congrArg (notices [.running, .waiting, .running] ++ ·) ih
  exact congrArg (notices [.idle, .running] ++ ·) hwaits

end Controller

namespace Instruction

open Controller (notices itinerary)

variable {i : Instruction}

/-- For how many seconds an instruction waits, if it is a wait and has a number to go by. -/
def pause? (i : Instruction) : Option Float :=
  if i.command = waitCommand then (i.arg? durationKey).bind Value.number? else none

/-- What is seen of a wait: the request is made between the action of the mode of its own and the
moment when that mode is left. -/
def detour (seconds : Float) : List Event :=
  (notices [.running, .waiting]).map .notice ++
    .call (m := .waiting) (.wait seconds) :: (notices [.waiting, .running]).map .notice

/-- What is seen while an instruction is carried out. Unless it waits, that is its request, if it
makes one. -/
def trace (parameters : Dynamics) (i : Instruction) : List Event :=
  match i.pause? with
  | some seconds => detour seconds
  | none => (i.request? parameters).toList.map fun c => .call (m := .running) c

theorem request?_of_wait (h : i.command = waitCommand) (parameters : Dynamics) :
    i.request? parameters = i.pause?.map .wait := by
  rw [request?, show Category.ofCommand? i.command = some .wait from if_pos h, pause?, if_pos h]

theorem isMove_of_request? (h : i.command ≠ waitCommand) {parameters : Dynamics} {c : Call}
    (hc : i.request? parameters = some c) (m : Mode) : (Event.call (m := m) c).isMove := by
  rw [request?, Category.ofCommand?, if_neg h] at hc
  cases hp : Path.all.find? (·.name = i.command) with
  | none =>
    rw [hp] at hc
    cases hc
  | some path =>
    rw [hp] at hc
    dsimp only [Option.map_some] at hc
    unfold Execution.motionCall? at hc
    split at hc
    · cases hc
      rfl
    · obtain ⟨p, -, rfl⟩ := Option.map_eq_some_iff.1 hc
      rfl

/-- Only a wait gives notices, and every other request is one to move while the machine runs. -/
theorem trace_of_pause?_eq_none (h : i.pause? = none) (parameters : Dynamics) :
    ∀ e ∈ i.trace parameters, e.isMove ∧ e.mode = .running := by
  intro e he
  rw [trace, h] at he
  obtain ⟨c, hc, rfl⟩ := List.mem_map.1 he
  by_cases hw : i.command = waitCommand
  · rw [request?_of_wait hw, h] at hc
    cases hc
  · exact ⟨isMove_of_request? hw (Option.mem_toList.1 hc) .running, rfl⟩

theorem mode?_of_mem_trace {parameters : Dynamics} {m : Mode} {c : Call}
    (hc : .call (m := m) c ∈ i.trace parameters) : c.mode? = some m := by
  cases h : i.pause? with
  | none =>
    obtain ⟨hmove, hmode⟩ := trace_of_pause?_eq_none h parameters _ hc
    cases c with
    | move | moveJoints => exact congrArg some hmode.symm
    | wait | stop | emergencyStop => cases hmove
  | some seconds =>
    rw [trace, h] at hc
    simp only [detour, notices, List.map_cons, List.map_nil, List.mem_append, List.mem_cons,
      reduceCtorEq, List.not_mem_nil, Event.call.injEq, or_false, false_or] at hc
    obtain ⟨rfl, rfl⟩ := hc
    rfl

theorem episodes_eq_trace (parameters : Dynamics) :
    (i.request? parameters).toList.flatMap Call.episode = i.trace parameters := by
  unfold trace
  by_cases hw : i.command = waitCommand
  · rw [request?_of_wait hw]
    cases i.pause? with
    | none => rfl
    | some seconds => rfl
  · rw [show i.pause? = none from if_neg hw]
    cases hc : i.request? parameters with
    | none => rfl
    | some c =>
      have hmove := isMove_of_request? hw hc .running
      cases c with
      | move | moveJoints => rfl
      | wait | stop | emergencyStop => cases hmove

theorem flatMap_trace (parameters : Dynamics) (is : List Instruction) :
    (is.filterMap (·.request? parameters)).flatMap Call.episode =
      is.flatMap (trace parameters) := by
  induction is with
  | nil => rfl
  | cons i is ih =>
    rw [requests_cons, List.flatMap_append, episodes_eq_trace, ih, List.flatMap_cons]

/-- Where requests to move do not count, instructions come to their waits, one after the other. -/
theorem filterMap_trace {f : Event → Option β} (hf : ∀ e : Event, e.isMove → f e = none)
    (parameters : Dynamics) (is : List Instruction) :
    (is.flatMap (trace parameters)).filterMap f =
      (is.filterMap pause?).flatMap fun seconds => (detour seconds).filterMap f := by
  induction is with
  | nil => rfl
  | cons i is ih =>
    rw [List.flatMap_cons, List.filterMap_append, ih, List.filterMap_cons]
    cases h : i.pause? with
    | none =>
      have hnone : (i.trace parameters).filterMap f = [] := by
        rw [List.filterMap_eq_nil_iff]
        exact fun e he => hf e (trace_of_pause?_eq_none h parameters e he).1
      rw [hnone]
      rfl
    | some seconds =>
      rw [trace, h]
      rfl

/-- Where the duration of a wait does not count either, they come to as many times the same. -/
theorem filterMap_trace_of_const {f : Event → Option β} (hf : ∀ e : Event, e.isMove → f e = none)
    {bs : List β} (hbs : ∀ seconds, (detour seconds).filterMap f = bs) (parameters : Dynamics)
    (is : List Instruction) :
    (is.flatMap (trace parameters)).filterMap f =
      (List.replicate (is.filterMap pause?).length bs).flatten := by
  rw [filterMap_trace hf, List.flatMap_def, ← List.map_const']
  simp only [hbs]

/-- The modes that are passed through while instructions are carried out and the run ends. -/
theorem destutter'_trace (parameters : Dynamics) (is : List Instruction) :
    ((is.flatMap (trace parameters)).map Event.mode ++ [Mode.running, .idle, .idle]).destutter'
        (· ≠ ·) .running =
      (itinerary (is.filterMap pause?).length).tail := by
  induction is with
  | nil => rfl
  | cons i is ih =>
    rw [List.flatMap_cons, List.map_append, List.append_assoc, List.filterMap_cons]
    cases h : i.pause? with
    | none =>
      have hmodes : ∀ mode ∈ (i.trace parameters).map Event.mode, mode = .running :=
        List.forall_mem_map.2 fun e he => (trace_of_pause?_eq_none h parameters e he).2
      rw [destutter'_append_of_eq hmodes, ih]
    | some seconds =>
      rw [trace, h]
      -- The detour leaves running for waiting and is back in running for what follows.
      exact congrArg (fun modes => .running :: .waiting :: modes) ih

end Instruction

namespace Execution

open Activity Instruction Controller

variable [Drive σ]

/-- How a run of instructions goes from idling to idling. -/
structure Timeline (x : Execution σ) (is : List Instruction) : Prop where
  result : ∃ report, (run is x).1 = .ok report ∧ report.final = .idle
  controller : (run is x).2.1.controller = x.controller
  /-- The machine runs before each instruction and after the last one. -/
  running : ∀ done todo, is = done ++ todo →
    let started := (trigger startEvent x).2.1
    (carryOutAll done started).2.1.controller = { x.controller with mode := .running } ∧
      carryOutAll is started =
        (do
          let r ← carryOutAll done
          let r' ← carryOutAll todo
          return r.add r' : Activity σ Report) started
  /-- All that is seen, instruction by instruction. -/
  events : (run is x).2.2 =
    (notices [.idle, .running]).map .notice ++
      (is.flatMap (trace x.parameters) ++ (notices [.running, .idle]).map .notice)
  /-- The controller is in the mode for a request when that is made. -/
  calls : ∀ m c, .call (m := m) c ∈ (run is x).2.2 → c.mode? = some m
  /-- The modes that the controller is in, without repetition. -/
  modes : ((run is x).2.2.map Event.mode).destutter (· ≠ ·) =
    itinerary (is.filterMap pause?).length
  entered : .idle :: (run is x).2.2.filterMap Event.entered? =
    itinerary (is.filterMap pause?).length
  noticed : (run is x).2.2.filterMap Event.notice? =
    notices (itinerary (is.filterMap pause?).length)
  heard : x.controller.heard (run is x).2.2 =
    (notices (itinerary (is.filterMap pause?).length)).filterMap x.controller.handler?
  /-- Each wait is requested during the detour of its own. -/
  waits : (run is x).2.2.filter (!·.isMove) =
    (notices [.idle, .running]).map .notice ++
      ((is.filterMap pause?).flatMap detour ++ (notices [.running, .idle]).map .notice)
  /-- What does not wait changes no mode. -/
  still : ∀ i : Instruction, i.pause? = none → ∀ y : Execution σ, y.controller.mode = .running →
    (carryOutAll [i] y).2.1.controller = y.controller ∧
      (carryOutAll [i] y).2.2.filterMap Event.notice? = [] ∧
      ∀ e ∈ (carryOutAll [i] y).2.2, e.mode = .running
  drive : (run is x).2.1.drive =
    Call.performAll x.drive ((run is x).2.2.filterMap Event.call?)
  received : (run is (x.record [])).2.1.drive.received = (run is x).2.2.filterMap Event.call?

/-- An idle machine with the usual transitions, whatever its handlers are and its drive answers,
goes over to running, from there to waiting and back for each wait that has a number of seconds, and
in the end to idling. Every change of mode is given notice of in order, nothing else is, and the
requests are made in between as the instructions come. -/
theorem run_timeline (drive : σ) (handlers : List (Notice × String)) (parameters : Dynamics)
    (is : List Instruction) :
    Timeline (σ := σ) ⟨drive, { Controller.standard with handlers }, parameters⟩ is := by
  generalize hx : (⟨drive, { Controller.standard with handlers }, parameters⟩ : Execution σ) = x
  have hs : x.controller.Settled := hx ▸ ⟨rfl, Mode.noConfusion⟩
  have hm : x.controller.mode = .idle := hx ▸ rfl
  have hrun := run_idle_eq hs hm is
  have hseen : (run is x).2.2 =
      (notices [.idle, .running]).map .notice ++
        (is.flatMap (trace x.parameters) ++
          (notices [.running, .idle]).map .notice) := by
    rw [hrun, ← flatMap_trace]
    rfl
  have hnotices : (run is x).2.2.filterMap Event.notice? =
      notices (itinerary (is.filterMap pause?).length) := by
    have hdetour (seconds : Float) : (detour seconds).filterMap Event.notice? =
        notices [.running, .waiting, .running] := rfl
    rw [hseen, List.filterMap_append, List.filterMap_append,
      filterMap_trace_of_const (fun _ => Event.notice?_of_isMove) hdetour, notices_itinerary]
    rfl
  constructor
  case result => exact ⟨_, congrArg Prod.fst hrun, rfl⟩
  case controller => rw [hrun]; rfl
  case running =>
    rintro done todo rfl
    have hstarted : (trigger startEvent x).2.1 = x.inMode .running := by
      rw [trigger_usual hs.transitions ((usualTarget?_start _).trans (if_pos hm))]
    rw [hstarted]
    refine ⟨?_, carryOutAll_append rfl done todo⟩
    rw [carryOutAll_eq rfl]
    rfl
  case events => exact hseen
  case calls =>
    intro m c hc
    rw [hseen] at hc
    simp only [List.mem_append, List.mem_map, List.mem_flatMap, reduceCtorEq, and_false,
      exists_false, or_false, false_or] at hc
    obtain ⟨i, -, hi⟩ := hc
    exact mode?_of_mem_trace hi
  case modes =>
    rw [hseen, List.map_append, List.map_append]
    exact congrArg (.idle :: ·) (destutter'_trace x.parameters is)
  case entered =>
    have hdetour (seconds : Float) :
        (detour seconds).filterMap Event.entered? = [.waiting, .running] := rfl
    rw [hseen, List.filterMap_append, List.filterMap_append,
      filterMap_trace_of_const (fun _ => Event.entered?_of_isMove) hdetour]
    rfl
  case noticed => exact hnotices
  case heard => rw [← hnotices, List.filterMap_filterMap, heard]
  case waits =>
    have hmove : ∀ e : Event, e.isMove → Option.guard (!·.isMove) e = none := by
      intro e he
      simp [Option.guard, he]
    rw [hseen, ← List.filterMap_eq_filter, List.filterMap_append, List.filterMap_append,
      filterMap_trace hmove]
    rfl
  case still =>
    intro i hi y hy
    have htrace := trace_of_pause?_eq_none hi y.parameters
    rw [carryOutAll_eq hy, flatMap_trace, List.flatMap_singleton]
    refine ⟨rfl, ?_, fun e he => (htrace e he).2⟩
    rw [List.filterMap_eq_nil_iff]
    exact fun e he => Event.notice?_of_isMove (htrace e he).1
  case drive => exact (recorded_run is).drive x
  case received => exact received_run is x

end Execution

end ArmLang
