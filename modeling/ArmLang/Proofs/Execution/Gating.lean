import ArmLang.Motion.Arm
import ArmLang.Proofs.Execution.Recorder

namespace ArmLang

/-- Whether only a reset leads out of the mode. -/
def Mode.isHalted : Mode → Bool
  | stopped | emergency => true
  | idle | running | waiting => false

namespace Call

/-- The mode in which a request is made. An emergency stop can be requested in any. -/
def mode? : Call → Option Mode
  | move _ _ _ | moveJoints _ _ => some .running
  | wait _ => some .waiting
  | stop => some .stopped
  | emergencyStop => none

/-- Whether the drive has something to do. -/
def isWork : Call → Bool
  | move _ _ _ | moveJoints _ _ | wait _ => true
  | stop | emergencyStop => false

end Call

namespace Controller

/-- A machine with the usual transitions that is not in the middle of a wait. -/
structure Settled (c : Controller) : Prop where
  transitions : c.transitions = standard.transitions
  mode : c.mode ≠ .waiting

/-- Where an event leads from a mode with the usual transitions. -/
def usualTarget? (mode : Mode) (event : String) : Option Mode :=
  ({ standard with mode } : Controller).target? event

theorem trigger?_usual {c : Controller} (h : c.transitions = standard.transitions)
    (event : String) : c.trigger? event = (usualTarget? c.mode event).map c.convert := by
  unfold trigger? usualTarget? target?
  rw [h]

theorem usualTarget?_start (mode : Mode) :
    usualTarget? mode startEvent = if mode = .idle then some .running else none := by
  cases mode <;> decide

theorem usualTarget?_stop (mode : Mode) :
    usualTarget? mode stopEvent =
      if mode = .running ∨ mode = .waiting then some .stopped else none := by
  cases mode <;> decide

theorem usualTarget?_emergency (mode : Mode) :
    usualTarget? mode emergencyEvent =
      if mode = .running ∨ mode = .waiting then some .emergency else none := by
  cases mode <;> decide

theorem usualTarget?_reset (mode : Mode) :
    usualTarget? mode resetEvent = if mode.isHalted then some .idle else none := by
  cases mode <;> decide

end Controller

inductive Order
  | run (is : List Instruction)
  | start
  | stop
  | emergencyStop
  | reset
  deriving DecidableEq

def Order.obey [Drive σ] : Order → Activity σ Bool
  | run is => do return (← Execution.run is).isOk
  | start => Execution.start
  | stop => Execution.stop
  | emergencyStop => Execution.emergencyStop
  | reset => Execution.reset

/-- A moment in the life of an execution: something is seen of it, or an order has been followed and
has led to a mode. -/
inductive Occurrence
  | seen (e : Event)
  | answered (mode : Mode) (o : Order) (possible : Bool)
  deriving DecidableEq

namespace Occurrence

def mode : Occurrence → Mode
  | seen e => e.mode
  | answered mode _ _ => mode

def call? : Occurrence → Option Call
  | seen e => e.call?
  | answered _ _ _ => none

/-- The mode afterwards, going by the entries that notice is given of. -/
def next (mode : Mode) : Occurrence → Mode
  | seen (.notice ⟨.entry, entered⟩) => entered
  | _ => mode

/-- Whether the occurrence may come about after a mode: the controller is in the mode that was
entered last, and each request is made in its own. -/
def AllowedIn (mode : Mode) (o : Occurrence) : Prop :=
  o.next mode = o.mode ∧ ∀ c ∈ o.call?, ∀ m ∈ c.mode?, o.mode = m

end Occurrence

def modeAfter (mode : Mode) (os : List Occurrence) : Mode := os.foldl Occurrence.next mode

theorem modeAfter_append (mode : Mode) (os os' : List Occurrence) :
    modeAfter mode (os ++ os') = modeAfter (modeAfter mode os) os' :=
  List.foldl_append

/-- Whatever comes about is allowed when it does. -/
def Gated : Mode → List Occurrence → Prop
  | _, [] => True
  | mode, o :: os => o.AllowedIn mode ∧ Gated (o.next mode) os

theorem gated_append {mode : Mode} {os os' : List Occurrence} :
    Gated mode (os ++ os') ↔ Gated mode os ∧ Gated (modeAfter mode os) os' := by
  induction os generalizing mode with
  | nil => simp [Gated, modeAfter]
  | cons o os ih =>
    rw [List.cons_append, Gated, Gated, ih, and_assoc]
    rfl

theorem modeAfter_conversion (source target : Mode) :
    modeAfter source (((Controller.conversion source target).map .notice).map .seen) = target :=
  rfl

theorem gated_conversion (source target : Mode) :
    Gated source (((Controller.conversion source target).map .notice).map .seen) := by
  simp [Controller.conversion, Gated, Occurrence.AllowedIn, Occurrence.next, Occurrence.mode,
    Occurrence.call?, Event.mode, Event.call?]

theorem gated_call {mode : Mode} {c : Call} (h : ∀ m ∈ c.mode?, mode = m) {os : List Occurrence}
    (hos : Gated mode os) : Gated mode (.seen (.call (m := mode) c) :: os) := by
  refine ⟨⟨rfl, ?_⟩, hos⟩
  rintro _ ⟨⟩
  exact h

theorem Gated.mode_eq {mode : Mode} {os before rest : List Occurrence} {o : Occurrence}
    (h : Gated mode os) (he : os = before ++ o :: rest) :
    modeAfter mode (before ++ [o]) = o.mode ∧ ∀ c ∈ o.call?, ∀ m ∈ c.mode?, o.mode = m := by
  rw [he, gated_append] at h
  obtain ⟨-, ⟨hmode, hcall⟩, -⟩ := h
  rw [modeAfter_append]
  exact ⟨hmode, hcall⟩

/-- No work is requested until a reset has been possible. -/
def Quiet (os : List Occurrence) : Prop :=
  ∀ between m c later, os = between ++ .seen (.call (m := m) c) :: later → c.isWork →
    .answered .idle .reset true ∈ between

theorem quiet_nil : Quiet [] := by
  intro between m c later h
  simp at h

theorem quiet_reset (os : List Occurrence) : Quiet (.answered .idle .reset true :: os) := by
  intro between m c later h _
  cases between with
  | nil => cases h
  | cons o between =>
    cases h
    exact List.mem_cons_self

theorem Quiet.cons {o : Occurrence} {os : List Occurrence}
    (ho : ∀ m c, o = .seen (.call (m := m) c) → ¬ c.isWork) (h : Quiet os) : Quiet (o :: os) := by
  intro between m c later he hc
  cases between with
  | nil =>
    cases he
    exact absurd hc (ho m c rfl)
  | cons o' between =>
    cases he
    exact List.mem_cons_of_mem _ (h between m c later rfl hc)

theorem Quiet.append {os os' : List Occurrence}
    (ho : ∀ m c, .seen (.call (m := m) c) ∈ os → ¬ c.isWork) (h : Quiet os') :
    Quiet (os ++ os') := by
  induction os with
  | nil => exact h
  | cons o os ih =>
    apply Quiet.cons
    · rintro m c rfl
      exact ho m c List.mem_cons_self
    · exact ih fun m c hc => ho m c (List.mem_cons_of_mem _ hc)

namespace Execution

open Activity

def inMode (x : Execution σ) (mode : Mode) : Execution σ :=
  { x with controller := (x.controller.convert mode).1 }

theorem settled_inMode {x : Execution σ} (h : x.controller.Settled) {mode : Mode}
    (hm : mode ≠ .waiting) : (x.inMode mode).controller.Settled :=
  ⟨h.transitions, hm⟩

theorem trigger_usual {x : Execution σ}
    (h : x.controller.transitions = Controller.standard.transitions) {event : String} {mode : Mode}
    (ht : Controller.usualTarget? x.controller.mode event = some mode) :
    trigger event x =
      (true, x.inMode mode, (Controller.conversion x.controller.mode mode).map .notice) := by
  have hc : x.controller.trigger? event = some (x.controller.convert mode) := by
    rw [Controller.trigger?_usual h, ht]
    rfl
  exact trigger_apply hc

theorem trigger_unknown {x : Execution σ}
    (h : x.controller.transitions = Controller.standard.transitions) {event : String}
    (ht : Controller.usualTarget? x.controller.mode event = none) :
    trigger event x = (false, x, []) := by
  apply trigger_apply_none
  rw [Controller.trigger?_usual h, ht]
  rfl

variable [Drive σ]

def history : List Order → Execution σ → Execution σ × List Occurrence
  | [], x => (x, [])
  | o :: os, x =>
    let r := o.obey x
    let rest := history os r.2.1
    (rest.1, r.2.2.map .seen ++ .answered r.2.1.controller.mode o r.1 :: rest.2)

theorem isWork_of_request? {i : Instruction} {parameters : Dynamics} {c : Call}
    (h : i.request? parameters = some c) : c.isWork := by
  unfold Instruction.request? at h
  split at h
  · cases h
  · obtain ⟨seconds, _, rfl⟩ := Option.map_eq_some_iff.1 h
    rfl
  · unfold motionCall? at h
    split at h
    · cases h
      rfl
    · obtain ⟨p, _, rfl⟩ := Option.map_eq_some_iff.1 h
      rfl

def runLog (calls : List Call) : List Event :=
  (Controller.conversion .idle .running).map .notice ++
    (calls.flatMap Call.episode ++ (Controller.conversion .running .idle).map .notice)

/-- A machine that idles runs whatever it is given, and idles again. -/
theorem run_idle_eq {x : Execution σ} (h : x.controller.Settled) (hm : x.controller.mode = .idle)
    (is : List Instruction) :
    run is x =
      (.ok { Report.ofOutcomes (outcomes x.parameters x.drive is) with final := .idle },
        x.after (is.filterMap (·.request? x.parameters)),
        runLog (is.filterMap (·.request? x.parameters))) := by
  obtain ⟨drive, ⟨mode, transitions, handlers⟩, parameters⟩ := x
  obtain rfl : mode = .idle := hm
  obtain rfl : transitions = Controller.standard.transitions := h.transitions
  exact run_started (c := { running with handlers }) rfl rfl is

theorem run_idle {x : Execution σ} (h : x.controller.Settled) (hm : x.controller.mode = .idle)
    (is : List Instruction) :
    ∃ report, run is x =
      (.ok report, x.after (is.filterMap (·.request? x.parameters)),
        runLog (is.filterMap (·.request? x.parameters))) :=
  ⟨_, run_idle_eq h hm is⟩

theorem run_busy {x : Execution σ} (h : x.controller.Settled) (hm : x.controller.mode ≠ .idle)
    (is : List Instruction) : run is x = (.error (.notRunning x.controller.mode), x, []) := by
  apply run_refused
  rw [Controller.trigger?_usual h.transitions, Controller.usualTarget?_start, if_neg hm]
  rfl

theorem work_of_requests (is : List Instruction) (parameters : Dynamics) :
    ∀ c ∈ is.filterMap (·.request? parameters), c.isWork := by
  intro c hc
  obtain ⟨i, _, hi⟩ := List.mem_filterMap.1 hc
  exact isWork_of_request? hi

theorem gated_episodes {calls : List Call} (h : ∀ c ∈ calls, c.isWork) :
    Gated .running ((calls.flatMap Call.episode).map .seen) ∧
      modeAfter .running ((calls.flatMap Call.episode).map .seen) = .running := by
  induction calls with
  | nil => exact ⟨trivial, rfl⟩
  | cons c calls ih =>
    obtain ⟨hg, hm⟩ := ih fun c hc => h c (List.mem_cons_of_mem _ hc)
    have hc : Gated .running (c.episode.map .seen) ∧
        modeAfter .running (c.episode.map .seen) = .running := by
      have hw := h c List.mem_cons_self
      cases c with
      | move | moveJoints => exact ⟨gated_call (by rintro _ ⟨⟩; rfl) trivial, rfl⟩
      | wait seconds =>
        refine ⟨?_, rfl⟩
        rw [Call.episode, List.map_append, gated_append, modeAfter_conversion]
        exact ⟨gated_conversion .running .waiting,
          gated_call (by rintro _ ⟨⟩; rfl) (gated_conversion .waiting .running)⟩
      | stop | emergencyStop => cases hw
    rw [List.flatMap_cons, List.map_append, gated_append, modeAfter_append, hc.2]
    exact ⟨⟨hc.1, hg⟩, hm⟩

theorem gated_runLog {calls : List Call} (h : ∀ c ∈ calls, c.isWork) :
    Gated .idle ((runLog calls).map .seen) ∧
      modeAfter .idle ((runLog calls).map .seen) = .idle := by
  obtain ⟨hg, hm⟩ := gated_episodes h
  unfold runLog
  rw [List.map_append, List.map_append, gated_append, gated_append, modeAfter_append,
    modeAfter_append, modeAfter_conversion, hm]
  exact ⟨⟨gated_conversion .idle .running, hg, gated_conversion .running .idle⟩, rfl⟩

def Lively (es : List Event) : Prop := ∀ mode, .notice ⟨.entry, mode⟩ ∈ es → ¬ mode.isHalted

theorem lively_runLog (calls : List Call) : Lively (runLog calls) := by
  intro mode hm
  simp only [runLog, Controller.conversion, List.map_cons, List.map_nil, List.mem_append,
    List.mem_cons, Event.notice.injEq, Notice.mk.injEq, reduceCtorEq, false_and, true_and,
    List.not_mem_nil, or_false, false_or, List.mem_flatMap] at hm
  rcases hm with rfl | ⟨c, _, hm⟩ | rfl
  · decide
  · cases c with
    | wait =>
      simp [Call.episode, Controller.conversion] at hm
      rcases hm with rfl | rfl <;> decide
    | move | moveJoints | stop | emergencyStop => simp [Call.episode] at hm
  · decide

theorem Lively.modeAfter {es : List Event} (h : Lively es) {mode : Mode}
    (hm : ¬ mode.isHalted) {before after : List Occurrence}
    (he : es.map .seen = before ++ after) : ¬ (modeAfter mode before).isHalted := by
  induction before generalizing es mode with
  | nil => exact hm
  | cons o before ih =>
    obtain ⟨e, es, rfl, rfl, hrest⟩ := List.map_eq_cons_iff.1 he
    refine ih (fun m hm => h m (List.mem_cons_of_mem _ hm)) ?_ hrest
    unfold Occurrence.next
    split
    · next m heq =>
      cases heq
      exact h _ List.mem_cons_self
    · exact hm

/-- What following an order comes to with the usual transitions: either no halted mode is met, or
no work is requested and only a reset leads out again. -/
structure Obeyed (o : Order) (x : Execution σ) : Prop where
  settled : (o.obey x).2.1.controller.Settled
  mode : modeAfter x.controller.mode ((o.obey x).2.2.map .seen) =
    (o.obey x).2.1.controller.mode
  gated : Gated x.controller.mode ((o.obey x).2.2.map .seen)
  halting : (¬ x.controller.mode.isHalted ∧ Lively (o.obey x).2.2) ∨
    (∀ m c, .call (m := m) c ∈ (o.obey x).2.2 → ¬ c.isWork) ∧
      ((o.obey x).2.1.controller.mode.isHalted ∨
        o = .reset ∧ (o.obey x).1 = true ∧ (o.obey x).2.1.controller.mode = .idle)

theorem obeyed_unchanged {o : Order} {x : Execution σ} (h : x.controller.Settled) {b : Bool}
    (ho : o.obey x = (b, x, [])) : Obeyed o x := by
  constructor
  case settled => rwa [ho]
  case mode => rw [ho]; rfl
  case gated => rw [ho]; trivial
  case halting =>
    rw [ho]
    by_cases hh : x.controller.mode.isHalted
    · right
      exact ⟨by simp, .inl hh⟩
    · left
      exact ⟨hh, by simp [Lively]⟩

theorem run_obeyed {x : Execution σ} (h : x.controller.Settled) (is : List Instruction) :
    Obeyed (.run is) x := by
  have ho : (Order.run is).obey x = ((run is x).1.isOk, (run is x).2) := bind_pure_apply ..
  by_cases hm : x.controller.mode = .idle
  · obtain ⟨report, hrun⟩ := run_idle h hm is
    obtain ⟨hg, hl⟩ := gated_runLog (work_of_requests is x.parameters)
    rw [hrun] at ho
    constructor
    case settled => rw [ho]; exact h
    case mode => rw [ho, hm, hl]; exact hm.symm
    case gated => rwa [ho, hm]
    case halting =>
      rw [ho, hm]
      exact .inl ⟨by decide, lively_runLog _⟩
  · rw [run_busy h hm] at ho
    exact obeyed_unchanged h ho

theorem start_obeyed {x : Execution σ} (h : x.controller.Settled) : Obeyed .start x := by
  by_cases hm : x.controller.mode = .idle
  · have ho : Order.start.obey x =
        (true, x.inMode .running, (Controller.conversion .idle .running).map .notice) := by
      rw [Order.obey, start, trigger_usual h.transitions
        ((Controller.usualTarget?_start _).trans (if_pos hm)), hm]
    constructor
    case settled => rw [ho]; exact settled_inMode h (by decide)
    case mode => rw [ho]; rfl
    case gated => rw [ho, hm]; exact gated_conversion .idle .running
    case halting =>
      rw [ho, hm]
      left
      exact ⟨by decide, fun m hm => by simp [Controller.conversion] at hm; rw [hm]; decide⟩
  · exact obeyed_unchanged h
      (trigger_unknown h.transitions ((Controller.usualTarget?_start _).trans (if_neg hm)))

theorem stop_obeyed {x : Execution σ} (h : x.controller.Settled) : Obeyed .stop x := by
  by_cases hm : x.controller.mode = .running
  · have ho : Order.stop.obey x =
        (true, (x.inMode .stopped).after [.stop],
          (Controller.conversion .running .stopped).map .notice ++
            [.call (m := .stopped) .stop]) := by
      rw [Order.obey, stop, bind_apply, trigger_usual h.transitions
        ((Controller.usualTarget?_stop _).trans (if_pos (.inl hm))), hm]
      rfl
    constructor
    case settled => rw [ho]; exact settled_inMode h (by decide)
    case mode => rw [ho]; rfl
    case gated =>
      rw [ho, hm, List.map_append, gated_append, modeAfter_conversion]
      exact ⟨gated_conversion .running .stopped, gated_call (by rintro _ ⟨⟩; rfl) trivial⟩
    case halting =>
      rw [ho]
      right
      exact ⟨by simp [Controller.conversion, Call.isWork], .inl rfl⟩
  · have ho : Order.stop.obey x = (false, x, []) := by
      rw [Order.obey, stop, bind_apply, trigger_unknown h.transitions
        ((Controller.usualTarget?_stop _).trans (if_neg (by simp [hm, h.mode])))]
      rfl
    exact obeyed_unchanged h ho

theorem emergencyStop_obeyed {x : Execution σ} (h : x.controller.Settled) :
    Obeyed .emergencyStop x := by
  have hx : (x.after [.emergencyStop]).controller.transitions =
      Controller.standard.transitions := h.transitions
  have ho : Order.emergencyStop.obey x =
      let r := trigger Controller.emergencyEvent (x.after [.emergencyStop])
      (r.1, r.2.1, .call (m := x.controller.mode) .emergencyStop :: r.2.2) := rfl
  by_cases hm : x.controller.mode = .running
  · rw [trigger_usual hx ((Controller.usualTarget?_emergency _).trans (if_pos (.inl hm)))] at ho
    constructor
    case settled => rw [ho]; exact settled_inMode h (by decide)
    case mode => rw [ho]; rfl
    case gated =>
      rw [ho]
      exact gated_call (by rintro _ ⟨⟩) (gated_conversion x.controller.mode .emergency)
    case halting =>
      rw [ho]
      right
      exact ⟨by simp [Controller.conversion, Call.isWork], .inl rfl⟩
  · have hn : ¬ (x.controller.mode = .running ∨ x.controller.mode = .waiting) := by
      simp [hm, h.mode]
    rw [trigger_unknown hx ((Controller.usualTarget?_emergency _).trans (if_neg hn))] at ho
    constructor
    case settled => rw [ho]; exact h
    case mode => rw [ho]; rfl
    case gated => rw [ho]; exact gated_call (by rintro _ ⟨⟩) trivial
    case halting =>
      rw [ho]
      by_cases hh : x.controller.mode.isHalted
      · right
        exact ⟨by simp [Call.isWork], .inl hh⟩
      · left
        exact ⟨hh, by simp [Lively]⟩

theorem reset_obeyed {x : Execution σ} (h : x.controller.Settled) : Obeyed .reset x := by
  by_cases hh : x.controller.mode.isHalted
  · have ho : Order.reset.obey x =
        (true, x.inMode .idle,
          (Controller.conversion x.controller.mode .idle).map .notice) := by
      rw [Order.obey, reset, trigger_usual h.transitions
        ((Controller.usualTarget?_reset _).trans (if_pos hh))]
    constructor
    case settled => rw [ho]; exact settled_inMode h (by decide)
    case mode => rw [ho]; rfl
    case gated => rw [ho]; exact gated_conversion x.controller.mode .idle
    case halting =>
      rw [ho]
      right
      exact ⟨by simp [Controller.conversion], .inr ⟨rfl, rfl, rfl⟩⟩
  · exact obeyed_unchanged h
      (trigger_unknown h.transitions ((Controller.usualTarget?_reset _).trans (if_neg hh)))

theorem obeyed {x : Execution σ} (h : x.controller.Settled) (o : Order) : Obeyed o x := by
  cases o with
  | run is => exact run_obeyed h is
  | start => exact start_obeyed h
  | stop => exact stop_obeyed h
  | emergencyStop => exact emergencyStop_obeyed h
  | reset => exact reset_obeyed h

theorem Obeyed.quiet {o : Order} {x : Execution σ} {rest : List Occurrence}
    (h : (o.obey x).2.1.controller.mode.isHalted ∨
      o = .reset ∧ (o.obey x).1 = true ∧ (o.obey x).2.1.controller.mode = .idle)
    (hq : (o.obey x).2.1.controller.mode.isHalted → Quiet rest) :
    Quiet (.answered (o.obey x).2.1.controller.mode o (o.obey x).1 :: rest) := by
  rcases h with hh | ⟨rfl, ha, hm⟩
  · exact (hq hh).cons fun m c hc => by cases hc
  · rw [ha, hm]
    exact quiet_reset rest

theorem quiet_history {x : Execution σ} (h : x.controller.Settled)
    (hh : x.controller.mode.isHalted) (os : List Order) : Quiet (history os x).2 := by
  induction os generalizing x with
  | nil => exact quiet_nil
  | cons o os ih =>
    have ho := obeyed h o
    rcases ho.halting with ⟨hn, _⟩ | ⟨hwork, hend⟩
    · exact absurd hh hn
    · exact (Obeyed.quiet hend fun hh' => ih ho.settled hh').append
        fun m c hc => hwork m c (by simpa using hc)

/-- Once a halted mode has been entered, be it in the middle of an order, no work is requested until
a reset has been possible. -/
theorem quiet_after {x : Execution σ} (h : x.controller.Settled) (os : List Order)
    {before rest : List Occurrence} (he : (history os x).2 = before ++ rest)
    (hh : (modeAfter x.controller.mode before).isHalted) : Quiet rest := by
  induction os generalizing x before with
  | nil =>
    obtain ⟨rfl, rfl⟩ := List.append_eq_nil_iff.1 he.symm
    exact quiet_nil
  | cons o os ih =>
    have ho := obeyed h o
    have hrests : (o.obey x).2.1.controller.mode.isHalted →
        Quiet (history os (o.obey x).2.1).2 := fun hh' => quiet_history ho.settled hh' os
    rcases List.append_eq_append_iff.1 he with ⟨between, rfl, hrest⟩ | ⟨between, hbefore, rfl⟩
    · rw [modeAfter_append, ho.mode] at hh
      cases between with
      | nil =>
        rw [← List.nil_append rest, ← hrest]
        exact Obeyed.quiet (.inl hh) hrests
      | cons o' between =>
        obtain ⟨rfl, htail⟩ := List.cons.inj hrest
        exact ih ho.settled htail hh
    · rcases ho.halting with ⟨hn, hlively⟩ | ⟨hwork, hend⟩
      · exact absurd hh (hlively.modeAfter hn hbefore)
      · refine (Obeyed.quiet hend hrests).append ?_
        intro m c hc
        apply hwork m c
        have hmem : Occurrence.seen (.call (m := m) c) ∈ (o.obey x).2.2.map .seen :=
          hbefore ▸ List.mem_append_right _ hc
        simpa using hmem

theorem history_settled {x : Execution σ} (h : x.controller.Settled) (os : List Order) :
    (history os x).1.controller.Settled ∧
      modeAfter x.controller.mode (history os x).2 = (history os x).1.controller.mode ∧
      Gated x.controller.mode (history os x).2 := by
  induction os generalizing x with
  | nil => exact ⟨h, rfl, trivial⟩
  | cons o os ih =>
    have ho := obeyed h o
    obtain ⟨hs, hm, hg⟩ := ih ho.settled
    refine ⟨hs, ?_, ?_⟩
    · rw [history, modeAfter_append, ho.mode]
      exact hm
    · rw [history, gated_append, ho.mode]
      exact ⟨ho.gated, ⟨rfl, by rintro _ ⟨⟩⟩, hg⟩

theorem recorded_obey (o : Order) : Recorded (σ := σ) o.obey o.obey := by
  cases o with
  | run is => exact (recorded_run is).bind fun _ => recorded_pure _
  | start => exact recorded_trigger _
  | stop =>
    refine (recorded_trigger _).bind fun stopped => ?_
    exact Recorded.ite ((recorded_call _).bind fun _ => recorded_pure _) (recorded_pure _)
  | emergencyStop => exact (recorded_call _).bind fun _ => recorded_trigger _
  | reset => exact recorded_trigger _

theorem filterMap_call?_seen (es : List Event) :
    (es.map .seen).filterMap Occurrence.call? = es.filterMap Event.call? :=
  List.filterMap_map

theorem drive_history (os : List Order) (x : Execution σ) :
    (history os x).1.drive =
      Call.performAll x.drive ((history os x).2.filterMap Occurrence.call?) := by
  induction os generalizing x with
  | nil => rfl
  | cons o os ih =>
    rw [history, List.filterMap_append, filterMap_call?_seen, Call.performAll_append,
      ← (recorded_obey o).drive]
    exact ih _

/-- A recorder in front of the drive receives the requests of all orders and changes nothing else. -/
theorem history_record (os : List Order) (x : Execution σ) (received : List Call) :
    history os (x.record received) =
      ((history os x).1.record (received ++ (history os x).2.filterMap Occurrence.call?),
        (history os x).2) := by
  induction os generalizing x received with
  | nil => simp [history]
  | cons o os ih =>
    rw [history, history, (recorded_obey o).record]
    dsimp only
    rw [ih, List.filterMap_append, filterMap_call?_seen, List.append_assoc]
    rfl

/-- What holds of an execution and of all that has been seen of it since it was fresh, with a drive
of its own. -/
structure Guarded (drive : σ) (x : Execution σ) (log : List Occurrence) : Prop where
  /-- The controller is in the mode for a request when that is made. -/
  calls : ∀ m c, .seen (.call (m := m) c) ∈ log → ∀ m' ∈ c.mode?, m = m'
  /-- At every moment the controller is in the mode that was entered last. -/
  entered : ∀ before o rest, log = before ++ o :: rest →
    modeAfter .idle (before ++ [o]) = o.mode
  mode : modeAfter .idle log = x.controller.mode
  not_waiting : x.controller.mode ≠ .waiting
  /-- A run goes from idling to idling, or it does nothing at all. -/
  run : ∀ is, match (run is x).1 with
    | .ok _ => x.controller.mode = .idle ∧ (run is x).2.1.controller.mode = .idle
    | .error _ => (run is x).2 = (x, [])
  /-- From any moment in a halted mode, no work is requested before a reset has been possible. -/
  halted : ∀ before o between m c rest,
    log = before ++ o :: (between ++ .seen (.call (m := m) c) :: rest) →
      o.mode.isHalted → c.isWork → .answered .idle .reset true ∈ between
  drive : x.drive = Call.performAll drive (log.filterMap Occurrence.call?)

/-- A fresh machine with the usual transitions is guarded under whatever orders, whatever its
handlers are and its drive answers. The requests that are seen are those that the drive receives. -/
theorem guarded_history (drive : σ) (handlers : List (Notice × String)) (parameters : Dynamics)
    (os : List Order) :
    let fresh : Execution σ := ⟨drive, { Controller.standard with handlers }, parameters⟩
    let x := history os fresh
    Guarded drive x.1 x.2 ∧
      history os (fresh.record []) = (x.1.record (x.2.filterMap Occurrence.call?), x.2) := by
  have h : ({ Controller.standard with handlers } : Controller).Settled :=
    ⟨rfl, Mode.noConfusion⟩
  intro fresh x
  obtain ⟨hs, hm, hg⟩ := history_settled (x := fresh) h os
  refine ⟨?_, history_record os fresh []⟩
  constructor
  case calls =>
    intro m c hmem
    obtain ⟨before, rest, he⟩ := List.append_of_mem hmem
    exact (hg.mode_eq he).2 c rfl
  case entered => exact fun before o rest he => (hg.mode_eq he).1
  case mode => exact hm
  case not_waiting => exact hs.mode
  case run =>
    intro is
    by_cases hi : x.1.controller.mode = .idle
    · obtain ⟨report, hrun⟩ := run_idle hs hi is
      rw [hrun]
      exact ⟨hi, hi⟩
    · rw [run_busy hs hi]
  case halted =>
    intro before o between m c rest he hh hc
    rw [← (hg.mode_eq he).1] at hh
    rw [List.append_cons] at he
    exact quiet_after h os he hh between m c rest rfl hc
  case drive => exact drive_history os _

/-- A run is refused after a stop and accepted after a reset. -/
def shift : List Order :=
  let pause : List Instruction := [⟨"WAIT", [(Instruction.durationKey, .real 1.0)], none⟩]
  [.start, .stop, .run pause, .reset, .run pause]

theorem guarded_shift :
    let r := history shift ⟨(default : Arm), Controller.standard, {}⟩
    let entry : Occurrence := .seen (.notice ⟨.entry, .stopped⟩)
    let between := (r.2.take 20).drop 6
    Guarded default r.1 r.2 ∧ entry.mode.isHalted ∧
      r.2 = r.2.take 5 ++ entry ::
        (between ++ .seen (.call (m := .waiting) (.wait 1.0)) :: r.2.drop 21) ∧
      .answered .idle .reset true ∈ between := by
  intro r entry between
  have hg : Guarded default r.1 r.2 := (guarded_history (default : Arm) [] {} shift).1
  have hh : entry.mode.isHalted := rfl
  have he : r.2 = r.2.take 5 ++ entry ::
      (between ++ .seen (.call (m := .waiting) (.wait 1.0)) :: r.2.drop 21) := by
    decide +kernel
  exact ⟨hg, hh, he, hg.halted _ _ _ _ _ _ he hh rfl⟩

end Execution

end ArmLang
