import ArmLang.Proofs.Execution.Requests

namespace ArmLang

/-- A drive behind a list of the requests that it has received. -/
structure Recorder (σ : Type) where
  drive : σ
  received : List Call

namespace Recorder

variable [Drive σ]

instance : Drive (Recorder σ) where
  moveToPose r pose path parameters :=
    let (drive, result) := Drive.moveToPose r.drive pose path parameters
    (⟨drive, r.received ++ [.move path pose parameters]⟩, result)
  moveJoints r joints parameters :=
    let (drive, result) := Drive.moveJoints r.drive joints parameters
    (⟨drive, r.received ++ [.moveJoints joints parameters]⟩, result)
  wait r seconds := ⟨Drive.wait r.drive seconds, r.received ++ [.wait seconds]⟩
  stop r := ⟨Drive.stop r.drive, r.received ++ [.stop]⟩
  emergencyStop r := ⟨Drive.emergencyStop r.drive, r.received ++ [.emergencyStop]⟩
  isMoving r := Drive.isMoving r.drive
  pose r := Drive.pose r.drive
  joints r := Drive.joints r.drive

theorem perform_eq (r : Recorder σ) (c : Call) :
    c.perform r = (⟨(c.perform r.drive).1, r.received ++ [c]⟩, (c.perform r.drive).2) := by
  cases c <;> rfl

end Recorder

namespace Execution

def record (x : Execution σ) (received : List Call) : Execution (Recorder σ) :=
  ⟨⟨x.drive, received⟩, x.controller, x.parameters⟩

end Execution

namespace Activity

variable [Drive σ]

/-- Nothing is done to a drive but the requests that are seen: they lead to the drive afterwards,
and a recorder in front of it receives them in order and changes nothing else. -/
structure Recorded (m : Activity σ α) (m' : Activity (Recorder σ) α) : Prop where
  drive : ∀ x, (m x).2.1.drive = Call.performAll x.drive ((m x).2.2.filterMap Event.call?)
  record : ∀ x received, m' (x.record received) =
    ((m x).1, (m x).2.1.record (received ++ (m x).2.2.filterMap Event.call?), (m x).2.2)

theorem recorded_of_silent {m : Activity σ α} {m' : Activity (Recorder σ) α}
    (hdrive : ∀ x, (m x).2.1.drive = x.drive) (hcalls : ∀ x, (m x).2.2.filterMap Event.call? = [])
    (h : ∀ x received, m' (x.record received) =
      ((m x).1, (m x).2.1.record received, (m x).2.2)) : Recorded m m' := by
  constructor
  case drive =>
    intro x
    rw [hcalls, hdrive]
    rfl
  case record =>
    intro x received
    rw [hcalls, List.append_nil, h]

theorem recorded_pure (a : α) : Recorded (σ := σ) (pure a) (pure a) :=
  recorded_of_silent (fun _ => rfl) (fun _ => rfl) fun _ _ => rfl

theorem recorded_mode : Recorded (σ := σ) mode mode :=
  recorded_of_silent (fun _ => rfl) (fun _ => rfl) fun _ _ => rfl

theorem recorded_convert (mode : Mode) : Recorded (σ := σ) (convert mode) (convert mode) :=
  recorded_of_silent (fun _ => rfl) (fun _ => rfl) fun _ _ => rfl

theorem recorded_call (c : Call) : Recorded (σ := σ) (call c) (call c) := by
  constructor
  case drive => exact fun _ => rfl
  case record =>
    intro x received
    unfold call
    rw [Execution.record, Recorder.perform_eq]
    rfl

section

variable {m : Activity σ α} {m' : Activity (Recorder σ) α}

theorem Recorded.bind (h : Recorded m m') {f : α → Activity σ β}
    {f' : α → Activity (Recorder σ) β} (hf : ∀ a, Recorded (f a) (f' a)) :
    Recorded (m >>= f) (m' >>= f') := by
  constructor
  case drive =>
    intro x
    rw [bind_apply]
    dsimp only
    rw [(hf _).drive, h.drive, List.filterMap_append, Call.performAll_append]
  case record =>
    intro x received
    rw [bind_apply, bind_apply, h.record]
    dsimp only
    rw [(hf _).record, List.filterMap_append, List.append_assoc]

theorem Recorded.ite {c : Prop} [Decidable c] {n : Activity σ α} {n' : Activity (Recorder σ) α}
    (h : Recorded m m') (hn : Recorded n n') :
    Recorded (if c then m else n) (if c then m' else n') := by
  split
  · exact h
  · exact hn

end

theorem recorded_get_bind {f : Execution σ → Activity σ α}
    {f' : Execution (Recorder σ) → Activity (Recorder σ) α}
    (hf : ∀ x received, Recorded (f x) (f' (x.record received))) :
    Recorded (get >>= f) (get >>= f') := by
  constructor
  case drive => exact fun x => (hf x []).drive x
  case record => exact fun x received => (hf x received).record x received

theorem recorded_trigger (event : String) :
    Recorded (σ := σ) (trigger event) (trigger event) := by
  refine recorded_get_bind fun x received => ?_
  have hcontroller : (x.record received).controller = x.controller := rfl
  rw [hcontroller]
  split
  · exact (recorded_convert _).bind fun _ => recorded_pure _
  · exact recorded_pure _

end Activity

namespace Execution

open Activity

variable [Drive σ]

theorem recorded_carryOut (i : Instruction) (category : Category) :
    Recorded (σ := σ) (carryOut i category) (carryOut i category) := by
  cases category with
  | wait =>
    unfold carryOut carryOutWait
    dsimp only
    split
    · exact recorded_pure _
    · exact (recorded_convert _).bind fun _ => (recorded_call _).bind fun _ =>
        (recorded_convert _).bind fun _ => recorded_pure _
  | motion path =>
    refine recorded_get_bind fun x received => ?_
    have hparameters : (x.record received).parameters = x.parameters := rfl
    rw [hparameters]
    split
    · exact recorded_pure _
    · refine (recorded_call _).bind fun result => ?_
      cases result with
      | ok => exact recorded_pure _
      | error => exact recorded_pure _

theorem recorded_carryOutAll (is : List Instruction) :
    Recorded (σ := σ) (carryOutAll is) (carryOutAll is) := by
  induction is with
  | nil => exact recorded_pure _
  | cons i is ih =>
    refine recorded_mode.bind fun mode => (recorded_pure _).ite ?_
    cases Category.ofCommand? i.command with
    | none => exact ih.bind fun _ => recorded_pure _
    | some category =>
      refine (recorded_carryOut i category).bind fun result => ?_
      cases result with
      | ok => exact ih.bind fun _ => recorded_pure _
      | error => exact ih.bind fun _ => recorded_pure _

theorem recorded_run (is : List Instruction) : Recorded (σ := σ) (run is) (run is) := by
  refine (recorded_trigger _).bind fun started => recorded_mode.bind fun mode => ?_
  refine (recorded_mode.bind fun _ => recorded_pure _).ite ?_
  refine (recorded_carryOutAll is).bind fun r => recorded_mode.bind fun mode => ?_
  refine Recorded.ite ?_ (recorded_mode.bind fun _ => recorded_pure _)
  exact (recorded_trigger _).bind fun _ => recorded_mode.bind fun _ => recorded_pure _

theorem received_run (is : List Instruction) (x : Execution σ) :
    (run is (x.record [])).2.1.drive.received = (run is x).2.2.filterMap Event.call? := by
  rw [(recorded_run is).record]
  rfl

end Execution

end ArmLang
