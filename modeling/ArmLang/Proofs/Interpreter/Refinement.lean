import ArmLang.Proofs.Execution.Recorder
import ArmLang.Proofs.Instruction.Emission
import ArmLang.Proofs.Interpreter.Simulation

namespace ArmLang

def Silent (is : List Instruction) : Prop :=
  ∀ i ∈ is, Category.ofCommand? i.command = none

theorem silent_nil : Silent [] := by
  intro i hi
  cases hi

theorem silent_singleton {i : Instruction} (h : Category.ofCommand? i.command = none) :
    Silent [i] := by
  intro j hj
  rw [List.mem_singleton.1 hj]
  exact h

theorem Silent.append {is js : List Instruction} (hi : Silent is) (hj : Silent js) :
    Silent (is ++ js) := by
  intro i h
  rcases List.mem_append.1 h with h | h
  · exact hi i h
  · exact hj i h

theorem Silent.requests {is : List Instruction} (h : Silent is) (parameters : Dynamics) :
    is.filterMap (·.request? parameters) = [] := by
  rw [List.filterMap_eq_nil_iff]
  intro i hi
  exact Instruction.request?_eq_none (h i hi) parameters

namespace Expr

theorem silent_of_assigns {is : List Instruction} (h : ∀ i ∈ is, IsAssignment i) : Silent is := by
  intro i hi
  obtain ⟨name, w, l, rfl⟩ := h i hi
  exact Category.ofCommand?_append (by decide) name

theorem silent_evaluate (e : Expr) (s : Store) : Silent (e.evaluate s).code :=
  silent_of_assigns (e.evaluate_assigns s)

theorem interpret_remember {m : Memory} (h : m.store.Consistent) (e : Expr) :
    e.interpret m.store.environment =
      ((e.remember m).value, (e.remember m).state.store.environment) :=
  interpret_environment h e

end Expr

theorem Compound.ofCommand?_declaration (type : Compound) :
    Category.ofCommand? type.declaration.1 = none := by
  cases type <;> decide

namespace Statement

theorem interpretInitial_environment {m : Memory} (h : m.store.Consistent) (type : DataType)
    (name : String) (init : Option Expr) :
    interpretInitial type init m.store.environment =
      ((initialValue type name init m).value,
        (initialValue type name init m).state.store.environment) := by
  cases init with
  | none => rfl
  | some e =>
    rw [interpretInitial, e.interpret_remember h, initialValue, Step.bind_apply]
    unfold Value.convert
    cases (e.remember m).value.convert? type with
    | none => rfl
    | some w => rfl

theorem dataType_initialValue (type : DataType) (name : String) (init : Option Expr)
    (m : Memory) : (initialValue type name init m).value.dataType = type := by
  cases init with
  | none => exact Value.dataType_zero type
  | some e =>
    rw [initialValue, Step.value_bind]
    cases hw : (e.remember m).value.convert type with
    | ok w => exact Value.dataType_convert hw
    | error err => exact Value.dataType_zero type

theorem interpretFields_environment {m : Memory} (h : m.store.Consistent) (type : Compound)
    (v : Value) (fields : List (String × Expr)) :
    interpretFields v fields m.store.environment =
      ((setFields type v fields m).value, (setFields type v fields m).state.store.environment) := by
  induction fields generalizing v m with
  | nil => rfl
  | cons f fields ih =>
    obtain ⟨field, e⟩ := f
    obtain ⟨issues, hn⟩ := Expr.number_gives (e.remember m).value e.location (e.remember m).state
    have he : (e.remember m).state.store.Consistent := e.consistent_evaluate h
    rw [interpretFields, e.interpret_remember h, setFields, Step.bind_apply, Step.bind_apply, hn]
    dsimp only
    cases (e.remember m).value.number? with
    | none => exact ih he v
    | some x =>
      dsimp only [Option.bind_some]
      cases v.setField? field x with
      | none => exact ih he v
      | some w => exact ih he w

theorem dataType_setFields (type : Compound) (v : Value) (fields : List (String × Expr))
    (m : Memory) : (setFields type v fields m).value.dataType = v.dataType := by
  induction fields generalizing v m with
  | nil => rfl
  | cons f fields ih =>
    obtain ⟨field, e⟩ := f
    obtain ⟨issues, hn⟩ := Expr.number_gives (e.remember m).value e.location (e.remember m).state
    rw [setFields, Step.value_bind, Step.value_bind, hn]
    dsimp only
    cases (e.remember m).value.number? with
    | none => exact ih v _
    | some x =>
      dsimp only
      cases hw : v.setField? field x with
      | none => exact ih v _
      | some w => exact (ih w _).trans (Value.dataType_setField? hw)

theorem fieldType?_eq {s : Store} (h : s.Consistent) (target : String) :
    (fieldType? s target).isSome =
      ((s.environment target).map Value.dataType).any (·.isStructured) := by
  unfold fieldType?
  rw [h.dataType?_eq]
  change _ = ((s.value? target).map Value.dataType).any (·.isStructured)
  cases (s.value? target).map Value.dataType with
  | none => rfl
  | some type => cases type <;> rfl

theorem environment_setField {m : Memory} (h : m.store.Consistent) (target field : String)
    (x : Option Float) :
    (m.setField target field x).store.environment =
      match x.bind fun x => (m.store.environment target).bind fun v => v.setField? field x with
      | some v => m.store.environment.set target v
      | none => m.store.environment := by
  cases x with
  | none => rfl
  | some x =>
    unfold Memory.setField Store.setField?
    dsimp only [Option.elim, Option.bind_some]
    rw [show m.store.environment target = m.store.value? target from rfl]
    cases hw : (m.store.value? target).bind fun v => v.setField? field x with
    | none => rfl
    | some w =>
      obtain ⟨v, hv, -⟩ := Option.bind_eq_some_iff.1 hw
      have ht := h.dataType?_eq target
      rw [hv] at ht
      exact Store.environment_replace ht w

theorem interpretSetField_environment {m : Memory} (h : m.store.Consistent)
    (target field : String) (value : Expr) (l : Location) :
    interpretSetField target field value m.store.environment =
      (flattenSetField target field value l m).state.store.environment := by
  rw [interpretSetField, ← fieldType?_eq h]
  cases ht : fieldType? m.store target with
  | none =>
    obtain ⟨issues, he⟩ := flattenSetField_scalar ht field value l
    rw [he]
    rfl
  | some type =>
    obtain ⟨issues, he⟩ := flattenSetField_compound ht field value l
    have hm : (value.remember m).state.store.Consistent := value.consistent_evaluate h
    rw [he, environment_setField hm, value.interpret_remember h]
    rfl

theorem pathOf?_motion (path : Path) (relative : Bool) :
    pathOf? (Keyword.motion path relative).text = if relative then none else some path := by
  cases path <;> cases relative <;> decide

/-- A motion makes the request that goes to what its target holds, unless it is relative. -/
theorem request?_motion {v : Value} {goal : String × Value} (h : motionTarget? v = some goal)
    (parameters : Dynamics) (path : Path) (relative : Bool) (target : String) (l : Location) :
    (⟨(Keyword.motion path relative).text, [("position", .char target), goal], l⟩ :
        Instruction).request? parameters =
      (pathOf? (Keyword.motion path relative).text).bind fun path =>
        callTo? parameters path v := by
  rw [Instruction.request?, Category.ofCommand?_motion, pathOf?_motion]
  cases relative with
  | true => rfl
  | false =>
    unfold motionTarget? at h
    split at h <;> cases h <;> rfl

theorem callTo?_eq_none {v : Value} (h : motionTarget? v = none) (parameters : Dynamics)
    (path : Path) : callTo? parameters path v = none := by
  unfold motionTarget? at h
  split at h
  · cases h
  · cases h
  · cases h
  · unfold callTo?
    split <;> simp_all

theorem interpret_motion (m : Memory) (parameters : Dynamics) (path : Path) (relative : Bool)
    (target : String) (place l : Location) :
    let st := motion (Keyword.motion path relative).text target
      [("position", .var target place)] l
    interpret parameters st m.store.environment =
      ((flatten st m).state.store.environment,
        (flatten st m).code.filterMap (·.request? parameters)) := by
  intro st
  change (m.store.environment, _) = _
  rw [show m.store.environment target = m.store.value? target from rfl]
  cases hv : m.store.value? target with
  | none =>
    have hg : goal? m.store target = none := by
      rw [goal?, hv]
      rfl
    obtain ⟨issues, he⟩ := flattenMotion_no_goal hg (Keyword.motion path relative).text
      [("position", .var target place)] l
    rw [flatten, he]
    simp
  | some v =>
    have hgoal : goal? m.store target = motionTarget? v := by
      rw [goal?, hv]
      rfl
    cases hg : motionTarget? v with
    | none =>
      rw [hg] at hgoal
      obtain ⟨issues, he⟩ := flattenMotion_no_goal hgoal (Keyword.motion path relative).text
        [("position", .var target place)] l
      rw [flatten, he]
      simp [callTo?_eq_none hg]
    | some goal =>
      rw [hg] at hgoal
      rw [flatten, flattenMotion_goal hgoal, Step.bind_emit]
      have hr := request?_motion hg parameters path relative target l
      change (_, ((pathOf? _).bind fun path => callTo? parameters path v).toList) = _
      rw [← hr, List.filterMap_eq_flatMap_toList]
      exact congrArg (Prod.mk m.store.environment) (List.append_nil _).symm

theorem ofCommand?_mark :
    ∀ command ∈ ["IF_START", "THEN_BLOCK", "ELSE_BLOCK", "IF_END"],
      Category.ofCommand? command = none := by
  decide

/-- Around a branch there are only marks. -/
theorem requests_branch {test branch : List Instruction} {block : Instruction}
    (ht : Silent test) (hb : Category.ofCommand? block.command = none) {taken : Bool}
    {l : Location} {parameters : Dynamics} :
    (test ++ ifStart taken l :: block :: (branch ++ [ifEnd l])).filterMap
        (·.request? parameters) =
      branch.filterMap (·.request? parameters) := by
  have hstart : (ifStart taken l).request? parameters = none :=
    Instruction.request?_eq_none (ofCommand?_mark "IF_START" (by decide)) parameters
  have hend : Silent [ifEnd l] := silent_singleton (ofCommand?_mark "IF_END" (by decide))
  rw [List.filterMap_append, ht.requests, List.nil_append, List.filterMap_cons_none hstart,
    List.filterMap_cons_none (Instruction.request?_eq_none hb parameters), List.filterMap_append,
    hend.requests, List.append_nil]

mutual

/-- Flattening a statement finds the variables as the interpreter does, and its instructions make
the requests that the interpreter lists. -/
theorem interpret_environment {s : Statement} (hs : s.WellFormed) {m : Memory}
    (h : m.store.Consistent) (parameters : Dynamics) :
    s.interpret parameters m.store.environment =
      ((flatten s m).state.store.environment,
        (flatten s m).code.filterMap (·.request? parameters)) := by
  match s with
  | block _ body => exact hs.elim
  | routine _ _ body _ => exact interpretAll_environment hs h parameters
  | motion command target args l =>
    obtain ⟨⟨path, relative, rfl⟩, place, rfl⟩ := hs
    exact interpret_motion m parameters path relative target place l
  | declare type name init l =>
    have hcode : Silent (flatten (declare type name init l) m).code :=
      (Expr.silent_of_assigns (initialValue_assigns type name init m)).append
        (silent_singleton (Category.ofCommand?_append (by decide) name))
    rw [interpret, interpretInitial_environment h type name, hcode.requests,
      ← Store.environment_declare (dataType_initialValue type name init m)]
    rfl
  | declareFields type name fields l =>
    have hcode : Silent (flatten (declareFields type name fields l) m).code :=
      (Expr.silent_of_assigns (setFields_assigns type _ fields m)).append
        (silent_singleton type.ofCommand?_declaration)
    have hv : (setFields type type.dataType.zero fields m).value.dataType = type.dataType := by
      rw [dataType_setFields, Value.dataType_zero]
    rw [interpret, interpretFields_environment h type, hcode.requests,
      ← Store.environment_declare hv]
    rfl
  | setField target field value l =>
    have hcode := Expr.silent_of_assigns (flattenSetField_assigns target field value l m)
    rw [interpret, interpretSetField_environment h target field value l, flatten, hcode.requests]
  | ifThen condition start body l =>
    obtain ⟨issues, hc⟩ := evaluateCondition_eq condition m
    have hm : (condition.remember m).state.store.Consistent := condition.consistent_evaluate h
    have htest : Silent (condition.remember m).code := condition.silent_evaluate m.store
    rw [interpret, condition.interpret_remember h, flatten_ifThen, hc]
    unfold Expr.holds
    dsimp only
    cases (condition.remember m).value.number?.any (· != 0.0) with
    | true =>
      simp only [if_true]
      rw [requests_branch htest (ofCommand?_mark "THEN_BLOCK" (by decide))]
      exact interpretAll_environment hs.2 hm parameters
    | false =>
      have hmarks : Silent [ifStart false l, ifEnd l] :=
        (silent_singleton (ofCommand?_mark "IF_START" (by decide))).append
          (silent_singleton (ofCommand?_mark "IF_END" (by decide)))
      simp only [Bool.false_eq_true, if_false]
      rw [(htest.append hmarks).requests]
  | ifElse condition start body elseStart elseBody l =>
    obtain ⟨issues, hc⟩ := evaluateCondition_eq condition m
    have hm : (condition.remember m).state.store.Consistent := condition.consistent_evaluate h
    have htest : Silent (condition.remember m).code := condition.silent_evaluate m.store
    rw [interpret, condition.interpret_remember h, flatten_ifElse, hc]
    unfold Expr.holds
    dsimp only
    cases (condition.remember m).value.number?.any (· != 0.0) with
    | true =>
      simp only [if_true]
      rw [requests_branch htest (ofCommand?_mark "THEN_BLOCK" (by decide))]
      exact interpretAll_environment hs.2.1 hm parameters
    | false =>
      simp only [Bool.false_eq_true, if_false]
      rw [requests_branch htest (ofCommand?_mark "ELSE_BLOCK" (by decide))]
      exact interpretAll_environment hs.2.2 hm parameters
  | wait seconds l =>
    rfl
  | evaluate e =>
    have hcode : Silent (flatten (evaluate e) m).code :=
      (e.silent_evaluate m.store).append silent_nil
    rw [interpret, e.interpret_remember h, hcode.requests]
    rfl

theorem interpretAll_environment {ss : List Statement} (hs : WellFormedAll ss) {m : Memory}
    (h : m.store.Consistent) (parameters : Dynamics) :
    interpretAll parameters ss m.store.environment =
      ((flattenAll ss m).state.store.environment,
        (flattenAll ss m).code.filterMap (·.request? parameters)) := by
  match ss with
  | [] => rfl
  | s :: ss =>
    have hm : (flatten s m).state.store.Consistent := by
      rw [← performAll_operations]
      exact h.performAll _
    rw [interpretAll, interpret_environment hs.1 h, interpretAll_environment hs.2 hm, flattenAll,
      Step.state_bind, Step.code_bind, List.filterMap_append]

end

end Statement

/-- Flattening a program that was read and running its instructions makes the requests that the
interpreter lists, in that order, and no others, and those are what the drive receives. It does not
matter what it answers. -/
theorem run_flatten_eq_interpret [Drive σ] (tokens : List Token) (drive : σ)
    (parameters : Dynamics) :
    let p := (Program.read tokens).1
    let x : Execution σ := { drive, parameters }
    let r := Execution.run p.flatten.code x
    (∃ report, r.1 = .ok report) ∧
      r.2.2.filterMap Event.call? = p.interpret parameters ∧
      r.2.1 = { x with drive := Call.performAll drive (p.interpret parameters) } ∧
      (Execution.run p.flatten.code (x.record [])).2.1.drive.received =
        p.interpret parameters := by
  intro p x r
  have hempty : ({} : Memory).store.Consistent := Store.consistent_empty
  have hi : p.interpret parameters = p.flatten.code.filterMap (·.request? parameters) :=
    congrArg Prod.snd
      (Statement.interpretAll_environment (Program.read_wellFormed tokens) hempty parameters)
  obtain ⟨hr, hs⟩ := Execution.run_served drive parameters p.flatten.code
  rw [hi]
  exact ⟨hr, hs.calls, hs.state, (Execution.received_run _ x).trans hs.calls⟩

end ArmLang
