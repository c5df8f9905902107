import ArmLang.Proofs.Evaluation

namespace ArmLang

def Expr.rememberAll (es : List Expr) (m : Memory) : Memory :=
  es.foldl (fun m e => (e.remember m).state) m

def Expr.holds (condition : Expr) (m : Memory) : Bool :=
  (condition.remember m).value.number?.any (· != 0.0)

def Memory.setField (m : Memory) (target field : String) (x : Option Float) : Memory :=
  { m with store := x.elim m.store fun x => (m.store.setField? target field x).getD m.store }

namespace Statement

theorem initialValue_state (type : DataType) (name : String) (init : Option Expr) (m : Memory) :
    (initialValue type name init m).state = Expr.rememberAll init.toList m := by
  cases init with
  | none => rfl
  | some e =>
    rw [initialValue, Step.state_bind]
    cases (e.remember m).value.convert type with
    | ok w => rfl
    | error err => rfl

theorem setFields_state (type : Compound) (v : Value) (fields : List (String × Expr))
    (m : Memory) :
    (setFields type v fields m).state = Expr.rememberAll (fields.map (·.2)) m := by
  induction fields generalizing v m with
  | nil => rfl
  | cons f fields ih =>
    obtain ⟨field, e⟩ := f
    obtain ⟨issues, h⟩ := Expr.number_gives (e.remember m).value e.location (e.remember m).state
    rw [setFields, Step.state_bind, Step.state_bind, h]
    dsimp only
    cases (e.remember m).value.number? with
    | none => exact ih ..
    | some x =>
      dsimp only
      cases v.setField? field x with
      | some w => exact ih ..
      | none => exact ih ..

def evaluated (args : List (String × Expr)) : List Expr :=
  (args.map (·.2)).filter (·.varName?.isNone)

theorem evaluateArgs_state (args : List (String × Expr)) (m : Memory) :
    (evaluateArgs args m).state = Expr.rememberAll (evaluated args) m := by
  induction args generalizing m with
  | nil => rfl
  | cons a args ih =>
    obtain ⟨name, e⟩ := a
    rw [evaluateArgs]
    unfold evaluated
    cases he : e.varName? with
    | none => simpa [he, evaluated, Expr.rememberAll] using ih (e.remember m).state
    | some var => simpa [he, evaluated] using ih m

def goal? (s : Store) (target : String) : Option (String × Value) :=
  (s.value? target).bind motionTarget?

theorem flattenMotion_goal {m : Memory} {target : String} {goal : String × Value}
    (h : goal? m.store target = some goal) (command : String) (args : List (String × Expr))
    (l : Location) :
    flattenMotion command target args l m =
      (evaluateArgs args >>= fun others => Step.emit ⟨command, others ++ [goal], l⟩) m := by
  obtain ⟨v, hv, hg⟩ := Option.bind_eq_some_iff.1 h
  obtain ⟨x, hx, rfl⟩ := Option.map_eq_some_iff.1 hv
  rw [flattenMotion, Step.get_bind, hx]
  dsimp only
  rw [hg]

theorem flattenMotion_no_goal {m : Memory} {target : String} (h : goal? m.store target = none)
    (command : String) (args : List (String × Expr)) (l : Location) :
    ∃ issues, flattenMotion command target args l m = ⟨(), m, [], issues⟩ := by
  rw [flattenMotion, Step.get_bind]
  unfold goal? Store.value? at h
  cases hx : m.store.find? target with
  | none => exact ⟨_, rfl⟩
  | some x =>
    rw [hx] at h
    dsimp only
    rw [show motionTarget? x.value = none from h]
    exact ⟨_, rfl⟩

def fieldType? (s : Store) (target : String) : Option DataType :=
  (s.dataType? target).filter (·.isStructured)

theorem flattenSetField_scalar {m : Memory} {target : String}
    (h : fieldType? m.store target = none) (field : String) (value : Expr) (l : Location) :
    ∃ issues, flattenSetField target field value l m = ⟨(), m, [], issues⟩ := by
  rw [flattenSetField, Step.get_bind]
  unfold fieldType? at h
  cases ht : m.store.dataType? target with
  | none => exact ⟨_, rfl⟩
  | some type =>
    simp only [ht, Option.filter_some, ite_eq_right_iff, reduceCtorEq, imp_false] at h
    simp only [h, Bool.not_false, if_true]
    exact ⟨_, rfl⟩

theorem flattenSetField_compound {m : Memory} {target : String} {type : DataType}
    (h : fieldType? m.store target = some type) (field : String) (value : Expr) (l : Location) :
    ∃ issues, flattenSetField target field value l m =
      ⟨(), Memory.setField (value.remember m).state target field (value.remember m).value.number?,
        (value.remember m).code, issues⟩ := by
  obtain ⟨ht, hs⟩ := Option.filter_eq_some_iff.1 h
  obtain ⟨issues, hn⟩ := Expr.number_gives (value.remember m).value value.location
    (value.remember m).state
  rw [flattenSetField, Step.get_bind, ht]
  simp only [hs, Bool.not_true, Bool.false_eq_true, if_false]
  rw [Step.bind_apply, Step.bind_apply, hn]
  dsimp only
  cases (value.remember m).value.number? with
  | none => exact ⟨_, by simp [Memory.setField]; rfl⟩
  | some x =>
    dsimp only
    rw [Step.get_bind]
    unfold Memory.setField
    cases hf : (value.remember m).state.store.setField? target field x with
    | none => exact ⟨_, by simp [hf, Step.note]; rfl⟩
    | some s => exact ⟨_, by simp [hf, Step.put]; rfl⟩

theorem evaluateCondition_eq (condition : Expr) (m : Memory) :
    ∃ issues, evaluateCondition condition m =
      ⟨Expr.holds condition m, (condition.remember m).state, (condition.remember m).code,
        issues⟩ := by
  obtain ⟨issues, h⟩ := Expr.number_gives (condition.remember m).value condition.location
    (condition.remember m).state
  refine ⟨(condition.remember m).issues ++ issues, ?_⟩
  rw [evaluateCondition, Step.bind_apply, Step.bind_apply, h]
  simp only [Step.value_pure, Step.state_pure, Step.code_pure, Step.issues_pure, List.append_nil,
    Expr.holds]

theorem holds_eq_value (condition : Expr) (m : Memory) :
    condition.holds m = (evaluateCondition condition m).value := by
  obtain ⟨issues, h⟩ := evaluateCondition_eq condition m
  rw [h]

def ifStart (taken : Bool) (l : Location) : Instruction :=
  ⟨"IF_START", [("condition", .bool taken)], l⟩

def ifEnd (l : Location) : Instruction := ⟨"IF_END", [], l⟩

theorem flatten_ifThen (condition : Expr) (start : Location) (body : List Statement)
    (l : Location) (m : Memory) :
    flatten (ifThen condition start body l) m =
      let test := evaluateCondition condition m
      let branch := flattenAll body test.state
      if condition.holds m then
        ⟨(), branch.state, test.code ++ ifStart true l :: ⟨"THEN_BLOCK", [], start⟩ ::
          (branch.code ++ [ifEnd l]), test.issues ++ branch.issues⟩
      else ⟨(), test.state, test.code ++ [ifStart false l, ifEnd l], test.issues⟩ := by
  obtain ⟨issues, hc⟩ := evaluateCondition_eq condition m
  rw [flatten, Step.bind_apply, hc]
  dsimp only
  cases condition.holds m with
  | true =>
    simp only [if_true]
    rw [Step.emit_bind, Step.emit_bind, Step.bind_emit]
    rfl
  | false =>
    simp only [Bool.false_eq_true, if_false]
    rw [Step.emit_bind]
    exact congrArg (Effect.mk _ _ _) (List.append_nil issues)

theorem flatten_ifElse (condition : Expr) (start : Location) (body : List Statement)
    (elseStart : Location) (elseBody : List Statement) (l : Location) (m : Memory) :
    flatten (ifElse condition start body elseStart elseBody l) m =
      let test := evaluateCondition condition m
      let taken := condition.holds m
      let branch := flattenAll (if taken then body else elseBody) test.state
      ⟨(), branch.state, test.code ++ ifStart taken l ::
          (if taken then ⟨"THEN_BLOCK", [], start⟩ else ⟨"ELSE_BLOCK", [], elseStart⟩) ::
          (branch.code ++ [ifEnd l]), test.issues ++ branch.issues⟩ := by
  obtain ⟨issues, hc⟩ := evaluateCondition_eq condition m
  rw [flatten, Step.bind_apply, hc]
  dsimp only
  cases condition.holds m with
  | true =>
    simp only [if_true]
    rw [Step.emit_bind, Step.emit_bind, Step.bind_emit]
    rfl
  | false =>
    simp only [Bool.false_eq_true, if_false]
    rw [Step.emit_bind, Step.emit_bind, Step.bind_emit]
    rfl

theorem flattenAll_append (ss ss' : List Statement) :
    flattenAll (ss ++ ss') = flattenAll ss >>= fun _ => flattenAll ss' := by
  induction ss with
  | nil => rfl
  | cons s ss ih => rw [List.cons_append, flattenAll, flattenAll, ih, Step.bind_assoc]

end Statement

end ArmLang
