import ArmLang.Instruction.Flatten

namespace ArmLang

/-- What a variable of a type takes over from a value. A scalar takes its zero where there is no
conversion, and a compound variable nothing. -/
def Value.stored? (v : Value) (type : DataType) : Option Value :=
  match v.convert? type with
  | some w => some w
  | none => if type.isStructured then none else some type.zero

def UnaryOp.result (op : UnaryOp) (v : Value) : Value :=
  match op, v with
  | .negate, .int n => .int (-n)
  | .negate, v => .real (-(v.number?.getD 0.0))
  | .not, v => .real (Number.ofTruth (v.number?.getD 0.0 == 0.0))

def BinaryOp.result (op : BinaryOp) (v w : Value) : Value :=
  match v.number?, w.number? with
  | some a, some b => match op.apply? a b with
    | some c => .real c
    | none => .real 0.0
  | _, _ => .real 0.0

namespace Step

@[simp] theorem value_bind (m : Step σ α) (f : α → Step σ β) (s : σ) :
    ((m >>= f) s).value = (f (m s).value (m s).state).value := rfl

@[simp] theorem state_bind (m : Step σ α) (f : α → Step σ β) (s : σ) :
    ((m >>= f) s).state = (f (m s).value (m s).state).state := rfl

@[simp] theorem code_bind (m : Step σ α) (f : α → Step σ β) (s : σ) :
    ((m >>= f) s).code = (m s).code ++ (f (m s).value (m s).state).code := rfl

@[simp] theorem value_pure (a : α) (s : σ) : ((pure a : Step σ α) s).value = a := rfl

@[simp] theorem state_pure (a : α) (s : σ) : ((pure a : Step σ α) s).state = s := rfl

@[simp] theorem code_pure (a : α) (s : σ) : ((pure a : Step σ α) s).code = [] := rfl

@[simp] theorem issues_pure (a : α) (s : σ) : ((pure a : Step σ α) s).issues = [] := rfl

theorem emit_bind (i : Instruction) (f : Unit → Step σ β) (s : σ) :
    (emit i >>= f) s =
      ⟨(f () s).value, (f () s).state, i :: (f () s).code, (f () s).issues⟩ := rfl

theorem bind_emit (m : Step σ α) (i : α → Instruction) (s : σ) :
    (m >>= fun a => emit (i a)) s =
      ⟨(), (m s).state, (m s).code ++ [i (m s).value], (m s).issues⟩ := by
  rw [bind_apply]
  exact congrArg (Effect.mk _ _ _) (List.append_nil _)

theorem get_bind (f : σ → Step σ β) (s : σ) : (get >>= f) s = f s s := rfl

theorem bind_assoc (m : Step σ α) (f : α → Step σ β) (g : β → Step σ γ) :
    m >>= f >>= g = m >>= fun a => f a >>= g := by
  funext s
  simp only [bind_apply, List.append_assoc]

/-- The step has the value `a` and leaves the state alone; all that it adds is problems. -/
def Gives (m : Step σ α) (a : α) : Prop :=
  ∀ s, ∃ issues, m s = ⟨a, s, [], issues⟩

/-- The step has the value `a` and adds these problems, whatever the state, which it leaves alone. -/
def Tells (m : Step σ α) (a : α) (issues : List (Issue SemanticError)) : Prop :=
  ∀ s, m s = ⟨a, s, [], issues⟩

theorem tells_pure (a : α) : (pure a : Step σ α).Tells a [] := fun _ => rfl

theorem tells_note (e : SemanticError) (l : Location) :
    (note e l : Step σ Unit).Tells () [⟨e, l⟩] := fun _ => rfl

theorem Tells.bind {m : Step σ α} {f : α → Step σ β} {issues issues' : List (Issue SemanticError)}
    (hm : m.Tells a issues) (hf : (f a).Tells b issues') :
    (m >>= f).Tells b (issues ++ issues') := by
  intro s
  rw [bind_apply, hm, hf]
  rfl

theorem Tells.gives {m : Step σ α} {issues : List (Issue SemanticError)} (h : m.Tells a issues) :
    m.Gives a :=
  fun s => ⟨issues, h s⟩

end Step

namespace Expr

theorem number_tells (v : Value) (l : Location) :
    ∃ issues, (number v l : Step σ _).Tells v.number? issues := by
  unfold number
  dsimp only
  split
  · exact ⟨_, (Step.tells_note _ _).bind (Step.tells_pure _)⟩
  · exact ⟨_, Step.tells_pure _⟩

theorem number_gives (v : Value) (l : Location) : (number v l : Step σ _).Gives v.number? := by
  obtain ⟨issues, h⟩ := number_tells (σ := σ) v l
  exact h.gives

theorem evaluateUnary_tells (op : UnaryOp) (v : Value) (l : Location) :
    ∃ issues, (evaluateUnary op v l : Step σ _).Tells (op.result v) issues := by
  obtain ⟨issues, hv⟩ := number_tells (σ := σ) v l
  fun_cases UnaryOp.result op v with
  | case1 n => exact ⟨_, Step.tells_pure _⟩
  | case2 v hint =>
    rw [evaluateUnary]
    · exact ⟨_, hv.bind (Step.tells_pure _)⟩
    · exact hint
  | case3 v => exact ⟨_, hv.bind (Step.tells_pure _)⟩

theorem evaluateBinary_tells (op : BinaryOp) (v w : Value) (vl wl l : Location) :
    ∃ issues, (evaluateBinary op v vl w wl l : Step σ _).Tells (op.result v w) issues := by
  obtain ⟨left, hv⟩ := number_tells (σ := σ) v vl
  obtain ⟨right, hw⟩ := number_tells (σ := σ) w wl
  unfold evaluateBinary
  fun_cases BinaryOp.result op v w with
  | case1 a b ha hb c hc =>
    refine ⟨left ++ (right ++ []), hv.bind (hw.bind ?_)⟩
    rw [ha, hb]
    dsimp only
    rw [hc]
    exact Step.tells_pure _
  | case2 a b ha hb hc =>
    refine ⟨left ++ (right ++ [⟨.divisionByZero, l⟩]), hv.bind (hw.bind ?_)⟩
    rw [ha, hb]
    dsimp only
    rw [hc]
    exact (Step.tells_note _ _).bind (Step.tells_pure _)
  | case3 h =>
    refine ⟨left ++ (right ++ []), hv.bind (hw.bind ?_)⟩
    split
    · next ha hb => exact (h _ _ ha hb).elim
    · exact Step.tells_pure _

theorem evaluate_var (name : String) (l : Location) (s : Store) :
    ∃ issues, evaluate (.var name l) s = ⟨(s.value? name).getD (.real 0.0), s, [], issues⟩ := by
  rw [evaluate, Step.get_bind]
  cases s.value? name with
  | none => exact ⟨_, rfl⟩
  | some v => exact ⟨_, rfl⟩

theorem evaluate_unary (op : UnaryOp) (e : Expr) (l : Location) (s : Store) :
    ∃ issues, evaluate (.unary op e l) s =
      ⟨op.result (e.evaluate s).value, (e.evaluate s).state, (e.evaluate s).code, issues⟩ := by
  obtain ⟨issues, h⟩ := evaluateUnary_tells (σ := Store) op (e.evaluate s).value e.location
  refine ⟨(e.evaluate s).issues ++ issues, ?_⟩
  rw [evaluate, Step.bind_apply, h, List.append_nil]

theorem evaluate_binary (op : BinaryOp) (a b : Expr) (l : Location) (s : Store) :
    ∃ issues, evaluate (.binary op a b l) s =
      ⟨op.result (a.evaluate s).value (b.evaluate (a.evaluate s).state).value,
        (b.evaluate (a.evaluate s).state).state,
        (a.evaluate s).code ++ (b.evaluate (a.evaluate s).state).code, issues⟩ := by
  let r := a.evaluate s
  let r' := b.evaluate r.state
  obtain ⟨issues, h⟩ :=
    evaluateBinary_tells (σ := Store) op r.value r'.value a.location b.location l
  refine ⟨r.issues ++ (r'.issues ++ issues), ?_⟩
  rw [evaluate, Step.bind_apply, Step.bind_apply, h, List.append_nil]

def assignment (name : String) (w : Value) (l : Location) : Instruction :=
  ⟨"ASSIGN_" ++ name, [("variable", .char name), ("value", w)], l⟩

/-- Stores a value, if there is one, that has been converted to the type of its variable. -/
def storeConverted (name : String) (target : Location) : Option Value → Step Store Value
  | none => pure (.real 0.0)
  | some w => do
    let s ← Step.get
    Step.put ((s.assign? name w).getD s)
    Step.emit (assignment name w target)
    return w

theorem assignValue_eq (name : String) (type : DataType) (v : Value) (target value : Location) :
    assignValue name type v target value =
      match v.convert type with
      | .ok w => storeConverted name target (some w)
      | .error e => Step.note (.assignment e name) value >>= fun _ =>
        storeConverted name target (if type.isStructured then none else some type.zero) := by
  unfold assignValue
  cases v.convert type with
  | ok w => rfl
  | error e => cases type.isStructured <;> rfl

theorem assignValue_ok {v w : Value} {type : DataType} (h : v.convert type = .ok w) (name : String)
    (target value : Location) (s : Store) :
    assignValue name type v target value s =
      ⟨w, (s.assign? name w).getD s, [assignment name w target], []⟩ := by
  rw [assignValue_eq, h]
  rfl

theorem assignValue_error {v : Value} {type : DataType} {e : ConversionFailure}
    (h : v.convert type = .error e) (ht : type.isStructured = false) (name : String)
    (target value : Location) (s : Store) :
    assignValue name type v target value s =
      ⟨type.zero, (s.assign? name type.zero).getD s, [assignment name type.zero target],
        [⟨.assignment e name, value⟩]⟩ := by
  rw [assignValue_eq, h, ht]
  rfl

theorem assignValue_stored {v w : Value} {type : DataType} (h : v.stored? type = some w)
    (name : String) (target value : Location) (s : Store) :
    ∃ issues, assignValue name type v target value s =
      ⟨w, (s.assign? name w).getD s, [assignment name w target], issues⟩ := by
  unfold Value.stored? at h
  unfold assignValue Value.convert
  cases hc : v.convert? type with
  | some u =>
    rw [hc] at h
    cases h
    exact ⟨_, rfl⟩
  | none =>
    rw [hc] at h
    cases hs : type.isStructured with
    | true => simp [hs] at h
    | false =>
      simp only [hs, Bool.false_eq_true, if_false, Option.some.injEq] at h
      subst h
      exact ⟨_, rfl⟩

theorem assignValue_kept {v : Value} {type : DataType} (h : v.stored? type = none)
    (name : String) (target value : Location) (s : Store) :
    ∃ issues, assignValue name type v target value s = ⟨.real 0.0, s, [], issues⟩ := by
  unfold Value.stored? at h
  unfold assignValue Value.convert
  cases hc : v.convert? type with
  | some u => simp [hc] at h
  | none =>
    cases hs : type.isStructured with
    | true => exact ⟨_, rfl⟩
    | false => simp [hc, hs] at h

theorem evaluate_assign {target : Expr} {name : String} (ht : target.varName? = some name)
    {s : Store} {type : DataType} (hs : s.dataType? name = some type) (e : Expr) (l : Location) :
    evaluate (.assign target e l) s =
      (e.evaluate >>= fun v => assignValue name type v target.location e.location) s := by
  rw [evaluate, ht]
  dsimp only
  rw [Step.get_bind, hs]

theorem evaluate_assign_undeclared {target : Expr} {name : String}
    (ht : target.varName? = some name) {s : Store} (hs : s.dataType? name = none) (e : Expr)
    (l : Location) :
    ∃ issues, evaluate (.assign target e l) s = ⟨.real 0.0, s, [], issues⟩ := by
  rw [evaluate, ht]
  dsimp only
  rw [Step.get_bind, hs]
  exact ⟨_, rfl⟩

theorem evaluate_assign_no_variable {target : Expr} (ht : target.varName? = none) (e : Expr)
    (l : Location) (s : Store) :
    ∃ issues, evaluate (.assign target e l) s = ⟨.real 0.0, s, [], issues⟩ := by
  rw [evaluate, ht]
  exact ⟨_, rfl⟩

end Expr

end ArmLang
