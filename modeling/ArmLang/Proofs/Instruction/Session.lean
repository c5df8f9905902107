import ArmLang.Instruction.Session

namespace ArmLang.Session

/-- From a session, `m` does in place what the step `f` does to the part of the memory that it
knows: it has the same value, leaves the same part behind, and adds the same instructions and
problems. -/
structure Agrees (view : Memory → σ) (s : Session) (m : SessionM α) (f : Step σ α) : Prop where
  value : (m s).1 = (f (view s.memory)).value
  memory : view (m s).2.memory = (f (view s.memory)).state
  code : (m s).2.code = s.code ++ (f (view s.memory)).code
  pending : (m s).2.pending = s.pending ++ (f (view s.memory)).issues

/-- What a session holds apart from that part of the memory makes no difference to what `m` does. -/
structure Follows (view : Memory → σ) (m : SessionM α) (f : Step σ α) : Prop where
  agrees : ∀ s, Agrees view s m f

variable {view : Memory → σ}

theorem Follows.pure (a : α) : Follows view (Pure.pure a) (Pure.pure a) :=
  ⟨fun s => ⟨rfl, rfl, (List.append_nil s.code).symm, (List.append_nil s.pending).symm⟩⟩

theorem Agrees.bind {s : Session} {m : SessionM α} {f : Step σ α} {g : α → SessionM β}
    {k : α → Step σ β} (h : Agrees view s m f) (hg : ∀ a, Follows view (g a) (k a)) :
    Agrees view s (m >>= g) (f >>= k) := by
  have hk := (hg (m s).1).agrees (m s).2
  rw [h.value] at hk
  have happly : (m >>= g) s = g (f (view s.memory)).value (m s).2 := h.value ▸ rfl
  refine ⟨?_, ?_, ?_, ?_⟩
  · rw [happly, hk.value, h.memory, Step.bind_apply]
  · rw [happly, hk.memory, h.memory, Step.bind_apply]
  · rw [happly, hk.code, h.memory, h.code, List.append_assoc, Step.bind_apply]
  · rw [happly, hk.pending, h.memory, h.pending, List.append_assoc, Step.bind_apply]

theorem Follows.bind {m : SessionM α} {f : Step σ α} {g : α → SessionM β} {k : α → Step σ β}
    (h : Follows view m f) (hg : ∀ a, Follows view (g a) (k a)) :
    Follows view (m >>= g) (f >>= k) :=
  ⟨fun s => (h.agrees s).bind hg⟩

theorem follows_emit (i : Instruction) : Follows view (emit i) (Step.emit i) :=
  ⟨fun s => ⟨rfl, rfl, rfl, (List.append_nil s.pending).symm⟩⟩

theorem follows_report (e : SemanticError) (l : Location) :
    Follows view (report e l) (Step.note e l) :=
  ⟨fun s => ⟨rfl, rfl, (List.append_nil s.code).symm, rfl⟩⟩

theorem follows_number (v : Value) (l : Location) :
    Follows view (number v l) (Expr.number v l) := by
  unfold number Expr.number
  dsimp only
  split
  · exact (follows_report ..).bind fun _ => .pure _
  · exact .pure _

theorem follows_applyUnary (op : UnaryOp) (v : Value) (l : Location) :
    Follows view (applyUnary op v l) (Expr.evaluateUnary op v l) := by
  cases op with
  | not => exact (follows_number ..).bind fun _ => .pure _
  | negate =>
    cases v with
    | int n => exact .pure _
    | _ => exact (follows_number ..).bind fun _ => .pure _

theorem follows_applyBinary (op : BinaryOp) (v w : Value) (vl wl l : Location) :
    Follows view (applyBinary op v vl w wl l) (Expr.evaluateBinary op v vl w wl l) := by
  refine (follows_number ..).bind fun x => (follows_number ..).bind fun y => ?_
  cases x with
  | none => exact .pure _
  | some a =>
    cases y with
    | none => exact .pure _
    | some b =>
      dsimp only
      cases op.apply? a b with
      | none => exact (follows_report ..).bind fun _ => .pure _
      | some c => exact .pure _

section Variables

/-! An expression knows the variables only. -/

theorem follows_store : Follows Memory.store store Step.get :=
  ⟨fun s => ⟨rfl, rfl, (List.append_nil s.code).symm, (List.append_nil s.pending).symm⟩⟩

theorem follows_setStore (t : Store) : Follows Memory.store (setStore t) (Step.put t) :=
  ⟨fun s => ⟨rfl, rfl, (List.append_nil s.code).symm, (List.append_nil s.pending).symm⟩⟩

theorem follows_write (name : String) (v : Value) (l : Location) :
    Follows Memory.store (write name v l) (do
      let t ← Step.get
      Step.put ((t.assign? name v).getD t)
      Step.emit ⟨"ASSIGN_" ++ name, [("variable", .char name), ("value", v)], l⟩
      return v) :=
  follows_store.bind fun _ => (follows_setStore _).bind fun _ =>
    (follows_emit _).bind fun _ => .pure _

theorem follows_assign (name : String) (type : DataType) (v : Value) (target value : Location) :
    Follows Memory.store (assign name type v target value)
      (Expr.assignValue name type v target value) := by
  unfold assign Expr.assignValue
  cases v.convert type with
  | ok w => exact follows_write name w target
  | error e =>
    dsimp only
    refine (follows_report ..).bind fun _ => ?_
    cases type.isStructured with
    | true => exact .pure _
    | false => exact follows_write name type.zero target

theorem Follows.recorded {m : SessionM Value} {f : Step Store Value}
    (h : Follows Memory.store m f) : Follows Memory.store (recorded m) f :=
  ⟨fun s => ⟨(h.agrees s).value, (h.agrees s).memory, (h.agrees s).code, (h.agrees s).pending⟩⟩

theorem follows_evaluate (e : Expr) : Follows Memory.store (evaluate e) e.evaluate := by
  induction e with
  | literal v _ => exact (Follows.pure v).recorded
  | var name l =>
    refine (follows_store.bind fun t => ?_).recorded
    cases t.value? name with
    | none => exact (follows_report ..).bind fun _ => .pure _
    | some v => exact .pure v
  | unary op e _ ih => exact (ih.bind fun v => follows_applyUnary op v e.location).recorded
  | binary op a b l iha ihb =>
    exact (iha.bind fun v => ihb.bind fun w => follows_applyBinary op v w ..).recorded
  | assign target e _ _ ih =>
    rw [evaluate, Expr.evaluate]
    apply Follows.recorded
    cases target.varName? with
    | none => exact (follows_report ..).bind fun _ => .pure _
    | some name =>
      refine follows_store.bind fun t => ?_
      cases t.dataType? name with
      | none => exact (follows_report ..).bind fun _ => .pure _
      | some type => exact ih.bind fun v => follows_assign name type v ..

theorem last_evaluate (e : Expr) (s : Session) :
    (evaluate e s).2.memory.last = (evaluate e s).1 := by
  cases e <;> rfl

end Variables

section Memory

/-! A statement knows all of the memory. -/

theorem follows_remember (e : Expr) : Follows id (evaluate e) e.remember := by
  refine ⟨fun s => ?_⟩
  have h := (follows_evaluate e).agrees s
  refine ⟨h.value, ?_, h.code, h.pending⟩
  have hlast := (last_evaluate e s).trans h.value
  exact congr (congrArg Memory.mk h.memory) hlast

theorem Follows.get {g : Store → SessionM α} {k : Memory → Step Memory α}
    (h : ∀ s, Agrees id s (g s.memory.store) (k s.memory)) :
    Follows id (store >>= g) (Step.get >>= k) :=
  ⟨fun s => ⟨(h s).value, (h s).memory, (h s).code, (h s).pending⟩⟩

theorem agrees_setStore (s : Session) (t : Store) :
    Agrees id s (setStore t) (Step.put { s.memory with store := t }) :=
  ⟨rfl, rfl, (List.append_nil s.code).symm, (List.append_nil s.pending).symm⟩

theorem follows_declareVariable (name : String) (type : DataType) (v : Value) :
    Follows id (declareVariable name type v) (Statement.declareVariable name type v) :=
  Follows.get fun s => agrees_setStore s _

theorem follows_initialValue (type : DataType) (name : String) (init : Option Expr) :
    Follows id (initialValue type name init) (Statement.initialValue type name init) := by
  cases init with
  | none => exact .pure _
  | some e =>
    refine (follows_remember e).bind fun v => ?_
    cases v.convert type with
    | ok w => exact .pure w
    | error err => exact (follows_report ..).bind fun _ => .pure _

theorem follows_setFields (type : Compound) (v : Value) (fields : List (String × Expr)) :
    Follows id (setFields type v fields) (Statement.setFields type v fields) := by
  induction fields generalizing v with
  | nil => exact .pure v
  | cons field fields ih =>
    obtain ⟨field, e⟩ := field
    refine (follows_remember e).bind fun w => (follows_number ..).bind fun x => ?_
    cases x with
    | none => exact ih v
    | some x =>
      dsimp only
      cases v.setField? field x with
      | none => exact (follows_report ..).bind fun _ => ih v
      | some w => exact ih w

theorem follows_setField (target field : String) (value : Expr) (l : Location) :
    Follows id (setField target field value l)
      (Statement.flattenSetField target field value l) := by
  refine Follows.get fun s => ?_
  cases s.memory.store.dataType? target with
  | none => exact (follows_report ..).agrees s
  | some type =>
    dsimp only
    split
    · exact (follows_report ..).agrees s
    · refine ((follows_remember value).agrees s).bind fun v => (follows_number ..).bind fun x => ?_
      cases x with
      | none => exact .pure _
      | some x =>
        refine Follows.get fun s => ?_
        cases s.memory.store.setField? target field x with
        | none => exact (follows_report ..).agrees s
        | some t => exact agrees_setStore s t

theorem follows_evaluateArgs (args : List (String × Expr)) :
    Follows id (evaluateArgs args) (Statement.evaluateArgs args) := by
  induction args with
  | nil => exact .pure _
  | cons arg args ih =>
    obtain ⟨name, e⟩ := arg
    rw [evaluateArgs, Statement.evaluateArgs]
    cases e.varName? with
    | none => exact (follows_remember e).bind fun v => ih.bind fun vs => .pure _
    | some var => exact (Follows.pure _).bind fun v => ih.bind fun vs => .pure _

theorem follows_flattenMotion (command target : String) (args : List (String × Expr))
    (l : Location) :
    Follows id (flattenMotion command target args l)
      (Statement.flattenMotion command target args l) := by
  refine Follows.get fun s => ?_
  cases s.memory.store.find? target with
  | none => exact (follows_report ..).agrees s
  | some x =>
    dsimp only
    cases Statement.motionTarget? x.value with
    | none => exact (follows_report ..).agrees s
    | some goal => exact ((follows_evaluateArgs args).agrees s).bind fun vs => follows_emit _

theorem follows_evaluateCondition (condition : Expr) :
    Follows id (evaluateCondition condition) (Statement.evaluateCondition condition) :=
  (follows_remember condition).bind fun _ => (follows_number ..).bind fun _ => .pure _

mutual

theorem follows_flattenStatement (st : Statement) :
    Follows id (flattenStatement st) st.flatten := by
  match st with
  | .block _ body => exact follows_flattenAll body
  | .routine _ _ body _ => exact follows_flattenAll body
  | .motion command target args l => exact follows_flattenMotion command target args l
  | .declare type name init l =>
    exact (follows_initialValue type name init).bind fun v =>
      (follows_declareVariable name type v).bind fun _ => follows_emit _
  | .declareFields type name fields l =>
    exact (follows_setFields type _ fields).bind fun v =>
      (follows_declareVariable name _ v).bind fun _ => follows_emit _
  | .setField target field value l => exact follows_setField target field value l
  | .ifThen condition start body l =>
    refine (follows_evaluateCondition condition).bind fun taken =>
      (follows_emit _).bind fun _ => ?_
    cases taken with
    | true =>
      exact (follows_emit _).bind fun _ => (follows_flattenAll body).bind fun _ => follows_emit _
    | false => exact follows_emit _
  | .ifElse condition start body elseStart elseBody l =>
    refine (follows_evaluateCondition condition).bind fun taken =>
      (follows_emit _).bind fun _ => ?_
    cases taken with
    | true =>
      exact (follows_emit _).bind fun _ => (follows_flattenAll body).bind fun _ => follows_emit _
    | false =>
      exact (follows_emit _).bind fun _ =>
        (follows_flattenAll elseBody).bind fun _ => follows_emit _
  | .wait seconds l => exact follows_emit _
  | .evaluate e => exact (follows_remember e).bind fun _ => .pure _

theorem follows_flattenAll (sts : List Statement) :
    Follows id (flattenAll sts) (Statement.flattenAll sts) := by
  match sts with
  | [] => exact .pure _
  | st :: sts => exact (follows_flattenStatement st).bind fun _ => follows_flattenAll sts

end

end Memory

inductive Request
  | flatten (program : Option Program)
  | take

def perform (s : Session) : Request → Session
  | .flatten p => (s.flatten p).2
  | .take => s.take.2

def performAll (s : Session) (rs : List Request) : Session := rs.foldl perform s

theorem flatten_none (s : Session) : s.flatten none = ([], ⟨[], {}, s.pending⟩) := rfl

/-- A program leaves in a session what it leaves on its own, and adds its problems. -/
theorem flatten_some (s : Session) (p : Program) :
    s.flatten (some p) =
      (p.flatten.code, ⟨[], p.flatten.state, s.pending ++ p.flatten.issues⟩) := by
  have h := (follows_flattenAll p.body).agrees ⟨[], {}, s.pending⟩
  have hcode : (s.flatten (some p)).1 = p.flatten.code := h.code
  have hmemory : (s.flatten (some p)).2.memory = p.flatten.state := h.memory
  have hpending : (s.flatten (some p)).2.pending = s.pending ++ p.flatten.issues := h.pending
  rw [← hcode, ← hmemory, ← hpending]
  rfl

theorem flatten_eq_fresh (s : Session) (program : Option Program) :
    let fresh := ({} : Session).flatten program
    s.flatten program = (fresh.1, { fresh.2 with pending := s.pending ++ fresh.2.pending }) := by
  intro fresh
  cases program with
  | none => rw [flatten_none, show fresh = _ from flatten_none {}, List.append_nil]
  | some p => rw [flatten_some, show fresh = _ from flatten_some {} p, List.nil_append]

def outstanding (issues : List (Issue SemanticError)) : Request → List (Issue SemanticError)
  | .flatten p => issues ++ (({} : Session).flatten p).2.pending
  | .take => []

theorem pending_perform (s : Session) (r : Request) :
    (s.perform r).pending = outstanding s.pending r := by
  cases r with
  | flatten p => rw [perform, flatten_eq_fresh, outstanding]
  | take => rfl

/-- The problems of each program since they were last taken out, one after the other. -/
theorem pending_performAll (s : Session) (rs : List Request) :
    (s.performAll rs).pending = rs.foldl outstanding s.pending := by
  induction rs generalizing s with
  | nil => rfl
  | cons r rs ih =>
    rw [performAll, List.foldl_cons, List.foldl_cons, ← pending_perform]
    exact ih (s.perform r)

/-- A session that was used before, however long, does with the next program what a new one does:
the instructions are the same, and so are the variables and the last value that it leaves. The
problems of the program come after those that were there, which are those of the programs since the
problems were last taken out. -/
theorem flatten_performAll (rs : List Request) (program : Option Program) :
    let used := ({} : Session).performAll rs
    let fresh := ({} : Session).flatten program
    (used.flatten program).1 = fresh.1 ∧
      (used.flatten program).2.memory = fresh.2.memory ∧
      (used.flatten program).2.pending = used.pending ++ fresh.2.pending ∧
      used.pending = rs.foldl outstanding [] := by
  intro used fresh
  rw [flatten_eq_fresh used]
  exact ⟨rfl, rfl, rfl, pending_performAll {} rs⟩

end ArmLang.Session
