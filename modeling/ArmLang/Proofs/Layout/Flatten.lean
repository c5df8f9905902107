import ArmLang.Proofs.Layout.Basic
import ArmLang.Proofs.Evaluation

namespace ArmLang

variable {f : Location → Location}

def Effect.relocate (f : Location → Location) (e : Effect σ α) : Effect σ α :=
  { e with code := e.code.map (Instruction.relocate f), issues := e.issues.map (Issue.relocate f) }

namespace Step

/-- `m'` does what `m` does, only that it is elsewhere. -/
def Moves (f : Location → Location) (m m' : Step σ α) : Prop := ∀ s, m' s = (m s).relocate f

theorem moves_pure (a : α) : Moves f (pure a : Step σ α) (pure a) := fun _ => rfl

theorem moves_get : Moves f (get : Step σ σ) get := fun _ => rfl

theorem moves_put (s : σ) : Moves f (put s) (put s) := fun _ => rfl

theorem moves_emit (i : Instruction) : Moves f (emit i : Step σ Unit) (emit (i.relocate f)) :=
  fun _ => rfl

theorem moves_note (e : SemanticError) (l : Location) :
    Moves f (note e l : Step σ Unit) (note e (f l)) :=
  fun _ => rfl

theorem Moves.bind {m m' : Step σ α} {k k' : α → Step σ β} (hm : Moves f m m')
    (hk : ∀ a, Moves f (k a) (k' a)) : Moves f (m >>= k) (m' >>= k') := by
  intro s
  rw [bind_apply, hm, bind_apply]
  unfold Effect.relocate
  dsimp only
  rw [hk, List.map_append, List.map_append]
  rfl

end Step

namespace Expr

open Step

theorem moves_number (v : Value) (l : Location) :
    Moves f (number v l : Step σ _) (number v (f l)) := by
  unfold number
  cases v.number? with
  | none => exact (moves_note _ _).bind fun _ => moves_pure _
  | some x => exact moves_pure _

theorem moves_evaluateUnary (op : UnaryOp) (v : Value) (l : Location) :
    Moves f (evaluateUnary op v l : Step σ _) (evaluateUnary op v (f l)) := by
  unfold evaluateUnary
  split
  · exact moves_pure _
  · exact (moves_number _ _).bind fun _ => moves_pure _
  · exact (moves_number _ _).bind fun _ => moves_pure _

theorem moves_evaluateBinary (op : BinaryOp) (v w : Value) (vl wl l : Location) :
    Moves f (evaluateBinary op v vl w wl l : Step σ _)
      (evaluateBinary op v (f vl) w (f wl) (f l)) := by
  apply (moves_number v vl).bind
  intro x
  apply (moves_number w wl).bind
  intro y
  split
  · split
    · exact moves_pure _
    · exact (moves_note _ _).bind fun _ => moves_pure _
  · exact moves_pure _

theorem moves_storeConverted (name : String) (target : Location) (stored : Option Value) :
    Moves f (storeConverted name target stored) (storeConverted name (f target) stored) := by
  cases stored with
  | none => exact moves_pure _
  | some w =>
    apply moves_get.bind
    intro s
    apply (moves_put _).bind
    intro _
    exact (moves_emit _).bind fun _ => moves_pure w

theorem moves_assignValue (name : String) (type : DataType) (v : Value)
    (target value : Location) :
    Moves f (assignValue name type v target value)
      (assignValue name type v (f target) (f value)) := by
  rw [assignValue_eq, assignValue_eq]
  cases v.convert type with
  | ok w => exact moves_storeConverted name target _
  | error e => exact (moves_note _ _).bind fun _ => moves_storeConverted name target _

theorem moves_evaluate (e : Expr) : Moves f e.evaluate (e.relocate f).evaluate := by
  induction e with
  | literal v l => exact moves_pure v
  | var name l =>
    apply moves_get.bind
    intro s
    cases s.value? name with
    | some v => exact moves_pure v
    | none => exact (moves_note _ _).bind fun _ => moves_pure _
  | unary op e l ih =>
    rw [relocate, evaluate, evaluate, location_relocate]
    exact ih.bind fun v => moves_evaluateUnary op v e.location
  | binary op a b l iha ihb =>
    rw [relocate, evaluate, evaluate, location_relocate, location_relocate]
    apply iha.bind
    intro v
    apply ihb.bind
    intro w
    exact moves_evaluateBinary op v w a.location b.location l
  | assign target e l iht ih =>
    rw [relocate, evaluate, evaluate, varName?_relocate, location_relocate, location_relocate]
    cases target.varName? with
    | none => exact (moves_note _ _).bind fun _ => moves_pure _
    | some name =>
      apply moves_get.bind
      intro s
      cases s.dataType? name with
      | none => exact (moves_note _ _).bind fun _ => moves_pure _
      | some type =>
        apply ih.bind
        intro v
        exact moves_assignValue name type v target.location e.location

theorem moves_remember (e : Expr) : Moves f e.remember (e.relocate f).remember := by
  intro m
  unfold remember
  rw [e.moves_evaluate m.store]
  rfl

end Expr

namespace Statement

open Step

theorem moves_declareVariable (name : String) (type : DataType) (v : Value) :
    Moves f (declareVariable name type v) (declareVariable name type v) :=
  moves_get.bind fun _ => moves_put _

theorem moves_initialValue (type : DataType) (name : String) (init : Option Expr) :
    Moves f (initialValue type name init)
      (initialValue type name (init.map (Expr.relocate f))) := by
  cases init with
  | none => exact moves_pure _
  | some e =>
    rw [Option.map_some, initialValue, initialValue, Expr.location_relocate]
    apply e.moves_remember.bind
    intro v
    cases v.convert type with
    | ok w => exact moves_pure w
    | error err => exact (moves_note _ _).bind fun _ => moves_pure _

theorem moves_setFields (type : Compound) (v : Value) (fields : List (String × Expr)) :
    Moves f (setFields type v fields) (setFields type v (relocateFields f fields)) := by
  induction fields generalizing v with
  | nil => exact moves_pure v
  | cons a fields ih =>
    obtain ⟨field, e⟩ := a
    change Moves f _ (setFields type v ((field, e.relocate f) :: relocateFields f fields))
    rw [setFields, setFields, Expr.location_relocate]
    apply e.moves_remember.bind
    intro w
    apply (Expr.moves_number w e.location).bind
    intro x
    cases x with
    | none => exact ih v
    | some x =>
      dsimp only
      cases v.setField? field x with
      | some w => exact ih w
      | none => exact (moves_note _ _).bind fun _ => ih v

theorem moves_flattenSetField (target field : String) (value : Expr) (l : Location) :
    Moves f (flattenSetField target field value l)
      (flattenSetField target field (value.relocate f) (f l)) := by
  unfold flattenSetField
  rw [Expr.location_relocate]
  apply moves_get.bind
  intro m
  cases m.store.dataType? target with
  | none => exact moves_note _ l
  | some type =>
    dsimp only
    split
    · exact moves_note _ l
    · apply value.moves_remember.bind
      intro w
      apply (Expr.moves_number w value.location).bind
      intro x
      cases x with
      | none => exact moves_pure ()
      | some x =>
        apply moves_get.bind
        intro m
        cases m.store.setField? target field x with
        | some s => exact moves_put _
        | none => exact moves_note _ l

theorem moves_evaluateArgs (args : List (String × Expr)) :
    Moves f (evaluateArgs args) (evaluateArgs (relocateFields f args)) := by
  induction args with
  | nil => exact moves_pure []
  | cons a args ih =>
    obtain ⟨name, e⟩ := a
    change Moves f _ (evaluateArgs ((name, e.relocate f) :: relocateFields f args))
    rw [evaluateArgs, evaluateArgs, Expr.varName?_relocate]
    have hargs (v : Value) := ih.bind fun vs => moves_pure ((name, v) :: vs)
    cases e.varName? with
    | some var => exact (moves_pure _).bind hargs
    | none => exact e.moves_remember.bind hargs

theorem moves_flattenMotion (command target : String) (args : List (String × Expr))
    (l : Location) :
    Moves f (flattenMotion command target args l)
      (flattenMotion command target (relocateFields f args) (f l)) := by
  apply moves_get.bind
  intro m
  cases m.store.find? target with
  | none => exact moves_note _ l
  | some x =>
    dsimp only
    cases motionTarget? x.value with
    | none => exact moves_note _ l
    | some goal => exact (moves_evaluateArgs args).bind fun others => moves_emit _

theorem moves_evaluateCondition (condition : Expr) :
    Moves f (evaluateCondition condition) (evaluateCondition (condition.relocate f)) := by
  unfold evaluateCondition
  rw [Expr.location_relocate]
  apply condition.moves_remember.bind
  intro v
  exact (Expr.moves_number v condition.location).bind fun x => moves_pure _

mutual

theorem moves_flatten (s : Statement) : Moves f (flatten s) (flatten (s.relocate f)) := by
  match s with
  | block start body => exact moves_flattenAll body
  | routine name start body l => exact moves_flattenAll body
  | motion command target args l => exact moves_flattenMotion command target args l
  | declare type name init l =>
    apply (moves_initialValue type name init).bind
    intro v
    exact (moves_declareVariable name type v).bind fun _ => moves_emit _
  | declareFields type name fields l =>
    apply (moves_setFields type _ fields).bind
    intro v
    exact (moves_declareVariable name type.dataType v).bind fun _ => moves_emit _
  | setField target field value l => exact moves_flattenSetField target field value l
  | ifThen condition start body l =>
    apply (moves_evaluateCondition condition).bind
    intro taken
    apply (moves_emit _).bind
    intro _
    cases taken with
    | true =>
      apply (moves_emit _).bind
      intro _
      exact (moves_flattenAll body).bind fun _ => moves_emit _
    | false => exact moves_emit _
  | ifElse condition start body elseStart elseBody l =>
    apply (moves_evaluateCondition condition).bind
    intro taken
    apply (moves_emit _).bind
    intro _
    cases taken with
    | true =>
      apply (moves_emit _).bind
      intro _
      exact (moves_flattenAll body).bind fun _ => moves_emit _
    | false =>
      apply (moves_emit _).bind
      intro _
      exact (moves_flattenAll elseBody).bind fun _ => moves_emit _
  | wait seconds l => exact moves_emit _
  | evaluate e => exact e.moves_remember.bind fun _ => moves_pure ()

theorem moves_flattenAll (ss : List Statement) :
    Moves f (flattenAll ss) (flattenAll (relocateAll f ss)) := by
  match ss with
  | [] => exact moves_pure ()
  | s :: ss => exact (moves_flatten s).bind fun _ => moves_flattenAll ss

end

end Statement

theorem Program.flatten_relocate (p : Program) : (p.relocate f).flatten = p.flatten.relocate f :=
  Statement.moves_flattenAll p.body {}

end ArmLang
