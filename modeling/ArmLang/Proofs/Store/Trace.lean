import ArmLang.Proofs.Flattening
import ArmLang.Proofs.Store.Operation

namespace ArmLang

namespace Expr

def operations : Expr → Store → List Store.Operation
  | literal _ _, _ | var _ _, _ => []
  | unary _ e _, s => e.operations s
  | binary _ a b _, s => a.operations s ++ b.operations (a.evaluate s).state
  | assign target e _, s =>
    match target.varName? with
    | none => []
    | some name => match s.dataType? name with
      | none => []
      | some type =>
        e.operations s ++
          ((e.evaluate s).value.stored? type).toList.map (Store.Operation.assign name)

theorem performAll_operations (e : Expr) (s : Store) :
    s.performAll (e.operations s) = (e.evaluate s).state := by
  induction e generalizing s with
  | literal v l => rfl
  | var name l =>
    obtain ⟨issues, h⟩ := evaluate_var name l s
    rw [h]
    rfl
  | unary op e l ih =>
    obtain ⟨issues, h⟩ := evaluate_unary op e l s
    rw [h]
    exact ih s
  | binary op a b l iha ihb =>
    obtain ⟨issues, h⟩ := evaluate_binary op a b l s
    rw [h, operations, Store.performAll_append, iha, ihb]
  | assign target e l _ ih =>
    cases ht : target.varName? with
    | none =>
      obtain ⟨issues, h⟩ := evaluate_assign_no_variable ht e l s
      rw [h, operations, ht]
      rfl
    | some name => cases hs : s.dataType? name with
      | none =>
        obtain ⟨issues, h⟩ := evaluate_assign_undeclared ht hs e l
        rw [h, operations, ht]
        dsimp only
        rw [hs]
        rfl
      | some type =>
        rw [evaluate_assign ht hs, Step.state_bind, operations, ht]
        dsimp only
        rw [hs]
        dsimp only
        rw [Store.performAll_append, ih]
        cases hv : (e.evaluate s).value.stored? type with
        | none =>
          obtain ⟨issues, h⟩ := assignValue_kept hv name target.location e.location
            (e.evaluate s).state
          rw [h]
          rfl
        | some w =>
          obtain ⟨issues, h⟩ := assignValue_stored hv name target.location e.location
            (e.evaluate s).state
          rw [h]
          rfl

def operationsAll : List Expr → Memory → List Store.Operation
  | [], _ => []
  | e :: es, m => e.operations m.store ++ operationsAll es (e.remember m).state

theorem performAll_operationsAll (es : List Expr) (m : Memory) :
    m.store.performAll (operationsAll es m) = (rememberAll es m).store := by
  induction es generalizing m with
  | nil => rfl
  | cons e es ih =>
    rw [operationsAll, Store.performAll_append, performAll_operations]
    exact ih (e.remember m).state

end Expr

namespace Statement

def fieldOperations (target field : String) (x : Option Float) : List Store.Operation :=
  x.toList.map (Store.Operation.setField target field)

theorem performAll_fieldOperations (m : Memory) (target field : String) (x : Option Float) :
    m.store.performAll (fieldOperations target field x) = (m.setField target field x).store := by
  cases x with
  | none => rfl
  | some x => rfl

mutual

def operations : Statement → Memory → List Store.Operation
  | block _ body, m | routine _ _ body _, m => operationsAll body m
  | motion _ target args _, m =>
    if (goal? m.store target).isSome then Expr.operationsAll (evaluated args) m else []
  | declare type name init _, m =>
    Expr.operationsAll init.toList m ++ [.declare name type (initialValue type name init m).value]
  | declareFields type name fields _, m =>
    Expr.operationsAll (fields.map (·.2)) m ++
      [.declare name type.dataType (setFields type type.dataType.zero fields m).value]
  | setField target field value _, m =>
    if (fieldType? m.store target).isSome then
      value.operations m.store ++ fieldOperations target field (value.remember m).value.number?
    else []
  | ifThen condition _ body _, m =>
    condition.operations m.store ++
      if condition.holds m then operationsAll body (condition.remember m).state else []
  | ifElse condition _ body _ elseBody _, m =>
    condition.operations m.store ++
      if condition.holds m then operationsAll body (condition.remember m).state
      else operationsAll elseBody (condition.remember m).state
  | wait _ _, _ => []
  | evaluate e, m => e.operations m.store

def operationsAll : List Statement → Memory → List Store.Operation
  | [], _ => []
  | s :: ss, m => operations s m ++ operationsAll ss (flatten s m).state

end

mutual

theorem performAll_operations (s : Statement) (m : Memory) :
    m.store.performAll (operations s m) = (flatten s m).state.store := by
  match s with
  | block _ body => exact performAll_operationsAll body m
  | routine _ _ body _ => exact performAll_operationsAll body m
  | motion command target args l =>
    cases hg : goal? m.store target with
    | none =>
      obtain ⟨issues, h⟩ := flattenMotion_no_goal hg command args l
      rw [operations, flatten, h, hg]
      rfl
    | some goal =>
      rw [operations, flatten, flattenMotion_goal hg, hg, Step.bind_emit, evaluateArgs_state]
      exact Expr.performAll_operationsAll ..
  | declare type name init l =>
    rw [operations, Store.performAll_append, Expr.performAll_operationsAll,
      ← initialValue_state type name]
    rfl
  | declareFields type name fields l =>
    rw [operations, Store.performAll_append, Expr.performAll_operationsAll,
      ← setFields_state type type.dataType.zero]
    rfl
  | setField target field value l =>
    cases ht : fieldType? m.store target with
    | none =>
      obtain ⟨issues, h⟩ := flattenSetField_scalar ht field value l
      rw [operations, flatten, h, ht]
      rfl
    | some type =>
      obtain ⟨issues, h⟩ := flattenSetField_compound ht field value l
      rw [operations, flatten, h, ht]
      simp only [Option.isSome_some, if_true]
      rw [Store.performAll_append, Expr.performAll_operations, ← performAll_fieldOperations]
      rfl
  | ifThen condition start body l =>
    obtain ⟨issues, hc⟩ := evaluateCondition_eq condition m
    rw [operations, Store.performAll_append, Expr.performAll_operations, flatten_ifThen, hc]
    cases condition.holds m with
    | true => exact performAll_operationsAll body (condition.remember m).state
    | false => rfl
  | ifElse condition start body elseStart elseBody l =>
    obtain ⟨issues, hc⟩ := evaluateCondition_eq condition m
    rw [operations, Store.performAll_append, Expr.performAll_operations, flatten_ifElse, hc]
    cases condition.holds m with
    | true => exact performAll_operationsAll body (condition.remember m).state
    | false => exact performAll_operationsAll elseBody (condition.remember m).state
  | wait seconds l => rfl
  | evaluate e => exact Expr.performAll_operations e m.store

theorem performAll_operationsAll (ss : List Statement) (m : Memory) :
    m.store.performAll (operationsAll ss m) = (flattenAll ss m).state.store := by
  match ss with
  | [] => rfl
  | s :: ss =>
    rw [operationsAll, Store.performAll_append, performAll_operations, flattenAll, Step.state_bind]
    exact performAll_operationsAll ss _

end

end Statement

/-- What flattening a program does to the store it finds: it clears the store first. -/
def Program.operations (p : Program) : List Store.Operation :=
  .clear :: Statement.operationsAll p.body {}

/-- Flattening changes the store by operations alone, at every node of a tree and from every store
that operations lead to, so the declared types hold at every point of it. -/
theorem declared_types_hold (before : List Store.Operation) :
    let s := Store.empty.performAll before
    s.Consistent ∧
      (∀ e : Expr, s.performAll (e.operations s) = (e.evaluate s).state) ∧
      (∀ st m, m.store = s →
        s.performAll (Statement.operations st m) = (Statement.flatten st m).state.store) ∧
      ∀ p : Program, s.performAll p.operations = p.flatten.state.store ∧
        ∀ ops, ops <+: p.operations → (s.performAll ops).Consistent := by
  intro s
  have hs : s.Consistent := Store.consistent_empty.performAll before
  refine ⟨hs, ?_, ?_, ?_⟩
  · intro e
    exact e.performAll_operations s
  · intro st m hm
    rw [← hm]
    exact Statement.performAll_operations st m
  · intro p
    constructor
    · exact Statement.performAll_operationsAll p.body {}
    · intro ops _
      exact hs.performAll ops

end ArmLang
