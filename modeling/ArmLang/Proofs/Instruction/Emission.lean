import ArmLang.Proofs.Flattening
import Mathlib.Data.List.Basic

namespace ArmLang

namespace Expr

def IsAssignment (i : Instruction) : Prop := ∃ name w l, i = assignment name w l

theorem evaluate_assigns (e : Expr) (s : Store) : ∀ i ∈ (e.evaluate s).code, IsAssignment i := by
  induction e generalizing s with
  | literal v l => exact List.forall_mem_nil _
  | var name l =>
    obtain ⟨issues, he⟩ := evaluate_var name l s
    rw [he]
    exact List.forall_mem_nil _
  | unary op e l ih =>
    obtain ⟨issues, he⟩ := evaluate_unary op e l s
    rw [he]
    exact ih s
  | binary op a b l iha ihb =>
    obtain ⟨issues, he⟩ := evaluate_binary op a b l s
    rw [he]
    exact List.forall_mem_append.2 ⟨iha s, ihb _⟩
  | assign target e l _ ih =>
    cases ht : target.varName? with
    | none =>
      obtain ⟨issues, he⟩ := evaluate_assign_no_variable ht e l s
      rw [he]
      exact List.forall_mem_nil _
    | some name => cases hs : s.dataType? name with
      | none =>
        obtain ⟨issues, he⟩ := evaluate_assign_undeclared ht hs e l
        rw [he]
        exact List.forall_mem_nil _
      | some type =>
        rw [evaluate_assign ht hs, Step.code_bind, List.forall_mem_append]
        refine ⟨ih s, ?_⟩
        cases hw : (e.evaluate s).value.stored? type with
        | none =>
          obtain ⟨issues, he⟩ := assignValue_kept hw name target.location e.location
            (e.evaluate s).state
          rw [he]
          exact List.forall_mem_nil _
        | some w =>
          obtain ⟨issues, he⟩ := assignValue_stored hw name target.location e.location
            (e.evaluate s).state
          rw [he]
          exact List.forall_mem_singleton.2 ⟨name, w, target.location, rfl⟩

end Expr

namespace Statement

open ArmLang.Expr (IsAssignment)

theorem initialValue_assigns (type : DataType) (name : String) (init : Option Expr) (m : Memory) :
    ∀ i ∈ (initialValue type name init m).code, IsAssignment i := by
  cases init with
  | none => exact List.forall_mem_nil _
  | some e =>
    rw [initialValue, Step.code_bind, List.forall_mem_append]
    refine ⟨e.evaluate_assigns m.store, ?_⟩
    cases (e.remember m).value.convert type with
    | ok w => exact List.forall_mem_nil _
    | error err => exact List.forall_mem_nil _

theorem setFields_assigns (type : Compound) (v : Value) (fields : List (String × Expr))
    (m : Memory) : ∀ i ∈ (setFields type v fields m).code, IsAssignment i := by
  induction fields generalizing v m with
  | nil => exact List.forall_mem_nil _
  | cons f fields ih =>
    obtain ⟨field, e⟩ := f
    obtain ⟨issues, hn⟩ := Expr.number_gives (e.remember m).value e.location (e.remember m).state
    rw [setFields, Step.code_bind, List.forall_mem_append]
    refine ⟨e.evaluate_assigns m.store, ?_⟩
    rw [Step.code_bind, hn]
    dsimp only
    cases (e.remember m).value.number? with
    | none => exact ih v _
    | some x =>
      dsimp only
      cases v.setField? field x with
      | none => exact ih v _
      | some w => exact ih w _

theorem flattenSetField_assigns (target field : String) (value : Expr) (l : Location)
    (m : Memory) : ∀ i ∈ (flattenSetField target field value l m).code, IsAssignment i := by
  cases ht : fieldType? m.store target with
  | none =>
    obtain ⟨issues, he⟩ := flattenSetField_scalar ht field value l
    rw [he]
    exact List.forall_mem_nil _
  | some type =>
    obtain ⟨issues, he⟩ := flattenSetField_compound ht field value l
    rw [he]
    exact value.evaluate_assigns m.store

/-- A motion on a variable emits at most itself, with the place that its target holds. -/
theorem flattenMotion_emits (command target name var : String) (place l : Location) (m : Memory) :
    ∀ i ∈ (flattenMotion command target [(name, .var var place)] l m).code,
      ∃ v goal, motionTarget? v = some goal ∧ i = ⟨command, [(name, .char var), goal], l⟩ := by
  cases hg : goal? m.store target with
  | none =>
    obtain ⟨issues, he⟩ := flattenMotion_no_goal hg command [(name, .var var place)] l
    rw [he]
    exact List.forall_mem_nil _
  | some goal =>
    obtain ⟨v, -, hv⟩ := Option.bind_eq_some_iff.1 hg
    rw [flattenMotion_goal hg]
    exact List.forall_mem_singleton.2 ⟨v, goal, hv, rfl⟩

end Statement

namespace Instruction

/-- What flattening can emit for a program that was read, the marks of conditionals left out. -/
inductive Emitted : Instruction → Prop
  | assignment (name : String) (w : Value) (l : Location) : Emitted (Expr.assignment name w l)
  | declaration (name : String) (type : DataType) (v : Value) (l : Location) :
    Emitted ⟨"DECL_" ++ name, [("type", .char type.keyword), ("value", v)], l⟩
  | fields (type : Compound) (name : String) (v : Value) (l : Location) :
    Emitted ⟨type.declaration.1, [("name", .char name), (type.declaration.2, v)], l⟩
  | motion (path : Path) (relative : Bool) (target : String) (l : Location) {v : Value}
      {goal : String × Value} : Statement.motionTarget? v = some goal →
    Emitted ⟨(Keyword.motion path relative).text, [("position", .char target), goal], l⟩
  | wait (seconds : Float) (l : Location) :
    Emitted ⟨"WAIT", [(durationKey, .real seconds)], l⟩

end Instruction

end ArmLang
