import ArmLang.Proofs.Interpreter.Basic
import ArmLang.Proofs.Program.Shape
import ArmLang.Proofs.Store.Trace

namespace ArmLang

theorem Value.dataType_stored? {v w : Value} {type : DataType} (h : v.stored? type = some w) :
    w.dataType = type := by
  unfold stored? at h
  split at h
  · next u hu =>
    cases h
    exact Value.dataType_convert? hu
  · split at h
    · cases h
    · cases h
      exact Value.dataType_zero type

namespace Store

def environment (s : Store) : Environment := s.value?

theorem dataType?_replace (s : Store) (name other : String) (v : Value) :
    (s.replace name v).dataType? other = s.dataType? other := by
  unfold dataType?
  rw [find?_replace]
  split
  · rw [Option.map_map]
    rfl
  · rfl

theorem environment_replace {s : Store} {name : String} {type : DataType}
    (h : s.dataType? name = some type) (v : Value) :
    (s.replace name v).environment = s.environment.set name v := by
  obtain ⟨x, hx, -⟩ := Option.map_eq_some_iff.1 h
  funext other
  unfold environment value? Environment.set
  rw [find?_replace]
  by_cases hn : name = other
  · subst hn
    simp [hx]
  · simp [hn]

theorem environment_declare {type : DataType} {v : Value} (h : v.dataType = type) (s : Store)
    (name : String) : (s.declare name type v).environment = s.environment.set name v := by
  funext other
  unfold environment value? Environment.set
  rw [find?_declare]
  by_cases hn : name = other
  · simp [hn, h]
  · simp [hn]

theorem assign?_of_dataType {s : Store} {name : String} {v : Value}
    (h : s.dataType? name = some v.dataType) : s.assign? name v = some (s.replace name v) := by
  obtain ⟨x, hx, ht⟩ := Option.map_eq_some_iff.1 h
  unfold assign?
  rw [hx]
  exact if_pos ht

theorem dataType?_performAll_assign {s : Store} {ops : List Operation}
    (h : ∀ op ∈ ops, ∃ name v, op = .assign name v) (other : String) :
    (s.performAll ops).dataType? other = s.dataType? other := by
  induction ops generalizing s with
  | nil => rfl
  | cons op ops ih =>
    obtain ⟨name, v, rfl⟩ := h op List.mem_cons_self
    rw [performAll_cons, ih fun op hop => h op (List.mem_cons_of_mem _ hop), perform]
    unfold assign?
    split
    · split
      · exact dataType?_replace ..
      · rfl
    · rfl

end Store

namespace Expr

theorem operations_assign (e : Expr) (s : Store) :
    ∀ op ∈ e.operations s, ∃ name v, op = .assign name v := by
  induction e generalizing s with
  | literal v l => simp [operations]
  | var name l => simp [operations]
  | unary op e l ih => exact ih s
  | binary op a b l iha ihb =>
    intro op h
    rcases List.mem_append.1 h with h | h
    · exact iha s op h
    · exact ihb _ op h
  | assign target e l _ ih =>
    intro op h
    unfold operations at h
    split at h
    · cases h
    · split at h
      · cases h
      · next name _ _ type _ =>
        rcases List.mem_append.1 h with h | h
        · exact ih s op h
        · obtain ⟨w, -, rfl⟩ := List.mem_map.1 h
          exact ⟨name, w, rfl⟩

theorem dataType?_evaluate (e : Expr) (s : Store) (name : String) :
    (e.evaluate s).state.dataType? name = s.dataType? name := by
  rw [← performAll_operations]
  exact Store.dataType?_performAll_assign (e.operations_assign s) name

theorem consistent_evaluate {s : Store} (h : s.Consistent) (e : Expr) :
    (e.evaluate s).state.Consistent := by
  rw [← performAll_operations]
  exact h.performAll _

theorem interpret_environment {s : Store} (h : s.Consistent) (e : Expr) :
    e.interpret s.environment = ((e.evaluate s).value, (e.evaluate s).state.environment) := by
  induction e generalizing s with
  | literal v l => rfl
  | var name l =>
    obtain ⟨issues, he⟩ := evaluate_var name l s
    rw [he]
    rfl
  | unary op e l ih =>
    obtain ⟨issues, he⟩ := evaluate_unary op e l s
    rw [he, interpret, ih h]
  | binary op a b l iha ihb =>
    obtain ⟨issues, he⟩ := evaluate_binary op a b l s
    rw [he, interpret, iha h, ihb (consistent_evaluate h a)]
  | assign target e l _ ih =>
    rw [interpret]
    cases ht : target.varName? with
    | none =>
      obtain ⟨issues, he⟩ := evaluate_assign_no_variable ht e l s
      rw [he]
    | some name =>
      have htype := h.dataType?_eq name
      cases hv : s.value? name with
      | none =>
        rw [hv] at htype
        obtain ⟨issues, he⟩ := evaluate_assign_undeclared ht htype e l
        simp only [show s.environment name = none from hv, he]
      | some old =>
        rw [hv] at htype
        simp only [show s.environment name = some old from hv, ih h]
        have htype' := (e.dataType?_evaluate s name).trans htype
        cases hw : (e.evaluate s).value.stored? old.dataType with
        | none =>
          obtain ⟨issues, he⟩ := assignValue_kept hw name target.location e.location
            (e.evaluate s).state
          rw [evaluate_assign ht htype, Step.bind_apply, he]
        | some w =>
          obtain ⟨issues, he⟩ := assignValue_stored hw name target.location e.location
            (e.evaluate s).state
          rw [Option.map_some, ← Value.dataType_stored? hw] at htype'
          rw [evaluate_assign ht htype, Step.bind_apply, he,
            Store.assign?_of_dataType htype', Option.getD_some,
            Store.environment_replace htype']

end Expr

end ArmLang
