import ArmLang.Proofs.Evaluation
import ArmLang.Proofs.Instruction.Session

namespace ArmLang

namespace Expr

def AssignmentFree : Expr → Prop
  | literal _ _ | var _ _ => True
  | unary _ e _ => e.AssignmentFree
  | binary _ a b _ => a.AssignmentFree ∧ b.AssignmentFree
  | assign _ _ _ => False

def varNames : Expr → List String
  | literal _ _ => []
  | var name _ => [name]
  | unary _ e _ => e.varNames
  | binary _ a b _ | assign a b _ => a.varNames ++ b.varNames

/-- What an expression without assignments comes to is settled by its variables, and the store is
left alone. -/
theorem evaluate_settled {e : Expr} (h : e.AssignmentFree) (s : Store) :
    ∃ v issues, ∀ t : Store, (∀ name ∈ e.varNames, t.value? name = s.value? name) →
      e.evaluate t = ⟨v, t, [], issues⟩ := by
  induction e with
  | literal v l => exact ⟨v, [], fun t _ => rfl⟩
  | var name l =>
    cases hs : s.value? name with
    | none =>
      refine ⟨.real 0.0, [⟨.undefinedVariable name, l⟩], ?_⟩
      intro t ht
      rw [evaluate, Step.get_bind, ht name List.mem_cons_self, hs]
      rfl
    | some v =>
      refine ⟨v, [], ?_⟩
      intro t ht
      rw [evaluate, Step.get_bind, ht name List.mem_cons_self, hs]
      rfl
  | unary op e l ih =>
    obtain ⟨v, issues, he⟩ := ih h
    obtain ⟨issues', hop⟩ := evaluateUnary_tells (σ := Store) op v e.location
    refine ⟨op.result v, issues ++ issues', ?_⟩
    intro t ht
    rw [evaluate, Step.bind_apply, he t ht, hop t]
    rfl
  | binary op a b l iha ihb =>
    obtain ⟨v, left, ha⟩ := iha h.1
    obtain ⟨w, right, hb⟩ := ihb h.2
    obtain ⟨issues, hop⟩ := evaluateBinary_tells (σ := Store) op v w a.location b.location l
    refine ⟨op.result v w, left ++ (right ++ issues), ?_⟩
    intro t ht
    rw [varNames, List.forall_mem_append] at ht
    rw [evaluate, Step.bind_apply, Step.bind_apply, ha t ht.1, hb t ht.2, hop t]
    rfl
  | assign => exact h.elim

end Expr

namespace Session

/-- An expression without assignments only reads. There is one value and one list of problems that
it comes to in every session where its variables hold the same values or are undeclared alike; the
value becomes the last one, the problems are added to those that are pending, and nothing else in
the session changes. -/
theorem evaluate_reads_only {e : Expr} (h : e.AssignmentFree) (s : Session) :
    ∃ v issues, ∀ t : Session,
      (∀ name ∈ e.varNames, t.memory.store.value? name = s.memory.store.value? name) →
        evaluate e t =
          (v, { t with
            memory := { t.memory with last := v }, pending := t.pending ++ issues }) := by
  obtain ⟨v, issues, hv⟩ := e.evaluate_settled h s.memory.store
  refine ⟨v, issues, ?_⟩
  intro t ht
  have hfollows := (follows_evaluate e).agrees t
  have hlast := last_evaluate e t
  obtain ⟨hvalue, hstore, hcode, hpending⟩ := hfollows
  rw [hv t.memory.store ht] at hvalue hstore hcode hpending
  rw [List.append_nil] at hcode
  generalize evaluate e t = r at *
  obtain ⟨value, code, ⟨store, last⟩, pending⟩ := r
  cases hvalue
  cases hstore
  cases hcode
  cases hpending
  cases hlast
  rfl

/-- `NOT c / (n - u)` with a text in `c`, zero in `n` and no variable `u`: the text has no number,
`u` is undefined, and zero is divided by, also in a session that knows an `x` and was used
before. -/
theorem evaluate_reads_only_quotient :
    let e := Expr.binary .divide (.unary .not (.var "c" ⟨2, 5⟩) ⟨2, 1⟩)
      (.binary .subtract (.var "n" ⟨2, 10⟩) (.var "u" ⟨2, 14⟩) ⟨2, 10⟩) ⟨2, 1⟩
    let known : List Symbol := [⟨"c", .char, .char "on"⟩, ⟨"n", .int, .int 0⟩]
    let fresh : Session := { memory := { store := ⟨known⟩ } }
    let used : Session :=
      ⟨[⟨"WAIT", [], none⟩], ⟨⟨⟨"x", .real, .real 2.5⟩ :: known⟩, .int 5⟩,
        [⟨.undefinedVariable "y", ⟨1, 1⟩⟩]⟩
    let issues : List (Issue SemanticError) :=
      [⟨.notNumeric .char, ⟨2, 5⟩⟩, ⟨.undefinedVariable "u", ⟨2, 14⟩⟩, ⟨.divisionByZero, ⟨2, 1⟩⟩]
    e.AssignmentFree ∧
      (∀ name ∈ e.varNames, used.memory.store.value? name = fresh.memory.store.value? name) ∧
      evaluate e used =
        (.real 0.0, { used with
          memory := { used.memory with last := .real 0.0 },
          pending := used.pending ++ issues }) := by
  intro e known fresh used issues
  have h : e.AssignmentFree := ⟨trivial, trivial, trivial⟩
  have hagree : ∀ name ∈ e.varNames,
      used.memory.store.value? name = fresh.memory.store.value? name := by decide
  obtain ⟨v, found, hv⟩ := evaluate_reads_only h fresh
  have hvalue : (evaluate e fresh).1 = .real 0.0 := by decide +kernel
  have hfound : (evaluate e fresh).2.pending = issues := by decide +kernel
  rw [hv fresh fun _ _ => rfl] at hvalue hfound
  subst hvalue
  rw [← hfound]
  exact ⟨h, hagree, hv used hagree⟩

end Session

end ArmLang
