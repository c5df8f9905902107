import ArmLang.Proofs.Walk.Agreement

namespace ArmLang

theorem Tier.operator?_eq (t : Tier) (k : Kind) :
    t.operator? k = if t.operatorKinds.contains k then BinaryOp.ofKind? k else none := by
  cases t <;> cases k <;> rfl

theorem Tier.isSome_ofKind? (t : Tier) : ∀ k ∈ t.operatorKinds, (BinaryOp.ofKind? k).isSome := by
  cases t <;> decide

theorem Expr.prefixOp?_eq (k : Kind) :
    prefixOp? k =
      if k = .minus || k = .not then some (if k = .minus then .negate else .not) else none := by
  cases k <;> rfl

namespace Tape

variable {x : Tape}

mutual

theorem agrees_expression (n : Nat) : x.Agrees n Walk.expression Expr.reader := by
  rw [Walk.expression, Walk.expressionRule, Expr.reader_eq]
  apply (agrees_level .disjunction n).bind
  intro target _
  rw [Expr.assignedReader_eq]
  apply agrees_reader_peek
  generalize hm : n + (x.reading (Expr.tierReader .disjunction) n).used = m
  rcases x.taken_or_left m (· = .assign) with ⟨t, ht, hk⟩ | hleft
  · have hlt := lt_of_front ht
    rw [ht]
    dsimp only
    rw [if_pos (of_decide_eq_true hk)]
    apply agrees_taken ht hk
    apply (agrees_expression (m + 1)).bind
    intro value _
    cases target.varName? with
    | some name => exact agrees_pure _
    | none =>
      apply (agrees_noteAt .badTarget t.location).bind
      intro _ _
      exact agrees_pure target
  · apply agrees_left hleft
    cases ht : x.front[m]? with
    | none => exact agrees_pure target
    | some t =>
      dsimp only
      rw [if_neg (of_decide_eq_false (hleft t ht))]
      exact agrees_pure target
termination_by 20 * (x.last - n) + 16
decreasing_by
  · simp [Tier.height]
  · omega

theorem agrees_level (t : Tier) (n : Nat) : x.Agrees n (Walk.level t) (Expr.tierReader t) := by
  rw [Walk.level, Walk.levelRule, Expr.tierReader_eq]
  apply (agrees_operand t n).bind
  intro left _
  exact agrees_chain t left _
termination_by 20 * (x.last - n) + 2 * t.height + 5
decreasing_by all_goals omega

theorem agrees_chain (t : Tier) (left : Expr) (n : Nat) :
    x.Agrees n (Walk.chain t left) (Expr.chainReader t left) := by
  rw [Walk.chain, Walk.chainRule, Expr.chainReader_eq]
  apply agrees_reader_peek
  rcases x.taken_or_left n t.operatorKinds.contains with ⟨o, ho, hk⟩ | hleft
  · have hlt := lt_of_front ho
    have hsome := t.isSome_ofKind? o.kind (List.contains_iff_mem.1 hk)
    obtain ⟨op, hop⟩ := Option.isSome_iff_exists.1 hsome
    rw [ho]
    dsimp only
    rw [Tier.operator?_eq, if_pos hk, hop]
    apply agrees_taken ho hk
    apply (agrees_operand t (n + 1)).bind
    intro right _
    rw [hop]
    exact agrees_chain t _ _
  · apply agrees_left hleft
    cases ho : x.front[n]? with
    | none => exact agrees_pure left
    | some o =>
      dsimp only
      rw [Tier.operator?_eq, hleft o ho]
      exact agrees_pure left
termination_by 20 * (x.last - n)
decreasing_by
  · have := t.height_le
    omega
  · omega

theorem agrees_operand (t : Tier) (n : Nat) :
    x.Agrees n (Walk.operand t) (Expr.operandReader t) := by
  rw [Expr.operandReader_eq]
  cases t with
  | product =>
    rw [Walk.operand, Walk.operandRule, if_pos rfl]
    exact agrees_unary n
  | _ =>
    rw [Walk.operand, Walk.operandRule, if_neg (by decide)]
    exact agrees_level _ n
termination_by 20 * (x.last - n) + 2 * t.height + 4
decreasing_by all_goals simp [Tier.height, Tier.next]

theorem agrees_unary (n : Nat) : x.Agrees n Walk.unary Expr.unaryReader := by
  rw [Walk.unary, Walk.unaryRule, Expr.unaryReader_eq]
  apply agrees_reader_peek
  rcases x.taken_or_left n (fun k => k = .minus || k = .not) with ⟨o, ho, hk⟩ | hleft
  · have hlt := lt_of_front ho
    rw [ho]
    dsimp only
    rw [Expr.prefixOp?_eq, if_pos hk]
    apply agrees_taken ho hk
    apply (agrees_unary (n + 1)).bind
    intro e _
    exact agrees_pure _
  · apply agrees_left hleft
    cases ho : x.front[n]? with
    | none => exact agrees_primary n
    | some o =>
      dsimp only
      rw [Expr.prefixOp?_eq, hleft o ho]
      exact agrees_primary n
termination_by 20 * (x.last - n) + 2

theorem agrees_primary (n : Nat) : x.Agrees n Walk.primary Expr.primaryReader := by
  rw [Walk.primary, Walk.primaryRule, Expr.primaryReader_eq]
  apply agrees_reader_peek
  apply agrees_peek.look
  apply agrees_cases
  · intro t ht
    have hlt := lt_of_front ht
    rw [look_of_front ht, ht]
    dsimp only
    split
    · apply (agrees_advance ht).then
      apply (agrees_expression (n + 1)).bind
      intro e _
      exact (agrees_acceptOrNote .rightParen .noClosing).map _
    · cases Expr.ofToken t with
      | ok e =>
        apply (agrees_advance ht).then
        exact agrees_pure e
      | error e => exact agrees_failHere e
  · intro hlast hnone
    have hmark : Expr.ofToken x.mark = .error (.noExpression .fileEnd) := by
      unfold Expr.ofToken Expr.found
      rw [x.ends]
    rw [hnone, hlast, look_last, hmark, if_neg (by simp [x.ends])]
    exact agrees_failHere _
termination_by 20 * (x.last - n) + 1

end

end Tape

end ArmLang
