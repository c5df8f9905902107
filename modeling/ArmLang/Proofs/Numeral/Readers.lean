import ArmLang.Proofs.Numeral.Provenance

namespace ArmLang

variable {stop : Location}

namespace Expr

open Reader

theorem primaryReader_token {t : Token} (hparen : t.kind ≠ .leftParen) (stop : Location)
    (s : List Token) :
    primaryReader stop (t :: s) =
      match ofToken t with
      | .ok e => ⟨.ok e, 1, []⟩
      | .error e => .failure e t.location := by
  refine (readPrimary.eq_def stop (t :: s)).trans ?_
  exact if_neg hparen

theorem accounts_token {t : Token} (hparen : t.kind ≠ .leftParen) (s : List Token) :
    Accounts primaryReader stop (t :: s) := by
  have htoken := primaryReader_token hparen stop s
  cases he : ofToken t with
  | ok e =>
    rw [he] at htoken
    exact accounts_of_ok htoken
  | error e =>
    rw [he] at htoken
    exact accounts_of_origin htoken (.operand .self he)

mutual

theorem accounts_reader (s : List Token) : Accounts reader stop s := by
  rw [reader_eq]
  apply (accounts_tier .disjunction s).bind
  intro target n
  exact accounts_assigned target (s.drop n)
termination_by 20 * s.length + 16
decreasing_by
  · simp [Tier.height]
  · simp only [List.length_drop]
    omega

theorem accounts_assigned (target : Expr) (s : List Token) :
    Accounts (assignedReader target) stop s := by
  rw [assignedReader_eq]
  apply accounts_peek_bind
  match s with
  | [] => exact accounts_pure _
  | t :: s =>
    apply accounts_ite
    · intro _
      apply accounts_skip_bind
      apply (accounts_reader s).bind
      intro e n
      cases target.varName? with
      | some name => exact accounts_pure _
      | none => exact (accounts_noteAt rfl _).map _
    · exact fun _ => accounts_pure _
termination_by 20 * s.length

theorem accounts_tier (t : Tier) (s : List Token) : Accounts (tierReader t) stop s := by
  rw [tierReader_eq]
  apply (accounts_operand t s).bind
  intro left n
  exact accounts_chain t left (s.drop n)
termination_by 20 * s.length + 2 * t.height + 5
decreasing_by
  · omega
  · simp only [List.length_drop]
    omega

theorem accounts_chain (t : Tier) (left : Expr) (s : List Token) :
    Accounts (chainReader t left) stop s := by
  rw [chainReader_eq]
  apply accounts_peek_bind
  match s with
  | [] => exact accounts_pure _
  | o :: s =>
    dsimp only [List.head?_cons]
    cases t.operator? o.kind with
    | none => exact accounts_pure _
    | some op =>
      apply accounts_skip_bind
      apply (accounts_operand t s).bind
      intro right n
      exact accounts_chain t _ (s.drop n)
termination_by 20 * s.length
decreasing_by
  · have := t.height_le
    simp only [List.length_cons]
    omega
  · simp only [List.length_cons, List.length_drop]
    omega

theorem accounts_operand (t : Tier) (s : List Token) : Accounts (operandReader t) stop s := by
  rw [operandReader_eq]
  cases t with
  | product => exact accounts_unary s
  | _ => exact accounts_tier _ s
termination_by 20 * s.length + 2 * t.height + 4
decreasing_by all_goals simp [Tier.height]

theorem accounts_unary (s : List Token) : Accounts unaryReader stop s := by
  rw [unaryReader_eq]
  apply accounts_peek_bind
  match s with
  | [] => exact accounts_primary []
  | t :: s =>
    dsimp only [List.head?_cons]
    cases prefixOp? t.kind with
    | none => exact accounts_primary (t :: s)
    | some op =>
      apply accounts_skip_bind
      exact (accounts_unary s).map _
termination_by 20 * s.length + 2

theorem accounts_primary (s : List Token) : Accounts primaryReader stop s := by
  match s with
  | [] =>
    rw [primaryReader_eq]
    exact accounts_peek_bind (accounts_fail rfl)
  | t :: s =>
    by_cases hparen : t.kind = .leftParen
    · rw [primaryReader_eq]
      apply accounts_peek_bind
      dsimp only [List.head?_cons]
      rw [if_pos hparen]
      apply accounts_skip_bind
      apply (accounts_reader s).bind
      intro e n
      exact (accounts_acceptOrNote _ rfl).map _
    · exact accounts_token hparen s
termination_by 20 * s.length + 1

end

end Expr

namespace Statement

open Reader

mutual

theorem accounts_fields (type : Compound) (s : List Token) :
    Accounts (fieldsReader type) stop s := by
  rw [fieldsReader_eq]
  apply accounts_expect_bind rfl
  intro name l hl
  apply accounts_ite
  · exact fun _ => accounts_failAt rfl _
  · intro _
    apply (Expr.accounts_reader l).bind
    intro e n
    exact (accounts_moreFields type (l.drop n)).map _
termination_by 2 * s.length
decreasing_by
  simp only [hl, List.length_drop, List.length_cons]
  omega

theorem accounts_moreFields (type : Compound) (s : List Token) :
    Accounts (moreFieldsReader type) stop s := by
  rw [moreFieldsReader_eq]
  apply accounts_accept_bind
  · intro c l hl
    exact accounts_fields type l
  · exact accounts_pure _
termination_by 2 * s.length + 1
decreasing_by
  simp only [hl, List.length_cons]
  omega

end

theorem accounts_closableFields (type : Compound) (s : List Token) :
    Accounts (closableFields type) stop s := by
  apply accounts_peek_bind
  apply accounts_ite
  · exact fun _ => accounts_pure _
  · exact fun _ => accounts_fields type s

theorem accounts_compound (type : Compound) (s : List Token) :
    Accounts (readCompound type) stop s := by
  rw [readCompound_eq]
  apply accounts_accept_bind
  · intro _ l _
    apply accounts_expect_bind rfl
    intro _ l' _
    apply (accounts_closableFields type l').bind
    intro fields n
    exact (accounts_expect _ rfl).map _
  · exact accounts_pure _

theorem accounts_compoundDeclaration (type : Compound) (start : Location) (s : List Token) :
    Accounts (readCompoundDeclaration type start) stop s := by
  apply accounts_expect_bind rfl
  intro name l _
  apply (accounts_compound type l).bind
  intro fields n
  exact (accounts_acceptOrNote _ rfl).map _

theorem accounts_scalarDeclaration (type : DataType) (start : Location) (s : List Token) :
    Accounts (readScalarDeclaration type start) stop s := by
  apply accounts_expect_bind rfl
  intro name l _
  have hrest (init : Option Expr) (l : List Token) : Accounts
      (do
        acceptOrNote .lineEnd .noLineEndAfterVariable
        return declare type name.text init start) stop l :=
    (accounts_acceptOrNote _ rfl).map _
  apply accounts_accept_bind
  · intro _ l' _
    have hinit : Accounts (some <$> Expr.reader) stop l' := (Expr.accounts_reader l').map _
    exact hinit.bind fun init n => hrest init _
  · exact (accounts_pure _).bind fun init n => hrest init _

theorem accounts_declaration (start : Location) (s : List Token) :
    Accounts (readDeclaration start) stop s := by
  rw [readDeclaration_eq]
  apply accounts_peek_bind
  match s with
  | [] => exact accounts_fail rfl
  | t :: s =>
    obtain ⟨kind, text, l⟩ := t
    cases kind with
    | keyword w =>
      cases w with
      | type type =>
        apply accounts_skip_bind
        cases type.compound? with
        | some c => exact accounts_compoundDeclaration c start s
        | none => exact accounts_scalarDeclaration type start s
      | _ => exact accounts_fail rfl
    | _ => exact accounts_fail rfl

theorem accounts_motion (command : String) (start : Location) (s : List Token) :
    Accounts (readMotion command start) stop s :=
  (accounts_expect _ rfl).map _

theorem accounts_setField (target : Token) (s : List Token) :
    Accounts (readSetField target) stop s := by
  apply accounts_expect_bind rfl
  intro field l _
  have hvalue (l : List Token) : Accounts
      (do
        let _ ← expect .assign .noMemberAssignment
        let value ← Expr.reader
        return setField target.text field.text value target.location) stop l := by
    apply accounts_expect_bind rfl
    intro _ l' _
    exact (Expr.accounts_reader l').map _
  apply accounts_ite
  · exact fun _ => (accounts_failAt rfl _).bind fun _ _ => hvalue _
  · exact fun _ => hvalue l

theorem accounts_seconds (s : List Token) : Accounts readSeconds stop s := by
  match s with
  | [] => exact accounts_of_quiet (Reading.quiet_failure rfl _)
  | t :: s =>
    by_cases hkind : t.kind = .integer ∨ t.kind = .real
    · cases hx : Number.real? t.text with
      | some x =>
        have hnumber : readSeconds stop (t :: s) = ⟨.ok x, 1, []⟩ := by
          unfold readSeconds
          dsimp only
          rw [if_pos hkind, hx]
        exact accounts_of_ok hnumber
      | none =>
        have hrefused : readSeconds stop (t :: s) = .failure .badWaitTime t.location := by
          unfold readSeconds
          dsimp only
          rw [if_pos hkind, hx]
        exact accounts_of_origin hrefused (.seconds .self hkind hx)
    · have hother : readSeconds stop (t :: s) = .failure .noWaitTime t.location := if_neg hkind
      apply accounts_of_quiet
      rw [hother]
      exact Reading.quiet_failure rfl _

theorem accounts_wait (start : Location) (s : List Token) :
    Accounts (readWait start) stop s := by
  apply accounts_expect_bind rfl
  intro _ l _
  apply (accounts_seconds l).bind
  intro seconds n
  exact (accounts_expect _ rfl).map _

theorem accounts_evaluation (s : List Token) : Accounts readEvaluation stop s := by
  apply (Expr.accounts_reader s).bind
  intro e n
  exact (accounts_accept _).map _

theorem accounts_routineHead (s : List Token) : Accounts readRoutineHead stop s := by
  apply accounts_expect_bind rfl
  intro name l _
  apply accounts_expect_bind rfl
  intro _ l' _
  exact (accounts_expect _ rfl).map _

theorem accounts_condition (s : List Token) : Accounts readCondition stop s := by
  apply (Expr.accounts_reader s).bind
  intro condition n
  apply accounts_expect_bind rfl
  intro _ l _
  exact (accounts_expect _ rfl).map _

theorem accounts_else (s : List Token) : Accounts readElse stop s := by
  apply accounts_accept_bind
  · exact fun _ l _ => (accounts_expect _ rfl).map _
  · exact accounts_pure _

mutual

theorem accounts_body (nested : Bool) (s : List Token) :
    Accounts (bodyReader nested) stop s := by
  rw [bodyReader_eq]
  apply accounts_peek_bind
  match s with
  | [] => exact accounts_pure _
  | t :: s =>
    dsimp only [List.head?_cons]
    apply accounts_ite
    · exact fun _ => accounts_pure _
    · intro _
      apply (accounts_item t s).round.bind_of_ok
      intro o n noted hround
      -- A round uses up a token, so that what is left of the body is shorter.
      obtain ⟨_, _, _, hpos, h⟩ := exists_round stop t s
      cases h.symm.trans hround
      exact (accounts_body nested _).map _
termination_by 3 * s.length + 1
decreasing_by
  · simp only [List.length_cons]
    omega
  · simp only [List.length_cons, List.length_drop]
    omega

theorem accounts_item (t : Token) (s : List Token) : Accounts itemReader stop (t :: s) := by
  rw [itemReader_eq]
  apply accounts_peek_bind
  obtain ⟨kind, text, l⟩ := t
  cases kind with
  | keyword w =>
    cases w with
    | defWord => exact accounts_skip_bind _ ((accounts_routine l s).map _)
    | decl => exact accounts_skip_bind _ ((accounts_declaration l s).map _)
    | motion => exact accounts_skip_bind _ ((accounts_motion _ l s).map _)
    | ifWord => exact accounts_skip_bind _ ((accounts_conditional l s).map _)
    | wait => exact accounts_skip_bind _ ((accounts_wait l s).map _)
    | returnWord => exact accounts_skip_bind _ (accounts_pure _)
    | _ => exact (accounts_evaluation _).map _
  | lineEnd => exact accounts_skip_bind _ (accounts_pure _)
  | identifier =>
    apply accounts_peekNext_bind
    match s with
    | [] => exact (accounts_evaluation _).map _
    | d :: s =>
      obtain ⟨kind', text', l'⟩ := d
      cases kind' with
      | dot => exact accounts_skip_bind _ (accounts_skip_bind _ ((accounts_setField _ s).map _))
      | _ => exact (accounts_evaluation _).map _
  | _ => exact (accounts_evaluation _).map _
termination_by 3 * s.length + 3

theorem accounts_routine (start : Location) (s : List Token) :
    Accounts (routineReader start) stop s := by
  rw [routineReader_eq]
  apply (accounts_routineHead s).bind
  intro name n
  apply accounts_here.bind
  intro l m
  apply (accounts_body true _).bind
  intro body k
  exact (accounts_expect _ rfl).map _
termination_by 3 * s.length + 2
decreasing_by
  simp only [List.length_drop]
  omega

theorem accounts_conditional (start : Location) (s : List Token) :
    Accounts (conditionalReader start) stop s := by
  rw [conditionalReader_eq]
  apply (accounts_condition s).bind
  intro condition n
  apply accounts_here.bind
  intro l m
  apply (accounts_body true _).bind
  intro yes k
  apply (accounts_else _).bind
  intro more i
  cases more with
  | true =>
    apply accounts_here.bind
    intro l' j
    apply (accounts_body true _).bind
    intro no h
    exact (accounts_expect _ rfl).map _
  | false => exact (accounts_expect _ rfl).map _
termination_by 3 * s.length + 2
decreasing_by
  all_goals
    simp only [List.length_drop]
    omega

end

end Statement

end ArmLang
