import ArmLang.Proofs.Walk.Expr

namespace ArmLang.Tape

open Statement

variable {x : Tape}

theorem agrees_reader_peekNext {n : Nat} {w : Walk α} {g : Option Token → Reader α}
    (h : x.Agrees n w (g x.front[n + 1]?)) : x.Agrees n w (Reader.peekNext >>= g) := by
  apply h.of_reading
  unfold reading
  rw [Reader.peekNext_bind, List.tail_drop, List.head?_drop]

theorem agrees_here {n : Nat} {f : Token → Walk α} {g : Location → Reader α}
    (h : x.Agrees n (f (x.look n)) (g (x.look n).location)) :
    x.Agrees n (Walk.peek >>= f) (Reader.here >>= g) := by
  apply agrees_of_le
  intro hn
  apply agrees_peek.look
  apply h.of_reading
  unfold reading
  rw [Reader.here_bind, nextLocation_drop hn]

theorem agrees_fields (type : Compound) (n : Nat) :
    x.Agrees n (Walk.fields type) (fieldsReader type) := by
  rw [Walk.fields, Walk.fieldsRule, fieldsReader_eq]
  apply agrees_expect_bind (by decide)
  intro field hfield _
  have hlt := lt_of_front hfield
  split
  · exact agrees_failAt _ _
  · apply (agrees_expression (n + 1)).bind
    intro e _
    apply Agrees.bind
    · rw [moreFieldsReader_eq]
      apply agrees_accept_bind
      · intro comma hcomma _
        have hlt' := lt_of_front hcomma
        exact agrees_fields type _
      · exact agrees_pure []
    · intro more _
      exact agrees_pure _
termination_by x.last - n

theorem agrees_closableFields (type : Compound) (n : Nat) :
    x.Agrees n (do if (← Walk.peek).kind = .rightBrace then return [] else Walk.fields type)
      (closableFields type) := by
  apply agrees_reader_peek
  apply agrees_peek.look
  apply agrees_cases
  · intro t ht
    have hbrace : x.front[n]?.any (·.kind = .rightBrace) = decide (t.kind = .rightBrace) := by
      rw [ht]
      rfl
    rw [look_of_front ht, hbrace]
    simp only [decide_eq_true_eq]
    split
    · exact agrees_pure []
    · exact agrees_fields type n
  · intro hlast hnone
    rw [hnone, hlast, look_last, if_neg (by simp [x.ends])]
    exact agrees_fields type x.last

theorem agrees_compound (type : Compound) (n : Nat) :
    x.Agrees n (Walk.compound type) (readCompound type) := by
  rw [readCompound_eq]
  apply agrees_accept_bind
  · intro _ _ _
    apply agrees_expect_bind (by decide)
    intro _ _ _
    apply (agrees_closableFields type _).bind
    intro fields _
    apply agrees_expect_bind (by decide)
    intro _ _ _
    exact agrees_pure fields
  · exact agrees_pure []

theorem agrees_compoundDeclaration (type : Compound) (start : Location) (n : Nat) :
    x.Agrees n (Walk.compoundDeclaration type start) (readCompoundDeclaration type start) := by
  apply agrees_expect_bind (by decide)
  intro name _ _
  apply (agrees_compound type _).bind
  intro fields _
  exact (agrees_acceptOrNote _ _).map _

theorem agrees_scalarDeclaration (type : DataType) (start : Location) (n : Nat) :
    x.Agrees n (Walk.scalarDeclaration type start) (readScalarDeclaration type start) := by
  apply agrees_expect_bind (by decide)
  intro name _ _
  have hrest (init : Option Expr) (m : Nat) : x.Agrees m
      (do
        Walk.acceptOrNote .lineEnd .noLineEndAfterVariable
        return Statement.declare type name.text init start)
      (do
        Reader.acceptOrNote .lineEnd .noLineEndAfterVariable
        return Statement.declare type name.text init start) :=
    (agrees_acceptOrNote _ _).map _
  apply agrees_accept_bind
  · intro _ _ _
    apply ((agrees_expression _).map some).bind
    intro init _
    exact hrest init _
  · apply (agrees_pure none).bind
    intro init _
    exact hrest init _

theorem agrees_variableDeclaration {n : Nat} {t : Token} (ht : x.front[n]? = some t) :
    x.Agrees (n + 1) Walk.variableDeclaration (readDeclaration t.location) := by
  rw [readDeclaration_eq]
  apply (agrees_previous ht).look
  apply agrees_reader_peek
  apply agrees_peek.look
  apply agrees_cases
  · intro k hk
    rw [look_of_front hk, hk]
    obtain ⟨kind, text, l⟩ := k
    cases kind with
    | keyword w =>
      cases w with
      | type type =>
        apply (agrees_advance hk).then
        cases type.compound? with
        | some c => exact agrees_compoundDeclaration c t.location _
        | none => exact agrees_scalarDeclaration type t.location _
      | _ => exact agrees_failHere _
    | _ => exact agrees_failHere _
  · intro hlast hnone
    rw [hnone, hlast, look_last, x.ends]
    exact agrees_failHere _

theorem agrees_motion (word : Token) (n : Nat) :
    x.Agrees n (Walk.motion word) (readMotion word.kind.name word.location) := by
  apply agrees_expect_bind (by decide)
  intro target _ _
  exact agrees_pure _

theorem agrees_memberAssignment {n : Nat} {t d : Token} (ht : x.front[n]? = some t)
    (hd : x.front[n + 1]? = some d) :
    x.Agrees n Walk.memberAssignment
      (Reader.skip >>= fun _ => Reader.skip >>= fun _ => readSetField t) := by
  apply (agrees_advance ht).then
  apply (agrees_advance hd).then
  apply agrees_expect_bind (by decide)
  intro field _ _
  split
  · exact (agrees_failAt _ _).of_reading rfl
  · apply agrees_expect_bind (by decide)
    intro _ _ _
    apply (agrees_expression _).bind
    intro value _
    exact agrees_pure _

theorem agrees_waitStatement {n : Nat} {t : Token} (ht : x.front[n]? = some t) :
    x.Agrees (n + 1) Walk.waitStatement (readWait t.location) := by
  apply (agrees_previous ht).look
  apply agrees_expect_bind (by decide)
  intro _ _ _
  rw [readSeconds_eq, Reader.bind_assoc]
  apply agrees_reader_peek
  apply agrees_peek.look
  apply agrees_cases
  · intro time htime
    rw [look_of_front htime, htime]
    dsimp only
    split
    · cases Number.real? time.text with
      | some seconds =>
        dsimp only
        rw [Reader.bind_assoc, Reader.pure_bind]
        apply (agrees_advance htime).then
        apply agrees_expect_bind (by decide)
        intro _ _ _
        exact agrees_pure _
      | none => exact (agrees_failHere _).of_reading rfl
    · exact (agrees_failHere _).of_reading rfl
  · intro hlast hnone
    rw [hnone, hlast, look_last, if_neg (by simp [x.ends])]
    exact (agrees_failHere _).of_reading rfl

theorem agrees_expressionStatement (n : Nat) :
    x.Agrees n Walk.expressionStatement readEvaluation := by
  apply (agrees_expression n).bind
  intro e _
  apply agrees_accept_bind
  · intro _ _ _
    exact agrees_pure _
  · exact agrees_pure _

theorem agrees_routineHead (n : Nat) : x.Agrees n Walk.routineHead readRoutineHead := by
  apply agrees_expect_bind (by decide)
  intro name _ _
  apply agrees_expect_bind (by decide)
  intro _ _ _
  apply agrees_expect_bind (by decide)
  intro _ _ _
  exact agrees_pure _

theorem agrees_condition (n : Nat) : x.Agrees n Walk.condition readCondition := by
  apply (agrees_expression n).bind
  intro e _
  apply agrees_expect_bind (by decide)
  intro _ _ _
  apply agrees_expect_bind (by decide)
  intro _ _ _
  exact agrees_pure _

theorem agrees_elseHead (n : Nat) : x.Agrees n Walk.elseHead readElse := by
  apply agrees_accept_bind
  · intro _ _ _
    apply agrees_expect_bind (by decide)
    intro _ _ _
    exact agrees_pure true
  · exact agrees_pure false

end ArmLang.Tape
