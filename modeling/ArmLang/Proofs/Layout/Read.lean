import ArmLang.Proofs.Layout.Reading
import ArmLang.Proofs.Program.Lines

namespace ArmLang

variable {f : Location → Location} {stop : Location}

namespace Expr

open Reader

theorem found_relocate (t : Token) : found (t.relocate f) = found t := rfl

theorem ofToken_relocate (t : Token) : ofToken (t.relocate f) = (ofToken t).map (relocate f) := by
  unfold ofToken
  rw [Token.kind_relocate, Token.text_relocate, Token.location_relocate, found_relocate]
  cases t.kind with
  | keyword w => cases w <;> rfl
  | integer => cases Number.integer? t.text <;> rfl
  | real => cases Number.real? t.text <;> rfl
  | _ => rfl

mutual

theorem moves_reader (s : List Token) : Moves f (relocate f) reader reader stop s := by
  rw [reader_eq]
  apply (moves_tier .disjunction s).bind
  intro target n
  exact moves_assigned target (s.drop n)
termination_by 20 * s.length + 16
decreasing_by
  · simp [Tier.height]
  · simp only [List.length_drop]
    omega

theorem moves_assigned (target : Expr) (s : List Token) :
    Moves f (relocate f) (assignedReader target) (assignedReader (target.relocate f)) stop s := by
  rw [assignedReader_eq, assignedReader_eq]
  apply moves_peek_bind
  match s with
  | [] => exact moves_pure rfl
  | t :: s =>
    dsimp only [List.head?_cons, Option.map_some, Token.kind_relocate, Token.location_relocate]
    rw [varName?_relocate, location_relocate]
    apply moves_ite
    · intro _
      apply moves_skip_bind
      apply (moves_reader s).bind
      intro e n
      cases target.varName? with
      | some name => exact moves_pure rfl
      | none =>
        apply (moves_noteAt _ _).bind
        intro _ n
        exact moves_pure rfl
    · exact fun _ => moves_pure rfl
termination_by 20 * s.length

theorem moves_tier (t : Tier) (s : List Token) :
    Moves f (relocate f) (tierReader t) (tierReader t) stop s := by
  rw [tierReader_eq]
  apply (moves_operand t s).bind
  intro left n
  exact moves_chain t left (s.drop n)
termination_by 20 * s.length + 2 * t.height + 5
decreasing_by
  · omega
  · simp only [List.length_drop]
    omega

theorem moves_chain (t : Tier) (left : Expr) (s : List Token) :
    Moves f (relocate f) (chainReader t left) (chainReader t (left.relocate f)) stop s := by
  rw [chainReader_eq, chainReader_eq]
  apply moves_peek_bind
  match s with
  | [] => exact moves_pure rfl
  | o :: s =>
    dsimp only [List.head?_cons, Option.map_some, Token.kind_relocate]
    rw [location_relocate]
    cases t.operator? o.kind with
    | none => exact moves_pure rfl
    | some op =>
      apply moves_skip_bind
      apply (moves_operand t s).bind
      intro right n
      exact moves_chain t (binary op left right left.location) (s.drop n)
termination_by 20 * s.length
decreasing_by
  · have := t.height_le
    simp only [List.length_cons]
    omega
  · simp only [List.length_cons, List.length_drop]
    omega

theorem moves_operand (t : Tier) (s : List Token) :
    Moves f (relocate f) (operandReader t) (operandReader t) stop s := by
  rw [operandReader_eq]
  cases t with
  | product => exact moves_unary s
  | _ => exact moves_tier _ s
termination_by 20 * s.length + 2 * t.height + 4
decreasing_by all_goals simp [Tier.height]

theorem moves_unary (s : List Token) : Moves f (relocate f) unaryReader unaryReader stop s := by
  rw [unaryReader_eq]
  apply moves_peek_bind
  match s with
  | [] => exact moves_primary []
  | t :: s =>
    dsimp only [List.head?_cons, Option.map_some, Token.kind_relocate, Token.location_relocate]
    cases prefixOp? t.kind with
    | none => exact moves_primary (t :: s)
    | some op =>
      apply moves_skip_bind
      exact (moves_unary s).map fun e => rfl
termination_by 20 * s.length + 2

theorem moves_primary (s : List Token) :
    Moves f (relocate f) primaryReader primaryReader stop s := by
  rw [primaryReader_eq]
  apply moves_peek_bind
  match s with
  | [] => exact moves_fail _
  | t :: s =>
    dsimp only [List.head?_cons, Option.map_some, Token.kind_relocate]
    rw [ofToken_relocate]
    apply moves_ite
    · intro _
      apply moves_skip_bind
      apply (moves_reader s).bind
      intro e n
      exact (moves_acceptOrNote _ _).map fun _ => rfl
    · intro _
      cases ofToken t with
      | ok e =>
        apply moves_skip_bind
        exact moves_pure rfl
      | error e => exact moves_fail e
termination_by 20 * s.length + 1

end

end Expr

namespace Statement

open Reader

mutual

theorem moves_fields (type : Compound) (s : List Token) :
    Moves f (relocateFields f) (fieldsReader type) (fieldsReader type) stop s := by
  rw [fieldsReader_eq]
  apply moves_expect_bind
  intro name l hl
  dsimp only [Token.text_relocate, Token.location_relocate]
  apply moves_ite
  · exact fun _ => moves_failAt _ _
  · intro _
    apply (Expr.moves_reader l).bind
    intro e n
    exact (moves_moreFields type (l.drop n)).map fun more => rfl
termination_by 2 * s.length
decreasing_by
  simp only [hl, List.length_drop, List.length_cons]
  omega

theorem moves_moreFields (type : Compound) (s : List Token) :
    Moves f (relocateFields f) (moreFieldsReader type) (moreFieldsReader type) stop s := by
  rw [moreFieldsReader_eq]
  apply moves_accept_bind
  · intro c l hl
    exact moves_fields type l
  · exact moves_pure rfl
termination_by 2 * s.length + 1
decreasing_by
  simp only [hl, List.length_cons]
  omega

end

theorem moves_closableFields (type : Compound) (s : List Token) :
    Moves f (relocateFields f) (closableFields type) (closableFields type) stop s := by
  apply moves_peek_bind
  have hany : (s.head?.map (Token.relocate f)).any (·.kind = .rightBrace) =
      s.head?.any (·.kind = .rightBrace) := by
    cases s <;> rfl
  rw [hany]
  apply moves_ite
  · exact fun _ => moves_pure rfl
  · exact fun _ => moves_fields type s

theorem moves_compound (type : Compound) (s : List Token) :
    Moves f (relocateFields f) (readCompound type) (readCompound type) stop s := by
  rw [readCompound_eq]
  apply moves_accept_bind
  · intro _ l _
    apply moves_expect_bind
    intro _ l' _
    apply (moves_closableFields type l').bind
    intro fields n
    apply moves_expect_bind
    intro _ l'' _
    exact moves_pure rfl
  · exact moves_pure rfl

theorem moves_compoundDeclaration (type : Compound) (start : Location) (s : List Token) :
    Moves f (relocate f) (readCompoundDeclaration type start)
      (readCompoundDeclaration type (f start)) stop s := by
  apply moves_expect_bind
  intro name l _
  apply (moves_compound type l).bind
  intro fields n
  exact (moves_acceptOrNote _ _).map fun _ => rfl

theorem moves_scalarDeclaration (type : DataType) (start : Location) (s : List Token) :
    Moves f (relocate f) (readScalarDeclaration type start)
      (readScalarDeclaration type (f start)) stop s := by
  apply moves_expect_bind
  intro name l _
  have hrest (init : Option Expr) (l : List Token) : Moves f (relocate f)
      (do
        acceptOrNote .lineEnd .noLineEndAfterVariable
        return declare type name.text init start)
      (do
        acceptOrNote .lineEnd .noLineEndAfterVariable
        return declare type name.text (init.map (Expr.relocate f)) (f start)) stop l :=
    (moves_acceptOrNote _ _).map fun _ => rfl
  apply moves_accept_bind
  · intro _ l' _
    have hinit : Moves f (Option.map (Expr.relocate f)) (some <$> Expr.reader)
        (some <$> Expr.reader) stop l' :=
      (Expr.moves_reader l').map fun _ => rfl
    exact hinit.bind fun init n => hrest init _
  · exact (moves_pure rfl).bind fun init n => hrest init _

theorem moves_declaration (start : Location) (s : List Token) :
    Moves f (relocate f) (readDeclaration start) (readDeclaration (f start)) stop s := by
  rw [readDeclaration_eq, readDeclaration_eq]
  apply moves_peek_bind
  match s with
  | [] => exact moves_fail _
  | ⟨kind, text, l⟩ :: s =>
    cases kind with
    | keyword w =>
      cases w with
      | type type =>
        apply moves_skip_bind
        cases type.compound? with
        | some c => exact moves_compoundDeclaration c start s
        | none => exact moves_scalarDeclaration type start s
      | _ => exact moves_fail _
    | _ => exact moves_fail _

theorem moves_motion (command : String) (start : Location) (s : List Token) :
    Moves f (relocate f) (readMotion command start) (readMotion command (f start)) stop s := by
  apply moves_expect_bind
  intro target l _
  exact moves_pure rfl

theorem moves_setField (target : Token) (s : List Token) :
    Moves f (relocate f) (readSetField target) (readSetField (target.relocate f)) stop s := by
  apply moves_expect_bind
  intro field l _
  have hvalue (l : List Token) : Moves f (relocate f)
      (do
        let _ ← expect .assign .noMemberAssignment
        let value ← Expr.reader
        return setField target.text field.text value target.location)
      (do
        let _ ← expect .assign .noMemberAssignment
        let value ← Expr.reader
        return setField target.text field.text value (f target.location)) stop l := by
    apply moves_expect_bind
    intro _ l' _
    exact (Expr.moves_reader l').map fun _ => rfl
  apply moves_ite
  · intro _
    have hfail (e : GrammarError) :
        Moves f id (failAt e field.location : Reader PUnit) (failAt e (f field.location)) stop l :=
      moves_failAt e _
    exact (hfail _).bind fun _ _ => hvalue _
  · exact fun _ => hvalue l

theorem moves_seconds (s : List Token) : Moves f id readSeconds readSeconds stop s := by
  rw [readSeconds_eq]
  apply moves_peek_bind
  match s with
  | [] => exact moves_fail _
  | t :: s =>
    apply moves_ite
    · intro _
      dsimp only [Token.text_relocate]
      cases Number.real? t.text with
      | some x =>
        apply moves_skip_bind
        exact moves_pure rfl
      | none => exact moves_fail _
    · exact fun _ => moves_fail _

theorem moves_wait (start : Location) (s : List Token) :
    Moves f (relocate f) (readWait start) (readWait (f start)) stop s := by
  apply moves_expect_bind
  intro _ l _
  apply (moves_seconds l).bind
  intro seconds n
  apply moves_expect_bind
  intro _ l' _
  exact moves_pure rfl

theorem moves_evaluation (s : List Token) :
    Moves f (relocate f) readEvaluation readEvaluation stop s := by
  apply (Expr.moves_reader s).bind
  intro e n
  exact (moves_accept _).map fun _ => rfl

theorem moves_routineHead (s : List Token) :
    Moves f id readRoutineHead readRoutineHead stop s := by
  apply moves_expect_bind
  intro name l _
  apply moves_expect_bind
  intro _ l' _
  apply moves_expect_bind
  intro _ l'' _
  exact moves_pure rfl

theorem moves_condition (s : List Token) :
    Moves f (Expr.relocate f) readCondition readCondition stop s := by
  apply (Expr.moves_reader s).bind
  intro condition n
  apply moves_expect_bind
  intro _ l _
  apply moves_expect_bind
  intro _ l' _
  exact moves_pure rfl

theorem moves_else (s : List Token) : Moves f id readElse readElse stop s := by
  apply moves_accept_bind
  · intro _ l _
    apply moves_expect_bind
    intro _ l' _
    exact moves_pure rfl
  · exact moves_pure rfl

theorem lineLength_relocate (s : List Token) :
    lineLength (s.map (Token.relocate f)) = lineLength s := by
  induction s with
  | nil => rfl
  | cons t s ih => rw [List.map_cons, lineLength, lineLength, Token.kind_relocate, ih]

theorem recover_relocate (s : List Token) (r : Reading (Option Statement)) :
    recover (s.map (Token.relocate f)) (r.relocate f (Option.map (relocate f))) =
      (recover s r).relocate f (Option.map (relocate f)) := by
  obtain ⟨outcome, used, noted⟩ := r
  cases outcome with
  | ok o => rfl
  | error e =>
    unfold recover Reading.relocate
    dsimp only
    rw [← List.map_drop, lineLength_relocate, List.map_append]
    rfl

theorem moves_round {s : List Token}
    (h : Moves f (Option.map (relocate f)) itemReader itemReader stop s) :
    Moves f (Option.map (relocate f)) roundReader roundReader stop s := by
  unfold Moves roundReader at *
  rw [h, recover_relocate]

theorem moves_some {r r' : Reader Statement} {s : List Token}
    (h : Moves f (relocate f) r r' stop s) :
    Moves f (Option.map (relocate f)) (Option.some <$> r) (Option.some <$> r') stop s :=
  h.map fun _ => rfl

mutual

theorem moves_body (nested : Bool) (s : List Token) :
    Moves f (relocateAll f) (bodyReader nested) (bodyReader nested) stop s := by
  rw [bodyReader_eq]
  apply moves_peek_bind
  match s with
  | [] => exact moves_pure rfl
  | t :: s =>
    dsimp only [List.head?_cons, Option.map_some, Token.kind_relocate]
    apply moves_ite
    · exact fun _ => moves_pure rfl
    · intro _
      apply (moves_round (moves_item t s)).bind_of_ok
      intro o n noted hround
      -- A round uses up a token, so that what is left of the body is shorter.
      obtain ⟨_, _, _, hpos, h⟩ := exists_round stop t s
      cases h.symm.trans hround
      apply (moves_body nested _).map
      intro more
      cases o with
      | none => rfl
      | some st => rfl
termination_by 3 * s.length + 1
decreasing_by
  · simp only [List.length_cons]
    omega
  · simp only [List.length_cons, List.length_drop]
    omega

theorem moves_item (t : Token) (s : List Token) :
    Moves f (Option.map (relocate f)) itemReader itemReader stop (t :: s) := by
  rw [itemReader_eq]
  apply moves_peek_bind
  obtain ⟨kind, text, l⟩ := t
  cases kind with
  | keyword w =>
    cases w with
    | defWord => exact moves_skip_bind _ (moves_some (moves_routine l s))
    | decl => exact moves_skip_bind _ (moves_some (moves_declaration l s))
    | motion => exact moves_skip_bind _ (moves_some (moves_motion _ l s))
    | ifWord => exact moves_skip_bind _ (moves_some (moves_conditional l s))
    | wait => exact moves_skip_bind _ (moves_some (moves_wait l s))
    | returnWord => exact moves_skip_bind _ (moves_pure rfl)
    | _ => exact moves_some (moves_evaluation _)
  | lineEnd => exact moves_skip_bind _ (moves_pure rfl)
  | identifier =>
    apply moves_peekNext_bind
    match s with
    | [] => exact moves_some (moves_evaluation _)
    | ⟨kind', text', l'⟩ :: s =>
      cases kind' with
      | dot => exact moves_skip_bind _ (moves_skip_bind _ (moves_some (moves_setField _ s)))
      | _ => exact moves_some (moves_evaluation _)
  | _ => exact moves_some (moves_evaluation _)
termination_by 3 * s.length + 3

theorem moves_routine (start : Location) (s : List Token) :
    Moves f (relocate f) (routineReader start) (routineReader (f start)) stop s := by
  rw [routineReader_eq, routineReader_eq]
  apply (moves_routineHead s).bind
  intro name n
  apply moves_here.bind
  intro l m
  apply (moves_body true _).bind
  intro body k
  exact (moves_expect _ _).map fun _ => rfl
termination_by 3 * s.length + 2
decreasing_by
  simp only [List.length_drop]
  omega

theorem moves_conditional (start : Location) (s : List Token) :
    Moves f (relocate f) (conditionalReader start) (conditionalReader (f start)) stop s := by
  rw [conditionalReader_eq, conditionalReader_eq]
  apply (moves_condition s).bind
  intro condition n
  apply moves_here.bind
  intro l m
  apply (moves_body true _).bind
  intro yes k
  apply (moves_else _).bind
  intro more i
  cases more with
  | true =>
    apply moves_here.bind
    intro l' j
    apply (moves_body true _).bind
    intro no h
    exact (moves_expect _ _).map fun _ => rfl
  | false => exact (moves_expect _ _).map fun _ => rfl
termination_by 3 * s.length + 2
decreasing_by
  all_goals
    simp only [List.length_drop]
    omega

end

end Statement

def Statement.Body.relocate (f : Location → Location) (b : Statement.Body) : Statement.Body :=
  ⟨Statement.relocateAll f b.statements, b.used, b.noted.map (Issue.relocate f)⟩

theorem Statement.readBody_relocate (nested : Bool) (s : List Token) :
    readBody nested (f stop) (s.map (Token.relocate f)) = (readBody nested stop s).relocate f := by
  have h : Reader.Moves f (relocateAll f) (bodyReader nested) (bodyReader nested) stop s :=
    moves_body nested s
  unfold Reader.Moves bodyReader Reading.relocate at h
  obtain ⟨hstatements, hused, hnoted⟩ := Reading.mk.inj h
  have hs := Except.ok.inj hstatements
  dsimp only at hs hused hnoted
  rw [Body.relocate, ← hs, ← hused, ← hnoted]

namespace Program

def window (tokens : List Token) : List Token :=
  (significant tokens).takeWhile (·.kind ≠ .fileEnd)

theorem window_relocate (tokens : List Token) :
    window (tokens.map (Token.relocate f)) = (window tokens).map (Token.relocate f) := by
  unfold window significant
  rw [List.filter_map, List.takeWhile_map]
  rfl

/-- The body of a program is read in the same way elsewhere, if the place where the tokens end goes
along, which is none of theirs where no mark is. -/
theorem bodyOf_relocate (tokens : List Token) :
    Statement.readBody false (f (endLocation (significant tokens)))
        (window (tokens.map (Token.relocate f))) =
      (bodyOf tokens).relocate f := by
  rw [window_relocate, Statement.readBody_relocate]
  rfl

end Program

end ArmLang
