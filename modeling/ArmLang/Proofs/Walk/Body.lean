import ArmLang.Proofs.Walk.Statement

namespace ArmLang.Tape

open Statement

variable {x : Tape}

def restOfLine : Reader Unit := fun _ s => ⟨.ok (), lineLength s, []⟩

theorem restOfLine_eq : restOfLine = (do
    match ← Reader.peek with
    | none => return ()
    | some t =>
      Reader.skip
      if t.kind = .lineEnd then return () else restOfLine) := by
  funext stop s
  rw [Reader.peek_bind]
  cases s with
  | nil => rfl
  | cons t s =>
    rw [restOfLine, lineLength]
    dsimp only [List.head?_cons]
    split
    · rfl
    · rfl

theorem agrees_synchronize (n : Nat) : x.Agrees n Walk.synchronize restOfLine := by
  rw [Walk.synchronize, Walk.synchronizeRule, restOfLine_eq]
  apply agrees_reader_peek
  apply agrees_atEnd.look
  apply agrees_cases
  · intro t ht
    have hlt := lt_of_front ht
    rw [decide_eq_false (Nat.ne_of_lt hlt), ht]
    apply (agrees_advance ht).then
    by_cases hk : t.kind = .lineEnd
    · rw [if_neg (not_not_intro hk), if_pos hk]
      exact agrees_pure ()
    · rw [if_pos hk, if_neg hk]
      exact agrees_synchronize (n + 1)
  · intro hlast hnone
    rw [decide_eq_true hlast, hnone]
    exact agrees_pure ()
termination_by x.last - n

def givenUp (issue : Issue GrammarError) : Reader (Option Statement) := do
  Reader.noteAt issue.cause issue.location
  restOfLine
  return none

theorem agrees_giveUp (issue : Issue GrammarError) (n : Nat) :
    x.Agrees n (Walk.giveUp issue) (givenUp issue) := by
  apply (agrees_noteAt _ _).bind
  intro _ _
  exact (agrees_synchronize _).map _

theorem givenUp_apply (issue : Issue GrammarError) (stop : Location) (s : List Token) :
    givenUp issue stop s = ⟨.ok none, lineLength s, [issue]⟩ := by
  change (⟨.ok none, 0 + (lineLength s + 0), [issue]⟩ : Reading (Option Statement)) = _
  rw [Nat.zero_add, Nat.add_zero]

theorem agrees_round_of_declaration {n : Nat} (h : x.Agrees n Walk.declaration itemReader) :
    x.Agrees n Walk.round roundReader := by
  intro c hc hin
  obtain ⟨hle, k, hk, hw⟩ := h c hc hin
  have hround : x.reading roundReader n = recover (x.front.drop n) (x.reading itemReader n) := rfl
  rw [Walk.round_apply, hw, hround, recover]
  cases ho : (x.reading itemReader n).outcome with
  | ok o =>
    dsimp only
    rw [ho]
    exact ⟨hle, k, hk, rfl⟩
  | error issue =>
    obtain ⟨hle', k', hk', hw'⟩ := agrees_giveUp issue (n + (x.reading itemReader n).used)
      ⟨_, c.noted ++ (x.reading itemReader n).noted, k⟩ rfl ⟨hle, hk⟩
    have hgiven (m) : x.reading (givenUp issue) m =
        ⟨.ok none, lineLength (x.front.drop m), [issue]⟩ := givenUp_apply ..
    rw [hgiven] at hle' hw'
    dsimp only
    rw [List.drop_drop, ← Nat.add_assoc, ← List.append_assoc]
    exact ⟨hle', k', hk', hw'⟩

mutual

theorem agrees_body (nested : Bool) (n : Nat) :
    x.Agrees n (Walk.body nested) (bodyReader nested) := by
  rw [Walk.body, Walk.bodyRule, bodyReader_eq]
  apply agrees_reader_peek
  apply agrees_atEnd.look
  apply agrees_cases
  · intro t ht
    have hlt := lt_of_front ht
    rw [decide_eq_false (Nat.ne_of_lt hlt), ht]
    apply agrees_peek.look
    rw [look_of_front ht]
    dsimp only
    split
    · exact agrees_pure []
    · apply (agrees_round_of_declaration (agrees_declaration ht)).bind
      intro o _
      -- A round uses up a token, so the rest of the body begins nearer to the mark.
      have hpos : 0 < (x.reading roundReader n).used := by
        rw [reading_of_front ht]
        exact recover_used_pos t _ _
      exact (agrees_body nested _).map _
  · intro hlast hnone
    rw [decide_eq_true hlast, hnone]
    exact agrees_pure []
termination_by 8 * (x.last - n) + 5

theorem agrees_declaration {n : Nat} {t : Token} (ht : x.front[n]? = some t) :
    x.Agrees n Walk.declaration itemReader := by
  rw [Walk.declaration, Walk.declarationRule]
  by_cases hdef : t.kind = .keyword .defWord
  · rw [itemReader_eq]
    apply agrees_reader_peek
    rw [ht]
    dsimp only
    rw [hdef]
    apply (agrees_accept_taken ht hdef).then
    exact (agrees_routineDeclaration ht).map some
  · apply (agrees_accept_left (by simpa [ht] using hdef)).look
    by_cases hdecl : t.kind = .keyword .decl
    · rw [itemReader_eq]
      apply agrees_reader_peek
      rw [ht]
      dsimp only
      rw [hdecl]
      apply (agrees_accept_taken ht hdecl).then
      exact (agrees_variableDeclaration ht).map some
    · apply (agrees_accept_left (by simpa [ht] using hdecl)).look
      exact agrees_statement ht hdef hdecl
termination_by 8 * (x.last - n) + 3

theorem agrees_statement {n : Nat} {t : Token} (ht : x.front[n]? = some t)
    (hdef : t.kind ≠ .keyword .defWord) (hdecl : t.kind ≠ .keyword .decl) :
    x.Agrees n Walk.statement itemReader := by
  have hexpression : x.Agrees n (do return some (← Walk.expressionStatement))
      (some <$> readEvaluation) :=
    (agrees_expressionStatement n).map some
  rw [Walk.statement, Walk.statementRule, itemReader_eq]
  apply agrees_reader_peek
  apply agrees_peek.look
  rw [look_of_front ht, ht]
  dsimp only
  cases hk : t.kind with
  | keyword w =>
    cases w with
    | defWord => exact absurd hk hdef
    | decl => exact absurd hk hdecl
    | motion path relative =>
      have hmotion := agrees_motion (x := x) t (n + 1)
      rw [hk] at hmotion
      exact (agrees_advance ht).then (hmotion.map some)
    | ifWord => exact (agrees_advance ht).then ((agrees_conditional ht).map some)
    | wait => exact (agrees_advance ht).then ((agrees_waitStatement ht).map some)
    | returnWord => exact (agrees_advance ht).then (agrees_pure none)
    | _ => exact hexpression
  | lineEnd => exact (agrees_advance ht).then (agrees_pure none)
  | identifier =>
    apply agrees_reader_peekNext
    apply (agrees_peekNext (lt_of_front ht)).look
    cases hd : x.front[n + 1]? with
    | none =>
      have hlast : n + 1 = x.last := eq_last_of_front (lt_of_front ht) hd
      rw [hlast, look_last, if_neg (by simp [x.ends])]
      exact hexpression
    | some d =>
      rw [look_of_front hd]
      obtain ⟨kind, text, l⟩ := d
      cases kind with
      | dot =>
        have hmember := (agrees_memberAssignment ht hd).map some
        simp only [Reader.bind_assoc] at hmember
        exact hmember
      | _ => exact hexpression
  | _ => exact hexpression
termination_by 8 * (x.last - n) + 2

theorem agrees_routineDeclaration {n : Nat} {t : Token} (ht : x.front[n]? = some t) :
    x.Agrees (n + 1) Walk.routineDeclaration (routineReader t.location) := by
  have hlt := lt_of_front ht
  rw [Walk.routineDeclaration, Walk.routineRule, routineReader_eq]
  apply (agrees_previous ht).look
  apply (agrees_routineHead _).bind
  intro name _
  apply agrees_here
  apply (agrees_body true _).bind
  intro statements _
  apply agrees_expect_bind (by decide)
  intro _ _ _
  exact agrees_pure _
termination_by 8 * (x.last - n) + 1

theorem agrees_conditional {n : Nat} {t : Token} (ht : x.front[n]? = some t) :
    x.Agrees (n + 1) Walk.conditional (conditionalReader t.location) := by
  have hlt := lt_of_front ht
  rw [Walk.conditional, Walk.conditionalRule, conditionalReader_eq]
  apply (agrees_previous ht).look
  apply (agrees_condition _).bind
  intro condition _
  apply agrees_here
  apply (agrees_body true _).bind
  intro yes _
  apply (agrees_elseHead _).bind
  intro more _
  cases more with
  | true =>
    apply agrees_here
    apply (agrees_body true _).bind
    intro no _
    apply agrees_expect_bind (by decide)
    intro _ _ _
    exact agrees_pure _
  | false =>
    apply agrees_expect_bind (by decide)
    intro _ _ _
    exact agrees_pure _
termination_by 8 * (x.last - n) + 1

end

end ArmLang.Tape
