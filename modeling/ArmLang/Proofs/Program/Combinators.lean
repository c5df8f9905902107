import ArmLang.Proofs.Program.Progress

namespace ArmLang

theorem Reading.after_zero (r : Reading α) : r.after 0 = r := by
  rw [after, Nat.zero_add]

theorem Reading.after_andThen (r : Reading α) (n : Nat) (f : α → Reading β) :
    (r.after n).andThen f = (r.andThen f).after n := by
  obtain ⟨outcome, used, noted⟩ := r
  cases outcome with
  | error e => rfl
  | ok a => simp only [after, andThen, Nat.add_assoc]

theorem Reading.andThen_congr (r : Reading α) {f g : α → Reading β} (h : ∀ a, f a = g a) :
    r.andThen f = r.andThen g := by
  rw [funext h]

theorem Reader.pure_bind (a : α) (f : α → Reader β) : pure a >>= f = f a := by
  funext stop s
  exact Reading.after_zero _

theorem Reader.bind_assoc (r : Reader α) (f : α → Reader β) (g : β → Reader γ) :
    (r >>= f) >>= g = r >>= fun a => f a >>= g := by
  funext stop s
  simp only [bind_apply, Reading.andThen]
  cases (r stop s).outcome with
  | error e => rfl
  | ok a =>
    dsimp only
    cases (f a stop (s.drop (r stop s).used)).outcome with
    | error e => rfl
    | ok b => simp only [List.drop_drop, Nat.add_assoc, List.append_assoc]

namespace Reader

def peek : Reader (Option Token) := fun _ s => .value s.head?

def peekNext : Reader (Option Token) := fun _ s => .value s.tail.head?

def skip : Reader Unit := fun _ _ => ⟨.ok (), 1, []⟩

def here : Reader Location := fun stop s => .value (nextLocation stop s)

def noteAt (e : GrammarError) (l : Location) : Reader Unit := fun _ _ => .noting () e l

theorem peek_bind (f : Option Token → Reader α) (stop : Location) (s : List Token) :
    (peek >>= f) stop s = f s.head? stop s :=
  Reading.after_zero _

theorem peekNext_bind (f : Option Token → Reader α) (stop : Location) (s : List Token) :
    (peekNext >>= f) stop s = f s.tail.head? stop s :=
  Reading.after_zero _

theorem here_bind (f : Location → Reader α) (stop : Location) (s : List Token) :
    (here >>= f) stop s = f (nextLocation stop s) stop s :=
  Reading.after_zero _

theorem skip_bind (r : Reader α) (stop : Location) (t : Token) (s : List Token) :
    (skip >>= fun _ => r) stop (t :: s) = (r stop s).after 1 :=
  rfl

end Reader

namespace Expr

open Reader

-- The readers of expressions under the type by which they are put together.
def tierReader (t : Tier) : Reader Expr := readTier t

def assignedReader (target : Expr) : Reader Expr := readAssigned target

def chainReader (t : Tier) (left : Expr) : Reader Expr := readChain t left

def operandReader (t : Tier) : Reader Expr := readOperand t

def unaryReader : Reader Expr := readUnary

def primaryReader : Reader Expr := readPrimary

theorem reader_eq : reader = tierReader .disjunction >>= assignedReader := by
  funext stop s
  exact read.eq_def stop s

theorem assignedReader_eq (target : Expr) : assignedReader target = (do
    match ← peek with
    | none => return target
    | some t =>
      if t.kind = .assign then
        skip
        let e ← reader
        match target.varName? with
        | some _ => return assign target e target.location
        | none =>
          noteAt .badTarget t.location
          return target
      else return target) := by
  funext stop s
  rw [peek_bind]
  cases s with
  | nil => exact readAssigned.eq_def target stop []
  | cons t rest =>
    refine (readAssigned.eq_def target stop (t :: rest)).trans ?_
    dsimp only [List.head?_cons]
    split
    · rw [skip_bind, Reading.after_andThen]
      cases target.varName? with
      | some name => rfl
      | none => rfl
    · rfl

theorem tierReader_eq (t : Tier) : tierReader t = operandReader t >>= chainReader t := by
  funext stop s
  exact readTier.eq_def t stop s

theorem chainReader_eq (t : Tier) (left : Expr) : chainReader t left = (do
    match ← peek with
    | none => return left
    | some o =>
      match t.operator? o.kind with
      | none => return left
      | some op =>
        skip
        let e ← operandReader t
        chainReader t (binary op left e left.location)) := by
  funext stop s
  rw [peek_bind]
  cases s with
  | nil => exact readChain.eq_def t left stop []
  | cons o rest =>
    refine (readChain.eq_def t left stop (o :: rest)).trans ?_
    dsimp only [List.head?_cons]
    cases t.operator? o.kind with
    | none => rfl
    | some op => exact Reading.after_andThen ..

theorem operandReader_eq (t : Tier) : operandReader t =
    match t with
    | .disjunction => tierReader .conjunction
    | .conjunction => tierReader .equality
    | .equality => tierReader .comparison
    | .comparison => tierReader .sum
    | .sum => tierReader .product
    | .product => unaryReader := by
  funext stop s
  cases t <;> exact readOperand.eq_def _ stop s

theorem unaryReader_eq : unaryReader = (do
    match ← peek with
    | none => primaryReader
    | some t =>
      match prefixOp? t.kind with
      | some op =>
        skip
        let e ← unaryReader
        return unary op e t.location
      | none => primaryReader) := by
  funext stop s
  rw [peek_bind]
  cases s with
  | nil => exact readUnary.eq_def stop []
  | cons t rest =>
    refine (readUnary.eq_def stop (t :: rest)).trans ?_
    dsimp only [List.head?_cons]
    cases prefixOp? t.kind with
    | some op => exact Reading.after_andThen ..
    | none => rfl

theorem primaryReader_eq : primaryReader = (do
    match ← peek with
    | none => fail (.noExpression .fileEnd)
    | some t =>
      if t.kind = .leftParen then
        skip
        let e ← reader
        acceptOrNote .rightParen .noClosing
        return e
      else
        match ofToken t with
        | .ok e =>
          skip
          return e
        | .error e => fail e) := by
  funext stop s
  rw [peek_bind]
  cases s with
  | nil => exact readPrimary.eq_def stop []
  | cons t rest =>
    refine (readPrimary.eq_def stop (t :: rest)).trans ?_
    dsimp only [List.head?_cons]
    split
    · rw [skip_bind]
      exact Reading.after_andThen ..
    · cases ofToken t with
      | ok e => rfl
      | error e => rfl

end Expr

namespace Statement

open Reader

def fieldsReader (type : Compound) : Reader (List (String × Expr)) := readFields type

def moreFieldsReader (type : Compound) : Reader (List (String × Expr)) := readMoreFields type

def bodyReader (nested : Bool) : Reader (List Statement) := fun stop s =>
  let b := readBody nested stop s
  ⟨.ok b.statements, b.used, b.noted⟩

def routineReader (start : Location) : Reader Statement := readRoutine start

def conditionalReader (start : Location) : Reader Statement := readConditional start

def itemReader : Reader (Option Statement) := fun stop s =>
  match s with
  | [] => .value none
  | t :: rest => readItem t stop rest

def roundReader : Reader (Option Statement) := fun stop s => recover s (itemReader stop s)

theorem fieldsReader_eq (type : Compound) : fieldsReader type = (do
    let f ← expect .identifier .noFieldName
    if !type.dataType.fieldNames.contains f.text then
      failAt (.unknownFieldOf f.text type) f.location
    else
      let e ← Expr.reader
      let more ← moreFieldsReader type
      return (f.text, e) :: more) := by
  funext stop s
  rw [bind_apply]
  cases s with
  | nil => exact readFields.eq_def type stop []
  | cons f rest =>
    refine (readFields.eq_def type stop (f :: rest)).trans ?_
    unfold expect
    by_cases hk : f.kind = .identifier
    · simp only [hk, ne_eq, not_true_eq_false, if_false, if_true]
      rw [Reading.andThen_ok]
      split
      · rfl
      · exact Reading.after_andThen ..
    · simp only [hk, ne_eq, not_false_eq_true, if_true, if_false]
      rfl

theorem moreFieldsReader_eq (type : Compound) : moreFieldsReader type = (do
    if ← accept .comma then fieldsReader type else return []) := by
  funext stop s
  rw [bind_apply]
  cases s with
  | nil => exact readMoreFields.eq_def type stop []
  | cons c rest =>
    refine (readMoreFields.eq_def type stop (c :: rest)).trans ?_
    unfold accept
    dsimp only
    split
    · rfl
    · rfl

def closableFields (type : Compound) : Reader (List (String × Expr)) := do
  if (← peek).any (·.kind = .rightBrace) then return [] else fieldsReader type

theorem closableFields_eq (type : Compound) :
    (fun stop s =>
      if s.head?.any (·.kind = .rightBrace) then .value [] else readFields type stop s) =
      closableFields type := by
  funext stop s
  unfold closableFields
  rw [peek_bind]
  split
  · rfl
  · rfl

theorem readCompound_eq (type : Compound) : readCompound type = (do
    if ← accept .assign then
      let _ ← expect .leftBrace (.noCompoundOpening type)
      let fields ← closableFields type
      let _ ← expect .rightBrace (.noCompoundClosing type)
      return fields
    else return []) := by
  unfold readCompound
  rw [closableFields_eq]
  congr 1
  funext present
  cases present with
  | false => rfl
  | true => rfl

theorem readDeclaration_eq (start : Location) : (readDeclaration start : Reader Statement) = (do
    match ← peek with
    | some ⟨.keyword (.type type), _, _⟩ =>
      skip
      match type.compound? with
      | some c => readCompoundDeclaration c start
      | none => readScalarDeclaration type start
    | _ => fail .noDataType) := by
  funext stop s
  rw [peek_bind]
  cases s with
  | nil => rfl
  | cons t rest =>
    obtain ⟨kind, text, l⟩ := t
    cases kind with
    | keyword w =>
      cases w with
      | type type =>
        unfold readDeclaration
        dsimp only [List.head?_cons]
        cases type.compound? with
        | some c => rfl
        | none => rfl
      | _ => rfl
    | _ => rfl

theorem readSeconds_eq : readSeconds = (do
    match ← peek with
    | none => fail .noWaitTime
    | some t =>
      if t.kind = .integer ∨ t.kind = .real then
        match Number.real? t.text with
        | some x =>
          skip
          return x
        | none => fail .badWaitTime
      else fail .noWaitTime) := by
  funext stop s
  rw [peek_bind]
  unfold readSeconds
  cases s with
  | nil => rfl
  | cons t rest =>
    dsimp only [List.head?_cons]
    split
    · cases Number.real? t.text with
      | some x => rfl
      | none => rfl
    · rfl

theorem itemReader_eq : itemReader = (do
    match ← peek with
    | none => return none
    | some t =>
      match t.kind with
      | .keyword .defWord => do skip; some <$> routineReader t.location
      | .keyword .decl => do skip; some <$> readDeclaration t.location
      | .keyword (.motion _ _) => do skip; some <$> readMotion t.kind.name t.location
      | .keyword .ifWord => do skip; some <$> conditionalReader t.location
      | .keyword .wait => do skip; some <$> readWait t.location
      | .keyword .returnWord | .lineEnd => do skip; return none
      | .identifier => do
        match ← peekNext with
        | some ⟨.dot, _, _⟩ => do skip; skip; some <$> readSetField t
        | _ => some <$> readEvaluation
      | _ => some <$> readEvaluation) := by
  funext stop s
  rw [peek_bind]
  cases s with
  | nil => rfl
  | cons t rest =>
    have h := readItem.eq_def t stop rest
    obtain ⟨kind, text, l⟩ := t
    cases kind with
    | keyword w =>
      cases w with
      | defWord | decl | motion | ifWord | wait => exact h.trans (Reading.after_andThen ..)
      | _ => exact h
    | identifier =>
      refine Eq.trans ?_ (peekNext_bind ..).symm
      cases rest with
      | nil => exact h
      | cons d rest =>
        obtain ⟨kind', text', l'⟩ := d
        cases kind' with
        | dot => exact h.trans ((Reading.after_andThen ..).trans (Reading.after_after _ 1 1).symm)
        | _ => exact h
    | _ => exact h

theorem Body.andThen_congr (b : Body) {f g : List Statement → Reading α} (h : ∀ ss, f ss = g ss) :
    b.andThen f = b.andThen g := by
  rw [funext h]

theorem bodyReader_bind (nested : Bool) (f : List Statement → Reader α) (stop : Location)
    (s : List Token) :
    (bodyReader nested >>= f) stop s =
      let b := readBody nested stop s
      b.andThen fun ss => f ss stop (s.drop b.used) :=
  rfl

theorem bodyReader_map (nested : Bool) (f : List Statement → α) (stop : Location)
    (s : List Token) :
    (bodyReader nested >>= fun ss => pure (f ss)) stop s =
      let b := readBody nested stop s
      ⟨.ok (f b.statements), b.used, b.noted⟩ := by
  rw [bodyReader_bind]
  simp [Body.andThen, pure_apply, Reading.value]

theorem routineReader_eq (start : Location) : routineReader start = (do
    let name ← readRoutineHead
    let l ← here
    let body ← bodyReader true
    let _ ← expect (.keyword .endWord) .noRoutineEnd
    return routine name l body start) := by
  funext stop s
  refine (readRoutine.eq_def start stop s).trans ?_
  refine Reading.andThen_congr (readRoutineHead stop s) fun name => ?_
  refine Eq.trans ?_ (here_bind ..).symm
  rfl

theorem conditionalReader_eq (start : Location) : conditionalReader start = (do
    let condition ← readCondition
    let l ← here
    let yes ← bodyReader true
    if ← readElse then
      let l' ← here
      let no ← bodyReader true
      let _ ← expect (.keyword .endIf) .noEndIf
      return ifElse condition l yes l' no start
    else
      let _ ← expect (.keyword .endIf) .noEndIf
      return ifThen condition l yes start) := by
  funext stop s
  refine (readConditional.eq_def start stop s).trans ?_
  refine Reading.andThen_congr (readCondition stop s) fun condition => ?_
  refine Eq.trans ?_ (here_bind ..).symm
  refine Eq.trans ?_ (bodyReader_bind ..).symm
  refine Body.andThen_congr (readBody true stop _) fun yes => ?_
  refine Reading.andThen_congr (readElse stop _) fun more => ?_
  cases more with
  | false => rfl
  | true =>
    refine Eq.trans ?_ (here_bind ..).symm
    rfl

theorem exists_round (stop : Location) (t : Token) (s : List Token) :
    ∃ o n noted, 0 < n ∧ roundReader stop (t :: s) = ⟨.ok o, n, noted⟩ := by
  have hpos : 0 < (roundReader stop (t :: s)).used := recover_used_pos t stop s
  obtain ⟨o, ho⟩ := recover_outcome (itemReader stop (t :: s)) (t :: s)
  refine ⟨o, _, (roundReader stop (t :: s)).noted, hpos, ?_⟩
  rw [← ho]
  rfl

theorem readBody_of_round {nested : Bool} {stop : Location} {t : Token} {s : List Token}
    {o : Option Statement} {n : Nat} {noted : List (Issue GrammarError)}
    (hc : (nested && closesBody t.kind) = false)
    (hround : roundReader stop (t :: s) = ⟨.ok o, n, noted⟩) :
    readBody nested stop (t :: s) =
      let more := readBody nested stop ((t :: s).drop n)
      ⟨o.toList ++ more.statements, n + more.used, noted ++ more.noted⟩ := by
  have hpos := recover_used_pos t stop s
  have hitem : recover (t :: s) (readItem t stop s) = ⟨.ok o, n, noted⟩ := hround
  rw [hitem] at hpos
  obtain ⟨m, rfl⟩ : ∃ m, n = m + 1 := ⟨n - 1, (Nat.sub_add_cancel hpos).symm⟩
  rw [readBody, hc, hitem]
  cases o with
  | none => rfl
  | some st => rfl

theorem bodyReader_eq (nested : Bool) : bodyReader nested = (do
    match ← peek with
    | none => return []
    | some t =>
      if nested && closesBody t.kind then return []
      else
        let o ← roundReader
        let more ← bodyReader nested
        return o.toList ++ more) := by
  funext stop s
  rw [peek_bind, bodyReader]
  cases s with
  | nil =>
    rw [readBody]
    rfl
  | cons t rest =>
    dsimp only [List.head?_cons]
    split
    · next hc =>
      rw [readBody, if_pos hc]
      rfl
    · next hc =>
      obtain ⟨o, n, noted, -, hround⟩ := exists_round stop t rest
      rw [readBody_of_round (Bool.eq_false_iff.2 hc) hround, bind_apply, hround, Reading.andThen]
      dsimp only
      rw [bodyReader_map]

/-- A body is read up to the end, or, inside another statement, up to a token that closes it. -/
theorem drop_readBody (nested : Bool) (stop : Location) (s : List Token) :
    (s.drop (readBody nested stop s).used).head?.all
      (fun t => nested && closesBody t.kind) = true := by
  cases s with
  | nil => rw [readBody, List.drop_nil, List.head?_nil, Option.all_none]
  | cons t rest =>
    cases hc : nested && closesBody t.kind with
    | true => rw [readBody, if_pos hc, List.drop_zero, List.head?_cons, Option.all_some, hc]
    | false =>
      obtain ⟨o, n, noted, hpos, hround⟩ := exists_round stop t rest
      have ih := drop_readBody nested stop ((t :: rest).drop n)
      rw [readBody_of_round hc hround]
      rwa [List.drop_drop] at ih
termination_by s.length
decreasing_by
  simp only [List.length_drop, List.length_cons]
  omega

end Statement

end ArmLang
