import ArmLang.Proofs.Program.Combinators

namespace ArmLang

namespace Reader

/-- What is read off a line is the same whatever stands behind its last token `e`. That token is
used up only with `ends`, and never by something that could not be read. -/
def Local (ends : Bool) (r : Reader α) (l : List Token) (e : Token) : Prop :=
  ∃ q : Reading α, q.used ≤ l.length + ends.toNat ∧
    (∀ err, q.outcome = .error err → q.used ≤ l.length) ∧
    ∀ stop rest, r stop (l ++ e :: rest) = q

variable {ends : Bool} {l : List Token} {e : Token}

theorem Local.congr {r r' : Reader α} (h : r'.Local ends l e)
    (heq : ∀ stop rest, r stop (l ++ e :: rest) = r' stop (l ++ e :: rest)) : r.Local ends l e := by
  obtain ⟨q, hq, herr, h⟩ := h
  refine ⟨q, hq, herr, ?_⟩
  intro stop rest
  rw [heq, h]

theorem local_pure (a : α) : Local ends (pure a) l e :=
  ⟨.value a, Nat.zero_le _, fun _ _ => Nat.zero_le _, fun _ _ => rfl⟩

theorem local_failAt (err : GrammarError) (p : Location) :
    Local ends (failAt err p : Reader α) l e :=
  ⟨.failure err p, Nat.zero_le _, fun _ _ => Nat.zero_le _, fun _ _ => rfl⟩

theorem local_noteAt (err : GrammarError) (p : Location) : Local ends (noteAt err p) l e :=
  ⟨.noting () err p, Nat.zero_le _, fun _ _ => Nat.zero_le _, fun _ _ => rfl⟩

theorem local_next {r : Reader α} (q : Token → Reading α) (h : ∀ t stop s, r stop (t :: s) = q t)
    (hused : ∀ t, (q t).used ≤ ends.toNat)
    (herr : ∀ t err, (q t).outcome = .error err → (q t).used = 0) : r.Local ends l e := by
  have hfirst (t : Token) (ht : ∀ rest, ∃ s, l ++ e :: rest = t :: s) : r.Local ends l e := by
    refine ⟨q t, Nat.le_add_left_of_le (hused t), ?_, ?_⟩
    · intro err ho
      rw [herr t err ho]
      exact Nat.zero_le _
    · intro stop rest
      obtain ⟨s, hs⟩ := ht rest
      rw [hs]
      exact h t stop s
  cases l with
  | nil => exact hfirst e fun rest => ⟨rest, rfl⟩
  | cons t l => exact hfirst t fun rest => ⟨l ++ e :: rest, rfl⟩

theorem local_fail (err : GrammarError) : Local ends (fail err : Reader α) l e :=
  local_next (fun t => .failure err t.location) (fun _ _ _ => rfl) (fun _ => Nat.zero_le _)
    fun _ _ _ => rfl

theorem local_note (err : GrammarError) : Local ends (note err) l e :=
  local_next (fun t => .noting () err t.location) (fun _ _ _ => rfl) (fun _ => Nat.zero_le _)
    fun _ _ _ => rfl

theorem Local.bind {r : Reader α} {f : α → Reader β} (hr : r.Local false l e)
    (hf : ∀ a n, (f a).Local ends (l.drop n) e) : (r >>= f).Local ends l e := by
  obtain ⟨q, hq, -, h⟩ := hr
  simp only [Bool.toNat_false, Nat.add_zero] at hq
  cases ho : q.outcome with
  | error err =>
    refine ⟨⟨.error err, q.used, q.noted⟩, Nat.le_add_right_of_le hq, fun _ _ => hq, ?_⟩
    intro stop rest
    rw [bind_apply, h, Reading.andThen, ho]
  | ok a =>
    obtain ⟨p, hp, hperr, hf⟩ := hf a q.used
    rw [List.length_drop] at hp hperr
    refine ⟨⟨p.outcome, q.used + p.used, q.noted ++ p.noted⟩, ?_, ?_, ?_⟩
    · dsimp only
      omega
    · intro err herr
      have := hperr err herr
      dsimp only
      omega
    · intro stop rest
      rw [bind_apply, h, Reading.andThen, ho, List.drop_append_of_le_length hq]
      dsimp only
      rw [hf]

theorem Local.map {r : Reader α} (hr : r.Local ends l e) (f : α → β) :
    Local ends (r >>= fun a => pure (f a)) l e := by
  obtain ⟨q, hq, herr, h⟩ := hr
  refine ⟨q.map f, ?_, ?_, fun stop rest => ?_⟩
  · unfold Reading.map Reading.andThen
    split
    · exact hq
    · exact hq
  · intro err
    unfold Reading.map Reading.andThen
    split
    · next err' h' => exact fun _ => herr err' h'
    · intro h'
      cases h'
  · rw [bind_apply, h]
    rfl

theorem local_peek_bind {f : Option Token → Reader α} (h : (f (l ++ [e]).head?).Local ends l e) :
    (peek >>= f).Local ends l e := by
  apply h.congr
  intro stop rest
  rw [peek_bind]
  cases l with
  | nil => rfl
  | cons t l => rfl

theorem local_peekNext_bind {f : Option Token → Reader α} {t : Token}
    (h : (f (l ++ [e]).head?).Local ends (t :: l) e) : (peekNext >>= f).Local ends (t :: l) e := by
  apply h.congr
  intro stop rest
  rw [peekNext_bind]
  cases l with
  | nil => rfl
  | cons t l => rfl

theorem local_skip_bind {r : Reader α} (t : Token) (h : r.Local ends l e) :
    Local ends (skip >>= fun _ => r) (t :: l) e := by
  obtain ⟨q, hq, herr, h⟩ := h
  refine ⟨q.after 1, ?_, ?_, fun stop rest => ?_⟩
  · change 1 + q.used ≤ l.length + 1 + ends.toNat
    omega
  · intro err ho
    have := herr err ho
    change 1 + q.used ≤ l.length + 1
    omega
  · rw [List.cons_append, skip_bind, h]

theorem local_expect_bind {k : Kind} {f : Token → Reader α} (err : GrammarError) (hk : e.kind ≠ k)
    (h : ∀ t l', l = t :: l' → (f t).Local ends l' e) : (expect k err >>= f).Local ends l e := by
  have hfailure (p : Location)
      (hp : ∀ stop rest, expect k err stop (l ++ e :: rest) = .failure err p) :
      (expect k err >>= f).Local ends l e := by
    refine ⟨.failure err p, Nat.zero_le _, fun _ _ => Nat.zero_le _, fun stop rest => ?_⟩
    rw [bind_apply, hp]
    rfl
  cases l with
  | nil => exact hfailure e.location fun _ _ => if_neg hk
  | cons t l =>
    by_cases ht : t.kind = k
    · apply (local_skip_bind t (h t l rfl)).congr
      intro stop rest
      rw [bind_apply, List.cons_append, expect, if_pos ht]
      rfl
    · exact hfailure t.location fun _ _ => if_neg ht

theorem local_accept_bind {k : Kind} {f : Bool → Reader α} (hk : e.kind ≠ k)
    (htrue : ∀ t l', l = t :: l' → (f true).Local ends l' e) (hfalse : (f false).Local ends l e) :
    (accept k >>= f).Local ends l e := by
  have habsent (hp : ∀ stop rest, accept k stop (l ++ e :: rest) = .value false) :
      (accept k >>= f).Local ends l e := by
    apply hfalse.congr
    intro stop rest
    rw [bind_apply, hp]
    exact Reading.after_zero _
  cases l with
  | nil => exact habsent fun _ _ => if_neg hk
  | cons t l =>
    by_cases ht : t.kind = k
    · apply (local_skip_bind t (htrue t l rfl)).congr
      intro stop rest
      rw [bind_apply, List.cons_append, accept, if_pos ht]
      rfl
    · exact habsent fun _ _ => if_neg ht

theorem local_accept_end (k : Kind) : (accept k).Local true l e := by
  apply local_next (fun t => if t.kind = k then ⟨.ok true, 1, []⟩ else .value false)
  · intro t stop s
    rfl
  · intro t
    split
    · exact Nat.le_refl 1
    · exact Nat.zero_le 1
  · intro t err h
    split at h <;> cases h

theorem local_acceptOrNote {k : Kind} (err : GrammarError) (hk : e.kind ≠ k) :
    (acceptOrNote k err).Local ends l e := by
  apply local_accept_bind hk
  · intro t l' _
    exact local_pure ()
  · exact local_note err

theorem local_acceptOrNote_end (k : Kind) (err : GrammarError) :
    (acceptOrNote k err).Local true l e := by
  apply local_next fun t => if t.kind = k then ⟨.ok (), 1, []⟩ else .noting () err t.location
  · intro t stop s
    unfold acceptOrNote
    rw [bind_apply, accept]
    split <;> rfl
  · intro t
    split
    · exact Nat.le_refl 1
    · exact Nat.zero_le 1
  · intro t err h
    split at h <;> cases h

end Reader

namespace Expr

open Reader

variable {e : Token}

mutual

theorem reader_local (he : e.kind = .lineEnd) (l : List Token) : reader.Local false l e := by
  rw [reader_eq]
  apply (tierReader_local he .disjunction l).bind
  intro target n
  exact assignedReader_local he target (l.drop n)
termination_by 20 * l.length + 16
decreasing_by
  · simp [Tier.height]
  · simp only [List.length_drop]
    omega

theorem assignedReader_local (he : e.kind = .lineEnd) (target : Expr) (l : List Token) :
    (assignedReader target).Local false l e := by
  rw [assignedReader_eq]
  apply local_peek_bind
  match l with
  | [] =>
    dsimp only [List.nil_append, List.head?_cons]
    rw [if_neg (by simp [he])]
    exact local_pure target
  | t :: l =>
    dsimp only [List.cons_append, List.head?_cons]
    split
    · apply local_skip_bind
      apply (reader_local he l).bind
      intro value n
      split
      · exact local_pure _
      · apply (local_noteAt _ _).bind
        intro _ _
        exact local_pure target
    · exact local_pure target
termination_by 20 * l.length

theorem tierReader_local (he : e.kind = .lineEnd) (t : Tier) (l : List Token) :
    (tierReader t).Local false l e := by
  rw [tierReader_eq]
  apply (operandReader_local he t l).bind
  intro left n
  exact chainReader_local he t left (l.drop n)
termination_by 20 * l.length + 2 * t.height + 5
decreasing_by
  · omega
  · simp only [List.length_drop]
    omega

theorem chainReader_local (he : e.kind = .lineEnd) (t : Tier) (left : Expr) (l : List Token) :
    (chainReader t left).Local false l e := by
  rw [chainReader_eq]
  apply local_peek_bind
  match l with
  | [] =>
    have hnone : t.operator? e.kind = none := by
      rw [he]
      cases t <;> rfl
    dsimp only [List.nil_append, List.head?_cons]
    rw [hnone]
    exact local_pure left
  | o :: l =>
    dsimp only [List.cons_append, List.head?_cons]
    split
    · exact local_pure left
    · apply local_skip_bind
      apply (operandReader_local he t l).bind
      intro right n
      exact chainReader_local he t _ (l.drop n)
termination_by 20 * l.length
decreasing_by
  · have := t.height_le
    simp only [List.length_cons]
    omega
  · simp only [List.length_cons, List.length_drop]
    omega

theorem operandReader_local (he : e.kind = .lineEnd) (t : Tier) (l : List Token) :
    (operandReader t).Local false l e := by
  rw [operandReader_eq]
  cases t with
  | product => exact unaryReader_local he l
  | _ => exact tierReader_local he _ l
termination_by 20 * l.length + 2 * t.height + 4
decreasing_by all_goals simp [Tier.height]

theorem unaryReader_local (he : e.kind = .lineEnd) (l : List Token) :
    unaryReader.Local false l e := by
  rw [unaryReader_eq]
  apply local_peek_bind
  match l with
  | [] =>
    have hnone : prefixOp? e.kind = none := by rw [he]; rfl
    dsimp only [List.nil_append, List.head?_cons]
    rw [hnone]
    exact primaryReader_local he []
  | t :: l =>
    dsimp only [List.cons_append, List.head?_cons]
    split
    · apply local_skip_bind
      exact (unaryReader_local he l).map _
    · exact primaryReader_local he (t :: l)
termination_by 20 * l.length + 2

theorem primaryReader_local (he : e.kind = .lineEnd) (l : List Token) :
    primaryReader.Local false l e := by
  rw [primaryReader_eq]
  apply local_peek_bind
  match l with
  | [] =>
    have herror : ofToken e = .error (.noExpression (found e)) := by
      unfold ofToken
      rw [he]
    dsimp only [List.nil_append, List.head?_cons]
    rw [if_neg (by simp [he]), herror]
    exact local_fail _
  | t :: l =>
    dsimp only [List.cons_append, List.head?_cons]
    split
    · apply local_skip_bind
      apply (reader_local he l).bind
      intro inner n
      exact (local_acceptOrNote _ (by simp [he])).map _
    · split
      · apply local_skip_bind
        exact local_pure _
      · exact local_fail _
termination_by 20 * l.length + 1

end

end Expr

namespace Statement

open Reader

variable {e : Token}

mutual

theorem fieldsReader_local (he : e.kind = .lineEnd) (type : Compound) (l : List Token) :
    (fieldsReader type).Local false l e := by
  rw [fieldsReader_eq]
  apply local_expect_bind _ (by simp [he])
  intro f l' hl
  split
  · exact local_failAt _ _
  · apply (Expr.reader_local he l').bind
    intro value n
    exact (moreFieldsReader_local he type (l'.drop n)).map _
termination_by 2 * l.length
decreasing_by
  simp only [hl, List.length_drop, List.length_cons]
  omega

theorem moreFieldsReader_local (he : e.kind = .lineEnd) (type : Compound) (l : List Token) :
    (moreFieldsReader type).Local false l e := by
  rw [moreFieldsReader_eq]
  apply local_accept_bind (by simp [he])
  · intro c l' hl
    exact fieldsReader_local he type l'
  · exact local_pure []
termination_by 2 * l.length + 1
decreasing_by
  simp only [hl, List.length_cons]
  omega

end

theorem closableFields_local (he : e.kind = .lineEnd) (type : Compound) (l : List Token) :
    (closableFields type).Local false l e := by
  apply local_peek_bind
  split
  · exact local_pure []
  · exact fieldsReader_local he type l

theorem readCompound_local (he : e.kind = .lineEnd) (type : Compound) (l : List Token) :
    (readCompound type).Local false l e := by
  have hclose (fields : List (String × Expr)) (l : List Token) : Local false
      (do
        let _ ← expect .rightBrace (.noCompoundClosing type)
        return fields) l e := by
    apply local_expect_bind _ (by simp [he])
    intro _ l' _
    exact local_pure fields
  rw [readCompound_eq]
  apply local_accept_bind (by simp [he])
  · intro a l' _
    apply local_expect_bind _ (by simp [he])
    intro o l'' _
    apply (closableFields_local he type l'').bind
    intro fields n
    exact hclose fields _
  · exact local_pure []

theorem readCompoundDeclaration_local (he : e.kind = .lineEnd) (type : Compound) (start : Location)
    (l : List Token) : (readCompoundDeclaration type start).Local true l e := by
  apply local_expect_bind _ (by simp [he])
  intro name l' _
  apply (readCompound_local he type l').bind
  intro fields n
  exact (local_acceptOrNote_end _ _).map _

theorem readScalarDeclaration_local (he : e.kind = .lineEnd) (type : DataType) (start : Location)
    (l : List Token) : (readScalarDeclaration type start).Local true l e := by
  apply local_expect_bind _ (by simp [he])
  intro name l' _
  have hrest (init : Option Expr) (l : List Token) : Local true
      (do
        acceptOrNote .lineEnd .noLineEndAfterVariable
        return declare type name.text init start) l e :=
    (local_acceptOrNote_end _ _).map _
  apply local_accept_bind (by simp [he])
  · intro a l'' _
    apply ((Expr.reader_local he l'').map some).bind
    intro init n
    exact hrest init _
  · exact (local_pure none).bind fun init n => hrest init _

theorem readDeclaration_local (he : e.kind = .lineEnd) (start : Location) (l : List Token) :
    (readDeclaration start : Reader Statement).Local true l e := by
  rw [readDeclaration_eq]
  apply local_peek_bind
  cases l with
  | nil =>
    split
    · next type _ _ h =>
      cases h
      cases he
    · exact local_fail _
  | cons t l =>
    split
    · apply local_skip_bind
      split
      · exact readCompoundDeclaration_local he _ start l
      · exact readScalarDeclaration_local he _ start l
    · exact local_fail _

theorem readMotion_local (he : e.kind = .lineEnd) (command : String) (start : Location)
    (l : List Token) : (readMotion command start).Local true l e := by
  apply local_expect_bind _ (by simp [he])
  intro target l' _
  exact local_pure _

theorem readSetField_local (he : e.kind = .lineEnd) (target : Token) (l : List Token) :
    (readSetField target).Local true l e := by
  apply local_expect_bind _ (by simp [he])
  intro field l' _
  have hvalue (l : List Token) : Local true
      (do
        let _ ← expect .assign .noMemberAssignment
        let value ← Expr.reader
        return setField target.text field.text value target.location) l e := by
    apply local_expect_bind _ (by simp [he])
    intro _ l' _
    apply (Expr.reader_local he l').bind
    intro value n
    exact local_pure _
  split
  · exact (local_failAt _ _).bind fun _ n => hvalue _
  · exact hvalue l'

theorem readSeconds_local (he : e.kind = .lineEnd) (l : List Token) :
    readSeconds.Local false l e := by
  rw [readSeconds_eq]
  apply local_peek_bind
  cases l with
  | nil =>
    dsimp only [List.nil_append, List.head?_cons]
    rw [if_neg (by simp [he])]
    exact local_fail _
  | cons t l =>
    dsimp only [List.cons_append, List.head?_cons]
    split
    · split
      · apply local_skip_bind
        exact local_pure _
      · exact local_fail _
    · exact local_fail _

theorem readWait_local (he : e.kind = .lineEnd) (start : Location) (l : List Token) :
    (readWait start).Local true l e := by
  apply local_expect_bind _ (by simp [he])
  intro _ l' _
  apply (readSeconds_local he l').bind
  intro seconds n
  apply local_expect_bind _ (by simp [he])
  intro _ l'' _
  exact local_pure _

theorem readEvaluation_local (he : e.kind = .lineEnd) (l : List Token) :
    readEvaluation.Local true l e := by
  apply (Expr.reader_local he l).bind
  intro value n
  exact (local_accept_end .lineEnd).map _

def opensOrClosesBody : Kind → Bool
  | .keyword .defWord | .keyword .ifWord => true
  | k => closesBody k

theorem closesBody_eq_false {k : Kind} (h : opensOrClosesBody k = false) : closesBody k = false := by
  unfold opensOrClosesBody at h
  split at h
  · cases h
  · cases h
  · exact h

theorem itemReader_local (he : e.kind = .lineEnd) {l : List Token}
    (hl : ∀ t ∈ l, opensOrClosesBody t.kind = false) : itemReader.Local true l e := by
  rw [itemReader_eq]
  apply local_peek_bind
  cases l with
  | nil =>
    dsimp only [List.nil_append, List.head?_cons]
    rw [he]
    exact ⟨⟨.ok none, 1, []⟩, Nat.le_refl 1, nofun, fun _ _ => rfl⟩
  | cons t l =>
    have ht := hl t List.mem_cons_self
    dsimp only [List.cons_append, List.head?_cons]
    split
    · next hk =>
      rw [hk] at ht
      cases ht
    · apply local_skip_bind
      exact (readDeclaration_local he _ l).map some
    · apply local_skip_bind
      exact (readMotion_local he _ _ l).map some
    · next hk =>
      rw [hk] at ht
      cases ht
    · apply local_skip_bind
      exact (readWait_local he _ l).map some
    · apply local_skip_bind
      exact local_pure none
    · apply local_skip_bind
      exact local_pure none
    · apply local_peekNext_bind
      cases l with
      | nil =>
        split
        · next h =>
          cases h
          cases he
        · exact (readEvaluation_local he [t]).map some
      | cons d l =>
        split
        · apply local_skip_bind
          apply local_skip_bind
          exact (readSetField_local he t l).map some
        · exact (readEvaluation_local he (t :: d :: l)).map some
    · exact (readEvaluation_local he (t :: l)).map some

end Statement

end ArmLang
