import ArmLang.Proofs.Program.Combinators

namespace ArmLang

/-- The problem is what stopped the reading, or it was noted on the way. -/
def Reading.Reports (r : Reading α) (i : Issue GrammarError) : Prop :=
  r.outcome = .error i ∨ i ∈ r.noted

theorem Reading.reports_andThen {r : Reading α} {f : α → Reading β} {i : Issue GrammarError} :
    (r.andThen f).Reports i ↔ r.Reports i ∨ ∃ a, r.outcome = .ok a ∧ (f a).Reports i := by
  obtain ⟨outcome, n, noted⟩ := r
  cases outcome with
  | error j => simp [Reports, andThen]
  | ok a => simp [Reports, andThen, or_left_comm]

/-- Whether the problem is with the value of a numeral. -/
def GrammarError.isNumeral : GrammarError → Bool
  | badWaitTime | integerOutOfRange | badReal => true
  | _ => false

namespace Reading

/-- Nothing is wrong with the value of a numeral. -/
def Quiet (r : Reading α) : Prop := ∀ i, r.Reports i → i.cause.isNumeral = false

theorem quiet_ok (a : α) (n : Nat) : Quiet ⟨.ok a, n, []⟩ := by
  rintro i (h | h)
  · cases h
  · cases h

theorem quiet_failure {e : GrammarError} (he : e.isNumeral = false) (l : Location) :
    (failure e l : Reading α).Quiet := by
  rintro i (h | h)
  · cases h
    exact he
  · cases h

theorem quiet_noting (a : α) {e : GrammarError} (he : e.isNumeral = false) (l : Location) :
    (noting a e l).Quiet := by
  rintro i (h | h)
  · cases h
  · cases List.mem_singleton.1 h
    exact he

end Reading

namespace Reader

/-- One reader runs another: as it is, in its first part, in what comes after that part, or for the
statement of a round. The other one then reads off `u`. -/
inductive Runs (q : Reader β) (stop : Location) :
    {α : Type} → Reader α → List Token → List Token → Prop
  | self {s : List Token} : Runs q stop q s s
  | first {α γ : Type} {r : Reader α} {f : α → Reader γ} {s u : List Token} :
    Runs q stop r s u → Runs q stop (r >>= f) s u
  | next {α γ : Type} {r : Reader α} {f : α → Reader γ} {s u : List Token} {a : α} {n : Nat}
    {noted : List (Issue GrammarError)} : r stop s = ⟨.ok a, n, noted⟩ →
    Runs q stop (f a) (s.drop n) u → Runs q stop (r >>= f) s u
  | round {s u : List Token} : Runs q stop Statement.itemReader s u →
    Runs q stop Statement.roundReader s u

variable {stop : Location} {s u : List Token} {i : Issue GrammarError}

theorem Runs.suffix {q : Reader β} {r : Reader α} (h : Runs q stop r s u) : u <:+ s := by
  induction h with
  | self => exact List.suffix_rfl
  | first _ ih => exact ih
  | next _ _ ih => exact ih.trans (List.drop_suffix ..)
  | round _ ih => exact ih

theorem reports_recover (r : Reading (Option Statement)) :
    (Statement.recover s r).Reports i ↔ r.Reports i := by
  obtain ⟨outcome, n, noted⟩ := r
  cases outcome with
  | ok o => exact Iff.rfl
  | error j => simp [Reading.Reports, Statement.recover, or_comm, eq_comm]

/-- What goes wrong in a part of the reading is reported by the whole. -/
theorem Runs.reports {q : Reader β} {r : Reader α} (h : Runs q stop r s u)
    (hi : (q stop u).Reports i) : (r stop s).Reports i := by
  induction h with
  | self => exact hi
  | first _ ih => exact Reading.reports_andThen.2 (.inl (ih hi))
  | next hr _ ih =>
    refine Reading.reports_andThen.2 (.inr ⟨_, by rw [hr], ?_⟩)
    rw [hr]
    exact ih hi
  | round _ ih => exact (reports_recover _).2 (ih hi)

/-- Where problems with numerals come from: an operand of an expression that is read, or a number of
seconds that is read. -/
inductive Origin (stop : Location) (r : Reader α) (s : List Token) : Issue GrammarError → Prop
  | operand {t : Token} {rest : List Token} {e : GrammarError} :
    Runs Expr.primaryReader stop r s (t :: rest) → Expr.ofToken t = .error e →
    Origin stop r s ⟨e, t.location⟩
  | seconds {t : Token} {rest : List Token} : Runs Statement.readSeconds stop r s (t :: rest) →
    t.kind = .integer ∨ t.kind = .real → Number.real? t.text = none →
    Origin stop r s ⟨.badWaitTime, t.location⟩

/-- Every problem with a numeral that is reported comes from a numeral that is read. -/
def Accounts (r : Reader α) (stop : Location) (s : List Token) : Prop :=
  ∀ i, (r stop s).Reports i → i.cause.isNumeral → Origin stop r s i

theorem Origin.of_runs {r : Reader α} {r' : Reader β} {s' : List Token}
    (h : Origin stop r s i)
    (hruns : ∀ {γ : Type} {q : Reader γ} {u : List Token},
      Runs q stop r s u → Runs q stop r' s' u) : Origin stop r' s' i := by
  cases h with
  | operand hu ht => exact .operand (hruns hu) ht
  | seconds hu hkind ht => exact .seconds (hruns hu) hkind ht

variable {e : GrammarError}

theorem accounts_of_quiet {r : Reader α} (h : (r stop s).Quiet) : Accounts r stop s := by
  intro i hi hnumeral
  rw [h i hi] at hnumeral
  cases hnumeral

theorem accounts_of_ok {r : Reader α} {a : α} {n : Nat} (h : r stop s = ⟨.ok a, n, []⟩) :
    Accounts r stop s := by
  apply accounts_of_quiet
  rw [h]
  exact Reading.quiet_ok a n

theorem accounts_of_origin {r : Reader α} {l : Location} (h : r stop s = .failure e l)
    (horigin : Origin stop r s ⟨e, l⟩) : Accounts r stop s := by
  intro i hi _
  rw [h] at hi
  obtain h | h := hi
  · cases h
    exact horigin
  · cases h

theorem accounts_pure (a : α) : Accounts (pure a) stop s :=
  accounts_of_quiet (Reading.quiet_ok a 0)

theorem accounts_failAt (he : e.isNumeral = false) (l : Location) :
    Accounts (failAt e l : Reader α) stop s :=
  accounts_of_quiet (Reading.quiet_failure he l)

theorem accounts_fail (he : e.isNumeral = false) : Accounts (fail e : Reader α) stop s :=
  accounts_of_quiet (Reading.quiet_failure he _)

theorem accounts_noteAt (he : e.isNumeral = false) (l : Location) :
    Accounts (noteAt e l) stop s :=
  accounts_of_quiet (Reading.quiet_noting () he l)

theorem accounts_note (he : e.isNumeral = false) : Accounts (note e) stop s :=
  accounts_of_quiet (Reading.quiet_noting () he _)

theorem accounts_here : Accounts here stop s :=
  accounts_of_quiet (Reading.quiet_ok _ 0)

theorem accounts_peek : Accounts peek stop s :=
  accounts_of_quiet (Reading.quiet_ok _ 0)

theorem accounts_peekNext : Accounts peekNext stop s :=
  accounts_of_quiet (Reading.quiet_ok _ 0)

theorem accounts_skip : Accounts skip stop s :=
  accounts_of_quiet (Reading.quiet_ok () 1)

theorem accounts_expect (k : Kind) (he : e.isNumeral = false) :
    Accounts (expect k e) stop s := by
  apply accounts_of_quiet
  unfold expect
  split
  · split
    · exact Reading.quiet_ok _ 1
    · exact Reading.quiet_failure he _
  · exact Reading.quiet_failure he _

theorem accounts_accept (k : Kind) : Accounts (accept k) stop s := by
  apply accounts_of_quiet
  unfold accept
  split
  · split
    · exact Reading.quiet_ok true 1
    · exact Reading.quiet_ok false 0
  · exact Reading.quiet_ok false 0

theorem accounts_ite {p : Prop} [Decidable p] {r t : Reader α} (hr : p → Accounts r stop s)
    (ht : ¬ p → Accounts t stop s) : Accounts (if p then r else t) stop s := by
  split
  · next h => exact hr h
  · next h => exact ht h

theorem Accounts.bind_of_ok {r : Reader α} {f : α → Reader β} (hr : Accounts r stop s)
    (hf : ∀ a n noted, r stop s = ⟨.ok a, n, noted⟩ → Accounts (f a) stop (s.drop n)) :
    Accounts (r >>= f) stop s := by
  intro i h hi
  obtain h | ⟨a, ha, h⟩ := Reading.reports_andThen.1 h
  · exact (hr i h hi).of_runs .first
  · have hq : r stop s = ⟨.ok a, (r stop s).used, (r stop s).noted⟩ := by rw [← ha]
    exact (hf a _ _ hq i h hi).of_runs (.next hq)

theorem Accounts.bind {r : Reader α} {f : α → Reader β} (hr : Accounts r stop s)
    (hf : ∀ a n, Accounts (f a) stop (s.drop n)) : Accounts (r >>= f) stop s :=
  hr.bind_of_ok fun a n _ _ => hf a n

theorem Accounts.map {r : Reader α} (hr : Accounts r stop s) (f : α → β) :
    Accounts (r >>= fun a => pure (f a)) stop s :=
  hr.bind fun _ _ => accounts_pure _

theorem peek_cons (stop : Location) (t : Token) (s : List Token) :
    peek stop (t :: s) = ⟨.ok (some t), 0, []⟩ :=
  rfl

theorem accounts_peek_bind {f : Option Token → Reader α} (h : Accounts (f s.head?) stop s) :
    Accounts (peek >>= f) stop s := by
  apply accounts_peek.bind_of_ok
  intro o n noted ho
  cases ho
  exact h

theorem accounts_peekNext_bind {f : Option Token → Reader α}
    (h : Accounts (f s.tail.head?) stop s) : Accounts (peekNext >>= f) stop s := by
  apply accounts_peekNext.bind_of_ok
  intro o n noted ho
  cases ho
  exact h

theorem accounts_skip_bind {r : Reader α} (t : Token) (h : Accounts r stop s) :
    Accounts (skip >>= fun _ => r) stop (t :: s) := by
  apply accounts_skip.bind_of_ok
  intro _ n noted hn
  cases hn
  exact h

theorem accounts_expect_bind {k : Kind} {f : Token → Reader α} (he : e.isNumeral = false)
    (hf : ∀ t l, s = t :: l → Accounts (f t) stop l) : Accounts (expect k e >>= f) stop s := by
  apply (accounts_expect k he).bind_of_ok
  intro t n noted ht
  unfold expect at ht
  split at ht
  · next u l =>
    split at ht
    · cases ht
      exact hf t l rfl
    · cases ht
  · cases ht

theorem accounts_accept_bind {k : Kind} {f : Bool → Reader α}
    (htrue : ∀ t l, s = t :: l → Accounts (f true) stop l) (hfalse : Accounts (f false) stop s) :
    Accounts (accept k >>= f) stop s := by
  apply (accounts_accept k).bind_of_ok
  intro present n noted hp
  unfold accept at hp
  split at hp
  · next t l =>
    split at hp
    · cases hp
      exact htrue t l rfl
    · cases hp
      exact hfalse
  · cases hp
    exact hfalse

theorem accounts_acceptOrNote (k : Kind) (he : e.isNumeral = false) :
    Accounts (acceptOrNote k e) stop s := by
  apply (accounts_accept k).bind
  intro present n
  cases present with
  | true => exact accounts_pure ()
  | false => exact accounts_note he

theorem Accounts.round (h : Accounts Statement.itemReader stop s) :
    Accounts Statement.roundReader stop s := by
  intro i hi hnumeral
  exact (h i ((reports_recover _).1 hi) hnumeral).of_runs .round

end Reader

end ArmLang
