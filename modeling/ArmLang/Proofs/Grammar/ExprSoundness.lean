import ArmLang.Proofs.Grammar.Expr

namespace ArmLang

namespace Reading

/-- If something was read and nothing noted, it is what `P` says of exactly the tokens that were
used up. -/
def Grounded (r : Reading α) (s : List Token) (P : List Token → α → Prop) : Prop :=
  ∀ a, r.outcome = .ok a → r.noted = [] →
    ∃ ts rest, s = ts ++ rest ∧ r.used = ts.length ∧ P ts a

variable {P : List Token → α → Prop} {Q : List Token → β → Prop}

theorem grounded_value {a : α} (h : P [] a) (s : List Token) : (value a).Grounded s P := by
  intro b hb _
  cases hb
  exact ⟨[], s, rfl, rfl, h⟩

theorem grounded_one {a : α} {t : Token} (h : P [t] a) (s : List Token) :
    Grounded ⟨.ok a, 1, []⟩ (t :: s) P := by
  intro b hb _
  cases hb
  exact ⟨[t], s, rfl, rfl, h⟩

theorem grounded_failure (e : GrammarError) (l : Location) (s : List Token) :
    (failure e l : Reading α).Grounded s P := by
  intro b hb
  cases hb

theorem grounded_noting (a : α) (e : GrammarError) (l : Location) (s : List Token) :
    (noting a e l).Grounded s P := by
  intro b _ hn
  cases hn

theorem Grounded.imp_of_eq {P' : List Token → α → Prop} {r : Reading α} {s : List Token}
    (h : r.Grounded s P) (hp : ∀ ts rest a, s = ts ++ rest → P ts a → P' ts a) :
    r.Grounded s P' := by
  intro a ha hn
  obtain ⟨ts, rest, hs, hu, h⟩ := h a ha hn
  exact ⟨ts, rest, hs, hu, hp ts rest a hs h⟩

theorem Grounded.imp {P' : List Token → α → Prop} {r : Reading α} {s : List Token}
    (h : r.Grounded s P) (hp : ∀ ts a, P ts a → P' ts a) : r.Grounded s P' :=
  h.imp_of_eq fun ts _ a _ => hp ts a

theorem Grounded.after_one {r : Reading α} {s : List Token} (h : r.Grounded s P) (t : Token) :
    (r.after 1).Grounded (t :: s) fun ts a => ∃ us, ts = t :: us ∧ P us a := by
  intro a ha hn
  obtain ⟨ts, rest, rfl, hu, h⟩ := h a ha hn
  refine ⟨t :: ts, rest, rfl, ?_, ts, rfl, h⟩
  rw [after, hu, List.length_cons, Nat.add_comm]

theorem Grounded.andThen_of_eq {r : Reading α} {f : α → Reading β} {s : List Token}
    (hr : r.Grounded s P)
    (hf : ∀ ts a, s = ts ++ s.drop r.used → P ts a →
      (f a).Grounded (s.drop r.used) fun us b => Q (ts ++ us) b) :
    (r.andThen f).Grounded s Q := by
  intro b hb hn
  unfold Reading.andThen at hb hn ⊢
  split at hb
  · cases hb
  · next a ha =>
    rw [ha] at hn
    dsimp only at hb hn ⊢
    obtain ⟨hnr, hnf⟩ := List.append_eq_nil_iff.1 hn
    obtain ⟨ts, rest, hs, hu, hp⟩ := hr a ha hnr
    have hrest : s.drop r.used = rest := by rw [hs, hu, List.drop_left]
    rw [hrest] at hf
    obtain ⟨us, rest', hs', hu', hq⟩ := hf ts a hs hp b hb hnf
    refine ⟨ts ++ us, rest', ?_, ?_, hq⟩
    · rw [hs, hs', List.append_assoc]
    · rw [List.length_append, ← hu, ← hu']

theorem Grounded.andThen {r : Reading α} {f : α → Reading β} {s : List Token}
    (hr : r.Grounded s P)
    (hf : ∀ ts a, P ts a → (f a).Grounded (s.drop r.used) fun us b => Q (ts ++ us) b) :
    (r.andThen f).Grounded s Q :=
  hr.andThen_of_eq fun ts a _ => hf ts a

theorem Grounded.after_one_andThen {r : Reading α} {f : α → Reading β} {s : List Token}
    (hr : r.Grounded s P) {t : Token}
    (hf : ∀ ts a, P ts a → (f a).Grounded (s.drop r.used) fun us b => Q (t :: (ts ++ us)) b) :
    ((r.after 1).andThen f).Grounded (t :: s) Q := by
  apply (hr.after_one t).andThen
  rintro _ a ⟨ts, rfl, ha⟩
  rw [after, Nat.add_comm, List.drop_succ_cons]
  exact hf ts a ha

theorem Grounded.map {r : Reading α} {f : α → β} {s : List Token} (hr : r.Grounded s P)
    (hf : ∀ ts a, P ts a → Q ts (f a)) : (r.map f).Grounded s Q := by
  apply hr.andThen
  intro ts a ha
  apply grounded_value
  rw [List.append_nil]
  exact hf ts a ha

end Reading

namespace Reader

def Grounded (r : Reader α) (P : List Token → α → Prop) : Prop :=
  ∀ stop s, (r stop s).Grounded s P

variable {P : List Token → α → Prop} {Q : List Token → β → Prop}

theorem grounded_pure {a : α} (h : P [] a) : (pure a : Reader α).Grounded P :=
  fun _ s => Reading.grounded_value h s

theorem Grounded.bind {r : Reader α} {f : α → Reader β} (hr : r.Grounded P)
    (hf : ∀ ts a, P ts a → (f a).Grounded fun us b => Q (ts ++ us) b) :
    (r >>= f).Grounded Q := by
  intro stop s
  apply (hr stop s).andThen
  intro ts a ha
  exact hf ts a ha stop _

theorem grounded_failAt (e : GrammarError) (l : Location) :
    (failAt e l : Reader α).Grounded P :=
  fun _ s => Reading.grounded_failure e l s

theorem grounded_expect (k : Kind) (e : GrammarError) :
    (expect k e).Grounded fun ts t => ts = [t] ∧ t.kind = k := by
  intro stop s
  match s with
  | [] => exact Reading.grounded_failure e stop []
  | t :: s =>
    unfold expect
    dsimp only
    split
    · next hk => exact Reading.grounded_one (And.intro rfl hk) s
    · exact Reading.grounded_failure e t.location _

inductive Accepted (k : Kind) : List Token → Bool → Prop
  | present : t.kind = k → Accepted k [t] true
  | absent : Accepted k [] false

theorem grounded_accept (k : Kind) : (accept k).Grounded (Accepted k) := by
  intro stop s
  match s with
  | [] => exact Reading.grounded_value .absent []
  | t :: s =>
    unfold accept
    dsimp only
    split
    · next hk => exact Reading.grounded_one (.present hk) s
    · exact Reading.grounded_value .absent _

theorem grounded_acceptOrNote (k : Kind) (e : GrammarError) :
    (acceptOrNote k e).Grounded fun ts _ => ∃ t, ts = [t] ∧ t.kind = k := by
  apply (grounded_accept k).bind
  intro ts b hb
  cases hb with
  | present hk => exact grounded_pure ⟨_, rfl, hk⟩
  | absent =>
    intro stop s
    exact Reading.grounded_noting () e _ s

end Reader

namespace Expr

mutual

theorem read_grounded (stop : Location) (s : List Token) :
    (read stop s).Grounded s (Derives .assignment) := by
  rw [read]
  apply (readTier_grounded .disjunction stop s).andThen
  intro ts target ht
  exact readAssigned_grounded ht stop _
termination_by 20 * s.length + 16
decreasing_by
  · simp [Tier.height]
  · simp only [List.length_drop]
    omega

theorem readAssigned_grounded {ts : List Token} {target : Expr}
    (ht : Derives (.tier .disjunction) ts target) (stop : Location) (s : List Token) :
    (readAssigned target stop s).Grounded s fun us e => Derives .assignment (ts ++ us) e := by
  have halone : Derives .assignment (ts ++ []) target := by
    rw [List.append_nil]
    exact .tighter ht
  match s with
  | [] =>
    rw [readAssigned]
    exact Reading.grounded_value halone []
  | t :: rest =>
    rw [readAssigned]
    split
    · next hk =>
      apply (read_grounded stop rest).after_one_andThen
      intro us e he
      split
      · next name hn =>
        obtain ⟨place, rfl⟩ := eq_var_of_varName? hn
        apply Reading.grounded_value
        rw [List.append_nil]
        exact .assign ht.primary_of_var hk he (origin?_append ht.origin _)
      · exact Reading.grounded_noting target _ t.location _
    · exact Reading.grounded_value halone _
termination_by 20 * s.length

theorem readTier_grounded (t : Tier) (stop : Location) (s : List Token) :
    (readTier t stop s).Grounded s (Derives (.tier t)) := by
  rw [readTier]
  apply (readOperand_grounded t stop s).andThen
  intro ts left hl
  exact readChain_grounded (.tighter hl) stop _
termination_by 20 * s.length + 2 * t.height + 5
decreasing_by
  · omega
  · simp only [List.length_drop]
    omega

theorem readChain_grounded {t : Tier} {ts : List Token} {left : Expr}
    (hl : Derives (.tier t) ts left) (stop : Location) (s : List Token) :
    (readChain t left stop s).Grounded s fun us e => Derives (.tier t) (ts ++ us) e := by
  have halone : Derives (.tier t) (ts ++ []) left := by
    rw [List.append_nil]
    exact hl
  match s with
  | [] =>
    rw [readChain]
    exact Reading.grounded_value halone []
  | o :: rest =>
    rw [readChain]
    split
    · exact Reading.grounded_value halone _
    · next op ho =>
      obtain ⟨hk, ht⟩ := Tier.operator?_eq_some.1 ho
      apply (readOperand_grounded t stop rest).after_one_andThen
      intro us e he
      have hb : Derives (.tier t) (ts ++ o :: us) (binary op left e left.location) := by
        subst ht
        exact .binary hl hk he (origin?_append hl.origin _)
      exact (readChain_grounded hb stop _).imp fun vs e' h => by simpa using h
termination_by 20 * s.length
decreasing_by
  · have := t.height_le
    simp only [List.length_cons]
    omega
  · simp only [List.length_cons, List.length_drop]
    omega

theorem readOperand_grounded (t : Tier) (stop : Location) (s : List Token) :
    (readOperand t stop s).Grounded s (Derives t.operand) := by
  cases t with
  | disjunction =>
    rw [readOperand]
    exact readTier_grounded .conjunction stop s
  | conjunction =>
    rw [readOperand]
    exact readTier_grounded .equality stop s
  | equality =>
    rw [readOperand]
    exact readTier_grounded .comparison stop s
  | comparison =>
    rw [readOperand]
    exact readTier_grounded .sum stop s
  | sum =>
    rw [readOperand]
    exact readTier_grounded .product stop s
  | product =>
    rw [readOperand]
    exact readUnary_grounded stop s
termination_by 20 * s.length + 2 * t.height + 4
decreasing_by all_goals simp [Tier.height]

theorem readUnary_grounded (stop : Location) (s : List Token) :
    (readUnary stop s).Grounded s (Derives .prefixed) := by
  match s with
  | [] =>
    rw [readUnary]
    exact (readPrimary_grounded stop []).imp fun _ _ h => .tighter h
  | t :: rest =>
    rw [readUnary]
    split
    · next op ho =>
      apply ((readUnary_grounded stop rest).after_one t).map
      rintro _ e ⟨ts, rfl, he⟩
      exact .unary (kind_of_prefixOp? ho) he
    · exact (readPrimary_grounded stop (t :: rest)).imp fun _ _ h => .tighter h
termination_by 20 * s.length + 2

theorem readPrimary_grounded (stop : Location) (s : List Token) :
    (readPrimary stop s).Grounded s (Derives .primary) := by
  match s with
  | [] =>
    rw [readPrimary]
    exact Reading.grounded_failure _ stop []
  | t :: rest =>
    rw [readPrimary]
    split
    · next hk =>
      apply (read_grounded stop rest).after_one_andThen
      intro ts e he
      apply (Reader.grounded_acceptOrNote .rightParen .noClosing stop _).map
      rintro _ _ ⟨c, rfl, hc⟩
      exact .parens hk he hc
    · split
      · next e he => exact Reading.grounded_one (.leaf (leaf_iff_ofToken.2 he)) rest
      · exact Reading.grounded_failure _ t.location _
termination_by 20 * s.length + 1

end

end Expr

end ArmLang
