import ArmLang.Proofs.Grammar.Expr

namespace ArmLang

theorem Reader.acceptOrNote_of_kind {t : Token} {k : Kind} (h : t.kind = k) (e : GrammarError)
    (stop : Location) (rest : List Token) :
    acceptOrNote k e stop (t :: rest) = ⟨.ok (), 1, []⟩ := by
  rw [acceptOrNote, bind_apply, accept, if_pos h]
  rfl

namespace Expr

/-- Only operators of at least the height `n` come next. -/
def Follow (n : Nat) (rest : List Token) : Prop :=
  ∀ o ∈ rest.head?, ∀ op, BinaryOp.ofKind? o.kind = some op → n ≤ op.tier.height

/-- What comes next does not continue an expression. -/
def Closed (rest : List Token) : Prop :=
  ∀ o ∈ rest.head?, o.kind.infixSymbol? = none

theorem Follow.mono {m n : Nat} {rest : List Token} (h : Follow n rest) (hm : m ≤ n) :
    Follow m rest :=
  fun o ho op hop => Nat.le_trans hm (h o ho op hop)

theorem Closed.follow {rest : List Token} (h : Closed rest) (n : Nat) : Follow n rest := by
  intro o ho op hop
  have hn := h o ho
  unfold Kind.infixSymbol? at hn
  split at hn
  · cases hn
  · rw [hop] at hn
    cases hn

theorem readChain_of_follow {t : Tier} {rest : List Token} (h : Follow (t.height + 1) rest)
    (e : Expr) (stop : Location) : readChain t e stop rest = .value e := by
  match rest with
  | [] => rw [readChain]
  | o :: rest =>
    rw [readChain]
    cases ho : t.operator? o.kind with
    | none => rfl
    | some op =>
      obtain ⟨hk, rfl⟩ := Tier.operator?_eq_some.1 ho
      have hh := h o rfl op (by rw [hk, op.ofKind?_kind])
      omega

theorem readAssigned_of_closed {rest : List Token} (h : Closed rest) (e : Expr)
    (stop : Location) : readAssigned e stop rest = .value e := by
  match rest with
  | [] => rw [readAssigned]
  | o :: rest =>
    have hk : o.kind ≠ .assign := by
      intro hk
      have hn := h o rfl
      rw [hk] at hn
      cases hn
    rw [readAssigned, if_neg hk]

/-- The reader of a level reads the expression off its tokens, whatever follows that does not
belong to it. A tier reads on with its own operators. -/
def Reads : Level → List Token → Expr → Prop
  | .assignment, ts, e => ∀ stop rest, Closed rest →
    read stop (ts ++ rest) = ⟨.ok e, ts.length, []⟩
  | .tier t, ts, e => ∀ stop rest, Follow t.height rest →
    readTier t stop (ts ++ rest) = (readChain t e stop rest).after ts.length
  | .prefixed, ts, e => ∀ stop rest, readUnary stop (ts ++ rest) = ⟨.ok e, ts.length, []⟩
  | .primary, ts, e => ∀ stop rest, readPrimary stop (ts ++ rest) = ⟨.ok e, ts.length, []⟩

theorem Reads.tier_of_follow {t : Tier} {ts rest : List Token} {e : Expr}
    (h : Reads (.tier t) ts e) (hf : Follow (t.height + 1) rest) (stop : Location) :
    readTier t stop (ts ++ rest) = ⟨.ok e, ts.length, []⟩ := by
  rw [h stop rest (hf.mono (Nat.le_succ _)), readChain_of_follow hf]
  rfl

theorem Reads.operand {t : Tier} {ts rest : List Token} {e : Expr} (h : Reads t.operand ts e)
    (hf : Follow t.height rest) (stop : Location) :
    readOperand t stop (ts ++ rest) = ⟨.ok e, ts.length, []⟩ := by
  cases t with
  | product =>
    rw [readOperand]
    exact h stop rest
  | disjunction | conjunction | equality | comparison | sum =>
    rw [readOperand]
    exact Reads.tier_of_follow h hf stop

theorem Reads.tier {t : Tier} {ts : List Token} {e : Expr} (h : Reads t.operand ts e) :
    Reads (.tier t) ts e := by
  intro stop rest hf
  rw [readTier, h.operand hf, Reading.andThen_ok, List.drop_left]

theorem Reads.assignment {ts : List Token} {e : Expr} (h : Reads (.tier .disjunction) ts e) :
    Reads .assignment ts e := by
  intro stop rest hc
  rw [read, h.tier_of_follow (hc.follow _), Reading.andThen_ok, List.drop_left,
    readAssigned_of_closed hc]
  rfl

theorem Reads.prefixed {ts : List Token} {t : Token} {e : Expr} (h : Reads .primary (t :: ts) e)
    (ht : prefixOp? t.kind = none) : Reads .prefixed (t :: ts) e := by
  intro stop rest
  rw [List.cons_append, readUnary, ht]
  exact h stop rest

theorem Reads.disjunction_of_primary {ts : List Token} {t : Token} {e : Expr}
    (h : Reads .primary (t :: ts) e) (ht : prefixOp? t.kind = none) :
    Reads (.tier .disjunction) (t :: ts) e := by
  have hproduct : Reads (.tier .product) (t :: ts) e := Reads.tier (h.prefixed ht)
  have hsum : Reads (.tier .sum) (t :: ts) e := Reads.tier hproduct
  have hcomparison : Reads (.tier .comparison) (t :: ts) e := Reads.tier hsum
  have hequality : Reads (.tier .equality) (t :: ts) e := Reads.tier hcomparison
  exact Reads.tier (Reads.tier hequality)

theorem Reads.leaf {t : Token} {e : Expr} (h : Leaf t e) : Reads .primary [t] e := by
  intro stop rest
  rw [List.singleton_append, readPrimary, if_neg h.kind_ne, leaf_iff_ofToken.1 h]
  rfl

theorem Reads.parens {o c : Token} {ts : List Token} {e : Expr} (ho : o.kind = .leftParen)
    (h : Reads .assignment ts e) (hc : c.kind = .rightParen) :
    Reads .primary (o :: (ts ++ [c])) e := by
  intro stop rest
  have hclosed : Closed (c :: rest) := by
    intro t ht
    cases ht
    rw [hc]
    rfl
  rw [List.cons_append, readPrimary, if_pos ho, List.append_assoc, List.singleton_append,
    h stop _ hclosed]
  dsimp only
  rw [List.drop_left, Reader.acceptOrNote_of_kind hc]
  rw [Reading.after_ok, Reading.andThen_ok]
  simp only [Reading.map, Reading.andThen_ok, Reading.value, Reading.after_ok, List.length_cons,
    List.length_append, List.length_nil]
  congr 1
  omega

theorem Reads.unary {t : Token} {op : UnaryOp} {ts : List Token} {e : Expr}
    (ht : t.kind = op.kind) (h : Reads .prefixed ts e) :
    Reads .prefixed (t :: ts) (unary op e t.location) := by
  intro stop rest
  rw [List.cons_append, readUnary, ht, prefixOp?_kind]
  dsimp only
  rw [h stop rest, Reading.after_ok, Reading.map, Reading.andThen_ok, Reading.value,
    Reading.after_ok, List.length_cons, Nat.add_zero, Nat.add_comm]

theorem Reads.binary {o : Token} {op : BinaryOp} {ts us : List Token} {a b : Expr}
    (ha : Reads (.tier op.tier) ts a) (ho : o.kind = op.kind) (hb : Reads op.tier.operand us b) :
    Reads (.tier op.tier) (ts ++ o :: us) (binary op a b a.location) := by
  intro stop rest hf
  have hfollow : Follow op.tier.height (o :: (us ++ rest)) := by
    intro t ht op' hop
    cases ht
    rw [ho, op.ofKind?_kind] at hop
    cases hop
    exact Nat.le_refl _
  have hop : op.tier.operator? o.kind = some op := Tier.operator?_eq_some.2 ⟨ho, rfl⟩
  rw [List.append_assoc, List.cons_append, ha stop _ hfollow, readChain, hop]
  dsimp only
  rw [hb.operand hf, List.drop_left, Reading.after_ok, Reading.andThen_ok, Reading.after_after,
    List.length_append, List.length_cons, Nat.add_comm us.length]

theorem Reads.assign {o : Token} {ts us : List Token} {name : String} {place : Location}
    {e : Expr} (ht : Reads (.tier .disjunction) ts (var name place)) (ho : o.kind = .assign)
    (he : Reads .assignment us e) :
    Reads .assignment (ts ++ o :: us) (assign (var name place) e place) := by
  intro stop rest hc
  have hfollow : Follow 6 (o :: (us ++ rest)) := by
    intro t ht op hop
    cases ht
    rw [ho] at hop
    cases hop
  rw [List.append_assoc, List.cons_append, read, ht.tier_of_follow hfollow, Reading.andThen_ok,
    List.drop_left, readAssigned, if_pos ho, he stop rest hc, Reading.after_ok,
    Reading.andThen_ok, Reading.after_after, List.length_append, List.length_cons,
    Nat.add_comm us.length]
  rfl

theorem Derives.primary_head {ts : List Token} {e : Expr} (h : Derives .primary ts e) :
    ∃ t us, ts = t :: us ∧ prefixOp? t.kind = none := by
  generalize hl : Level.primary = level at h
  induction h with
  | leaf h => exact ⟨_, [], rfl, h.prefixOp?_eq_none⟩
  | parens ho _ _ _ => exact ⟨_, _, rfl, by rw [ho]; rfl⟩
  | unary | binary | assign => cases hl
  | tighter _ ih =>
    apply ih
    rw [← hl]
    rfl

theorem Reads.of_tighter {level : Level} {ts : List Token} {e : Expr}
    (h : Reads level.tighter ts e) (hd : Derives level.tighter ts e) : Reads level ts e := by
  cases level with
  | assignment => exact h.assignment
  | tier t => exact h.tier
  | prefixed =>
    obtain ⟨t, us, rfl, hp⟩ := hd.primary_head
    exact h.prefixed hp
  | primary => exact h

/-- Every expression of the grammar is read back by the reader of its level. -/
theorem Derives.reads {level : Level} {ts : List Token} {e : Expr} (h : Derives level ts e) :
    Reads level ts e := by
  induction h with
  | leaf h => exact .leaf h
  | parens ho _ hc ih => exact .parens ho ih hc
  | unary ht _ ih => exact .unary ht ih
  | binary ha ho _ hl iha ihb =>
    rw [ha.origin_append hl]
    exact iha.binary ho ihb
  | assign ht ho _ hl iht ihe =>
    rw [ht.origin_append hl]
    obtain ⟨t, us, rfl, hp⟩ := ht.primary_head
    exact (iht.disjunction_of_primary hp).assign ho ihe
  | tighter h ih => exact ih.of_tighter h

end Expr

end ArmLang
