import ArmLang.Program.ReadExpr

namespace ArmLang

/-- How tightly an expression holds together, from assignments to single tokens. -/
inductive Level
  | assignment
  | tier (t : Tier)
  | prefixed
  | primary
  deriving DecidableEq, Repr

def Tier.operand : Tier → Level
  | disjunction => .tier .conjunction
  | conjunction => .tier .equality
  | equality => .tier .comparison
  | comparison => .tier .sum
  | sum => .tier .product
  | product => .prefixed

def Level.tighter : Level → Level
  | assignment => tier .disjunction
  | tier t => t.operand
  | prefixed | primary => primary

def UnaryOp.kind : UnaryOp → Kind
  | negate => .minus
  | not => .not

theorem UnaryOp.kind_ne (op : UnaryOp) : op.kind ≠ .leftParen := by
  cases op <;> decide

theorem prefixOp?_kind (op : UnaryOp) : Expr.prefixOp? op.kind = some op := by
  cases op <;> rfl

theorem kind_of_prefixOp? {k : Kind} {op : UnaryOp} (h : Expr.prefixOp? k = some op) :
    k = op.kind := by
  unfold Expr.prefixOp? at h
  split at h <;> cases h <;> rfl

theorem Tier.operator?_eq_some {t : Tier} {k : Kind} {op : BinaryOp} :
    t.operator? k = some op ↔ k = op.kind ∧ op.tier = t := by
  rw [operator?, Option.filter_eq_some_iff, decide_eq_true_iff]
  constructor
  · rintro ⟨hk, ht⟩
    exact ⟨(BinaryOp.kind_of_ofKind? hk).symm, ht⟩
  · rintro ⟨rfl, ht⟩
    exact ⟨op.ofKind?_kind, ht⟩

/-- The place of the first token that is no opening parenthesis. -/
def origin? (ts : List Token) : Option Location :=
  (ts.find? (·.kind ≠ .leftParen)).map (·.location)

theorem origin?_append {ts : List Token} {l : Location} (h : origin? ts = some l)
    (us : List Token) : origin? (ts ++ us) = some l := by
  obtain ⟨t, ht, hl⟩ := Option.map_eq_some_iff.1 h
  rw [origin?, List.find?_append, ht]
  exact congrArg some hl

theorem origin?_cons_leftParen {t : Token} (h : t.kind = .leftParen) (ts : List Token) :
    origin? (t :: ts) = origin? ts := by
  rw [origin?, List.find?_cons_of_neg (by simp [h])]
  rfl

theorem origin?_cons {t : Token} (h : t.kind ≠ .leftParen) (ts : List Token) :
    origin? (t :: ts) = some t.location := by
  rw [origin?, List.find?_cons_of_pos (by simp [h])]
  rfl

namespace Expr

inductive Leaf : Token → Expr → Prop
  | truth : t.kind = .keyword (.truth b) → Leaf t (literal (.bool b) t.location)
  | pi : t.kind = .keyword .pi → Leaf t (literal (.real piValue) t.location)
  | integer : t.kind = .integer → Number.integer? t.text = some n →
      Leaf t (literal (.int n) t.location)
  | real : t.kind = .real → Number.real? t.text = some x → Leaf t (literal (.real x) t.location)
  | text : t.kind = .text → Leaf t (literal (.char (Text.Quoted.decode t.text)) t.location)
  | name : t.kind ∈ [.identifier, .input, .output] → Leaf t (var t.text t.location)

/-- The grammar of expressions, by level. -/
inductive Derives : Level → List Token → Expr → Prop
  | leaf : Leaf t e → Derives .primary [t] e
  | parens : o.kind = .leftParen → Derives .assignment ts e → c.kind = .rightParen →
      Derives .primary (o :: (ts ++ [c])) e
  | unary : t.kind = op.kind → Derives .prefixed ts e →
      Derives .prefixed (t :: ts) (unary op e t.location)
  | binary : Derives (.tier op.tier) ts a → o.kind = op.kind → Derives op.tier.operand us b →
      origin? (ts ++ o :: us) = some l →
      Derives (.tier op.tier) (ts ++ o :: us) (binary op a b l)
  | assign : Derives .primary ts (var name place) → o.kind = .assign →
      Derives .assignment us e → origin? (ts ++ o :: us) = some l →
      Derives .assignment (ts ++ o :: us) (assign (var name place) e l)
  | tighter : Derives l.tighter ts e → Derives l ts e

theorem leaf_iff_ofToken {t : Token} {e : Expr} : Leaf t e ↔ ofToken t = .ok e := by
  constructor
  · intro h
    unfold ofToken
    cases h with
    | truth hk => rw [hk]
    | pi hk => rw [hk]
    | integer hk hn => simp only [hk, hn]
    | real hk hx => simp only [hk, hx]
    | text hk => rw [hk]
    | name hk =>
      simp only [List.mem_cons, List.not_mem_nil, or_false] at hk
      rcases hk with hk | hk | hk <;> rw [hk]
  · intro h
    unfold ofToken at h
    split at h
    · next hk => cases h; exact .truth hk
    · next hk => cases h; exact .pi hk
    · next hk =>
      split at h
      · next hn => cases h; exact .integer hk hn
      · cases h
    · next hk =>
      split at h
      · next hx => cases h; exact .real hk hx
      · cases h
    · next hk => cases h; exact .text hk
    · next hk => cases h; exact .name (by simp [hk])
    · next hk => cases h; exact .name (by simp [hk])
    · next hk => cases h; exact .name (by simp [hk])
    · cases h

theorem Leaf.location {t : Token} {e : Expr} (h : Leaf t e) : e.location = t.location := by
  cases h <;> rfl

theorem Leaf.kind_ne {t : Token} {e : Expr} (h : Leaf t e) : t.kind ≠ .leftParen := by
  intro hk
  have ht := leaf_iff_ofToken.1 h
  unfold ofToken at ht
  rw [hk] at ht
  cases ht

theorem Leaf.prefixOp?_eq_none {t : Token} {e : Expr} (h : Leaf t e) :
    prefixOp? t.kind = none := by
  cases hp : prefixOp? t.kind with
  | none => rfl
  | some op =>
    have ht := leaf_iff_ofToken.1 h
    unfold ofToken at ht
    rw [kind_of_prefixOp? hp] at ht
    cases op <;> cases ht

theorem Derives.origin {level : Level} {ts : List Token} {e : Expr} (h : Derives level ts e) :
    origin? ts = some e.location := by
  induction h with
  | leaf hl => rw [origin?_cons hl.kind_ne, hl.location]
  | parens ho _ _ ih =>
    rw [origin?_cons_leftParen ho]
    exact origin?_append ih _
  | unary ht _ _ =>
    apply origin?_cons
    rw [ht]
    exact UnaryOp.kind_ne _
  | binary _ _ _ hl _ _ => exact hl
  | assign _ _ _ hl _ _ => exact hl
  | tighter _ ih => exact ih

theorem Derives.origin_append {level : Level} {ts us : List Token} {e : Expr} {l : Location}
    (h : Derives level ts e) (hl : origin? (ts ++ us) = some l) : l = e.location := by
  rw [origin?_append h.origin] at hl
  exact (Option.some.inj hl).symm

theorem eq_var_of_varName? {e : Expr} {name : String} (h : e.varName? = some name) :
    ∃ place, e = var name place := by
  cases e with
  | var n place =>
    cases h
    exact ⟨place, rfl⟩
  | literal | unary | binary | assign => cases h

/-- A variable is written as itself or with parentheses around it, at whatever level. -/
theorem Derives.primary_of_var {level : Level} {ts : List Token} {name : String}
    {place : Location} (h : Derives level ts (var name place)) :
    Derives .primary ts (var name place) := by
  generalize he : var name place = e at h
  induction h with
  | leaf hl => exact .leaf hl
  | parens ho hd hc _ => exact .parens ho hd hc
  | unary => cases he
  | binary => cases he
  | assign => cases he
  | tighter _ ih => exact ih he

end Expr

end ArmLang
