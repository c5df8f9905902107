import ArmLang.Proofs.Grammar.ExprCompleteness
import ArmLang.Proofs.Numeral.Value
import ArmLang.Proofs.Rendering.Spelling

namespace ArmLang

theorem Shape.isDigits_toDigits (n : Nat) : IsDigits (Nat.toDigits 10 n) := by
  refine ⟨Nat.toDigits_ne_nil, fun c hc => ?_⟩
  have hd : c.isDigit := Nat.isDigit_of_mem_toDigits (by decide) (by decide) hc
  simpa [Char.isDigit, Text.isDigit, Char.le_def] using hd

namespace Number

theorem digitsValue_toDigits (n : Nat) : digitsValue (Nat.toDigits 10 n) = n :=
  Nat.ofDigitChars_ten_toDigits

theorem integer?_repr {n : Nat} (h : n < 9223372036854775808) :
    integer? n.repr = some (Int64.ofNat n) := by
  have htext : n.repr.toList = Nat.toDigits 10 n := Nat.toList_repr
  have hlt : n < Nat.pow 2 63 := h
  rw [integer?_of_isDigits (htext ▸ Shape.isDigits_toDigits n), htext, digitsValue_toDigits,
    if_pos hlt]

theorem integer?_toString {n : Int64} (h : 0 ≤ n) : integer? (toString n.toInt) = some n := by
  obtain ⟨m, hm⟩ := Int.eq_ofNat_of_zero_le (Int64.le_iff_toInt_le.1 h)
  have hlt : m < 9223372036854775808 := by
    have := n.toInt_lt
    omega
  have hback : Int64.ofNat m = n := by
    rw [← Int64.ofInt_eq_ofNat, ← hm, Int64.ofInt_toInt]
  rw [hm, ← hback]
  exact integer?_repr hlt

end Number

namespace Level

def rank : Level → Nat
  | assignment => 0
  | tier t => 6 - t.height
  | prefixed => 7
  | primary => 8

theorem rank_le (l : Level) : l.rank ≤ 8 := by
  cases l with
  | tier t => cases t <;> decide
  | _ => decide

theorem rank_injective {l l' : Level} (h : l.rank = l'.rank) : l = l' := by
  cases l with
  | tier t => cases l' with
    | tier t' => cases t <;> cases t' <;> first | rfl | cases h
    | _ => cases t <;> cases h
  | _ => cases l' with
    | tier t' => cases t' <;> cases h
    | _ => first | rfl | cases h

theorem rank_tighter {l : Level} (h : l.rank < 8) : l.tighter.rank = l.rank + 1 := by
  cases l with
  | tier t => cases t <;> rfl
  | primary => exact absurd h (by decide)
  | _ => rfl

theorem rank_tier (op : BinaryOp) : (tier op.tier).rank = op.precedence := by
  cases op <;> rfl

theorem rank_operand (op : BinaryOp) : op.tier.operand.rank = op.precedence + 1 := by
  cases op <;> rfl

end Level

namespace Expr

/-- What can stand where something tight is asked for can stand where less is asked for. -/
theorem Derives.loosen {l l' : Level} {ts : List Token} {e : Expr} (h : Derives l ts e)
    (hr : l'.rank ≤ l.rank) : Derives l' ts e := by
  rcases Nat.eq_or_lt_of_le hr with heq | hlt
  · rw [Level.rank_injective heq]
    exact h
  · have htighter : l'.tighter.rank = l'.rank + 1 :=
      Level.rank_tighter (Nat.lt_of_lt_of_le hlt l.rank_le)
    exact .tighter (h.loosen (by omega))
termination_by l.rank - l'.rank

def level : Expr → Level
  | literal _ _ | var _ _ => .primary
  | unary _ _ _ => .prefixed
  | binary op _ _ _ => .tier op.tier
  | assign _ _ _ => .assignment

theorem rank_level (e : Expr) : e.level.rank = e.precedence := by
  cases e with
  | binary op _ _ _ => exact Level.rank_tier op
  | _ => rfl

theorem derives_parenthesise {e : Expr} {ps : List Piece}
    (h : ∀ us, Spelled ps us → ∃ e', e'.bare = e.bare ∧ Derives e.level us e') {place : Level}
    {n : Nat} (hn : place.rank = n) {ts : List Token} (hs : Spelled (parenthesise n e ps) ts) :
    ∃ e', e'.bare = e.bare ∧ Derives place ts e' := by
  unfold parenthesise at hs
  split at hs
  · obtain ⟨o, _, rfl, ho, hrest⟩ := hs.cons
    obtain ⟨us, _, rfl, hps, hlast⟩ := hrest.append
    obtain ⟨c, rfl, hc⟩ := hlast.singleton
    obtain ⟨e', he, hd⟩ := h us hps
    have hprimary : Derives .primary (o :: (us ++ [c])) e' :=
      .parens ho (hd.loosen (Nat.zero_le _)) hc
    exact ⟨e', he, hprimary.loosen place.rank_le⟩
  · next hr =>
    obtain ⟨e', he, hd⟩ := h ts hs
    have hrank : place.rank ≤ e.level.rank := by
      rw [hn, rank_level]
      exact Nat.le_of_not_lt hr
    exact ⟨e', he, hd.loosen hrank⟩

theorem leaf_piece {v : Value} (hv : v.Writable) {t : Token} (h : v.piece.Spells t) :
    Leaf t (literal v t.location) := by
  cases v with
  | int n =>
    obtain ⟨hk, ht⟩ := h
    exact .integer hk (by rw [ht, Number.integer?_toString hv])
  | real x => exact .real h.1 h.2
  | bool b => exact .truth h
  | char s =>
    obtain ⟨hk, ht⟩ := h
    have hl : Leaf t (literal (.char (Text.Quoted.decode t.text)) t.location) := .text hk
    rw [ht, Text.Quoted.decode_encode] at hl
    exact hl
  | pos _ | frame _ | axis _ => exact hv.elim

/-- The pieces of an expression derive it, wherever its tokens are. -/
theorem derives_pieces {e : Expr} (he : e.Writable) {ts : List Token} (h : Spelled e.pieces ts) :
    ∃ e', e'.bare = e.bare ∧ Derives e.level ts e' := by
  induction e generalizing ts with
  | literal v l =>
    obtain ⟨t, rfl, ht⟩ := h.singleton
    exact ⟨literal v t.location, rfl, .leaf (leaf_piece he ht)⟩
  | var name l =>
    obtain ⟨t, rfl, hk, rfl⟩ := h.singleton
    exact ⟨var t.text t.location, rfl, .leaf (.name (by simp [hk]))⟩
  | unary op e l ih =>
    obtain ⟨t, us, rfl, ht, hs⟩ := h.cons
    have hprefixed : Level.prefixed.rank = 7 := rfl
    obtain ⟨e', he', hd⟩ := derives_parenthesise (fun us => ih he) hprefixed hs
    exact ⟨_, by simp [bare, he'], .unary ht hd⟩
  | binary op a b l iha ihb =>
    obtain ⟨us, vs, rfl, ha, hs⟩ := h.append
    obtain ⟨o, vs, rfl, ho, hb⟩ := hs.cons
    obtain ⟨a', ha', hda⟩ := derives_parenthesise (fun us => iha he.1) (Level.rank_tier op) ha
    obtain ⟨b', hb', hdb⟩ := derives_parenthesise (fun us => ihb he.2) (Level.rank_operand op) hb
    exact ⟨_, by simp [bare, ha', hb'], .binary hda ho hdb (origin?_append hda.origin _)⟩
  | assign target e l _ ihe =>
    obtain ⟨name, hn⟩ := Option.isSome_iff_exists.1 he.1
    obtain ⟨place, rfl⟩ := eq_var_of_varName? hn
    obtain ⟨us, vs, rfl, ht, hs⟩ := h.append
    obtain ⟨o, vs, rfl, ho, hv⟩ := hs.cons
    obtain ⟨t, rfl, hk, rfl⟩ := ht.singleton
    obtain ⟨e', he', hd⟩ := ihe he.2 hv
    have hvar : Derives .primary [t] (var t.text t.location) := .leaf (.name (by simp [hk]))
    exact ⟨_, by simp [bare, he'],
      .assign hvar ho (hd.loosen (Nat.zero_le _)) (origin?_append hvar.origin _)⟩

end Expr

end ArmLang
