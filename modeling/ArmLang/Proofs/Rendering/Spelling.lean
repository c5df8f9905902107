import ArmLang.Proofs.Rendering.Basic

namespace ArmLang

theorem Spelled.append {ps qs : List Piece} {ts : List Token} (h : Spelled (ps ++ qs) ts) :
    ∃ us vs, ts = us ++ vs ∧ Spelled ps us ∧ Spelled qs vs := by
  induction ps generalizing ts with
  | nil => exact ⟨[], ts, rfl, .nil, h⟩
  | cons p ps ih =>
    obtain ⟨t, ts, ht, hs, rfl⟩ := List.forall₂_cons_left_iff.1 h
    obtain ⟨us, vs, rfl, hp, hq⟩ := ih hs
    exact ⟨t :: us, vs, rfl, .cons ht hp, hq⟩

theorem Spelled.cons {p : Piece} {ps : List Piece} {ts : List Token} (h : Spelled (p :: ps) ts) :
    ∃ t us, ts = t :: us ∧ p.Spells t ∧ Spelled ps us := by
  obtain ⟨t, us, ht, hs, rfl⟩ := List.forall₂_cons_left_iff.1 h
  exact ⟨t, us, rfl, ht, hs⟩

theorem Spelled.singleton {p : Piece} {ts : List Token} (h : Spelled [p] ts) :
    ∃ t, ts = [t] ∧ p.Spells t := by
  obtain ⟨t, us, rfl, ht, hs⟩ := h.cons
  cases hs
  exact ⟨t, rfl, ht⟩

/-- Whether the piece can be said, and neither begins a comment nor ends the file. -/
def Piece.Proper : Piece → Prop
  | mark k | word k _ => k ≠ .semicolon ∧ k ≠ .fileEnd
  | real x | seconds x => ∃ text, Number.real? text = some x

theorem Piece.Proper.exists_spells {p : Piece} (h : p.Proper) : ∃ t, p.Spells t := by
  cases p with
  | mark k => exact ⟨⟨k, "", .unknown⟩, rfl⟩
  | word k text => exact ⟨⟨k, text, .unknown⟩, rfl, rfl⟩
  | real x =>
    obtain ⟨text, ht⟩ := h
    exact ⟨⟨.real, text, .unknown⟩, rfl, ht⟩
  | seconds x =>
    obtain ⟨text, ht⟩ := h
    exact ⟨⟨.real, text, .unknown⟩, by simp, ht⟩

theorem Piece.Proper.kind {p : Piece} {t : Token} (h : p.Proper) (ht : p.Spells t) :
    t.kind ≠ .semicolon ∧ t.kind ≠ .fileEnd := by
  cases p with
  | mark k =>
    rw [show t.kind = k from ht]
    exact h
  | word k text =>
    rw [ht.1]
    exact h
  | real x =>
    rw [ht.1]
    decide
  | seconds x =>
    obtain ⟨hk, -⟩ := ht
    simp only [List.mem_cons, List.not_mem_nil, or_false] at hk
    rcases hk with hk | hk <;> rw [hk] <;> decide

/-- What consists of proper pieces can be written down. -/
theorem exists_spelled {ps : List Piece} (h : ∀ p ∈ ps, p.Proper) : ∃ ts, Spelled ps ts := by
  induction ps with
  | nil => exact ⟨[], .nil⟩
  | cons p ps ih =>
    obtain ⟨t, ht⟩ := (h p List.mem_cons_self).exists_spells
    obtain ⟨ts, hts⟩ := ih fun q hq => h q (List.mem_cons_of_mem _ hq)
    exact ⟨t :: ts, List.Forall₂.cons ht hts⟩

theorem Spelled.kind {ps : List Piece} {ts : List Token} (hs : Spelled ps ts)
    (h : ∀ p ∈ ps, p.Proper) : ∀ t ∈ ts, t.kind ≠ .semicolon ∧ t.kind ≠ .fileEnd := by
  induction hs with
  | nil =>
    intro t ht
    cases ht
  | cons hp _ ih =>
    rw [List.forall_mem_cons] at h ⊢
    exact ⟨h.1.kind hp, ih h.2⟩

namespace Expr

theorem proper_parenthesise {ps : List Piece} (h : ∀ p ∈ ps, p.Proper) (place : Nat) (e : Expr) :
    ∀ p ∈ parenthesise place e ps, p.Proper := by
  unfold parenthesise
  split
  · simpa [or_imp, forall_and, Piece.Proper] using h
  · exact h

theorem proper_piece {v : Value} (h : v.Writable) : v.piece.Proper := by
  cases v with
  | real x => exact h
  | _ => simp [Value.piece, Piece.Proper]

theorem proper_pieces {e : Expr} (he : e.Writable) : ∀ p ∈ e.pieces, p.Proper := by
  induction e with
  | literal v _ =>
    rw [pieces, List.forall_mem_singleton]
    exact proper_piece he
  | var name _ => simp [pieces, Piece.Proper]
  | unary op e _ ih =>
    have hop : Piece.Proper (.mark op.kind) := by
      cases op <;> exact ⟨by decide, by decide⟩
    rw [pieces, List.forall_mem_cons]
    exact ⟨hop, proper_parenthesise (ih he) _ e⟩
  | binary op a b _ iha ihb =>
    have hop : Piece.Proper (.mark op.kind) := by
      cases op <;> exact ⟨by decide, by decide⟩
    rw [pieces, List.forall_mem_append, List.forall_mem_cons]
    exact ⟨proper_parenthesise (iha he.1) _ a, hop, proper_parenthesise (ihb he.2) _ b⟩
  | assign target e _ iht ihe =>
    obtain ⟨name, hn⟩ := Option.isSome_iff_exists.1 he.1
    obtain ⟨place, rfl⟩ := eq_var_of_varName? hn
    have hassign : Piece.Proper (.mark .assign) := ⟨by decide, by decide⟩
    rw [pieces, List.forall_mem_append, List.forall_mem_cons]
    exact ⟨proper_parenthesise (iht trivial) _ _, hassign, ihe he.2⟩

end Expr

namespace Statement

theorem proper_fieldPieces {fields : List (String × Expr)} (h : ∀ f ∈ fields, f.2.Writable) :
    ∀ p ∈ fieldPieces fields, p.Proper := by
  induction fields with
  | nil => simp [fieldPieces]
  | cons f fields ih =>
    rw [List.forall_mem_cons] at h
    have hf := Expr.proper_pieces h.1
    have hmore := ih h.2
    simp only [fieldPieces, List.forall_mem_cons, List.forall_mem_append]
    exact ⟨⟨by decide, by decide⟩, ⟨by decide, by decide⟩, hf, hmore⟩

theorem proper_compoundPieces {fields : List (String × Expr)} (h : ∀ f ∈ fields, f.2.Writable) :
    ∀ p ∈ compoundPieces fields, p.Proper := by
  cases fields with
  | nil => simp [compoundPieces]
  | cons f fields =>
    rw [List.forall_mem_cons] at h
    have hf := Expr.proper_pieces h.1
    have hmore := proper_fieldPieces h.2
    simpa [compoundPieces, Piece.Proper, or_imp, forall_and] using ⟨hf, hmore⟩

mutual

theorem proper_pieces {s : Statement} (hs : Formed Expr.Writable s) :
    ∀ p ∈ s.pieces, p.Proper := by
  match s with
  | block _ _ => exact hs.elim
  | routine _ _ body _ =>
    have hbody := proper_piecesAll hs
    simpa [pieces, Piece.Proper, or_imp, forall_and] using hbody
  | motion _ _ _ _ =>
    obtain ⟨⟨path, relative, rfl⟩, -⟩ := hs
    simp [pieces, motionPiece, Keyword.ofText?_text, Piece.Proper]
  | declare _ _ init _ =>
    have hinit : ∀ p ∈ scalarPieces init, p.Proper := by
      cases init with
      | none => simp [scalarPieces]
      | some e =>
        rw [scalarPieces, List.forall_mem_cons]
        exact ⟨⟨by decide, by decide⟩, Expr.proper_pieces (hs.2 e rfl)⟩
    simpa [pieces, Piece.Proper, or_imp, forall_and] using hinit
  | declareFields _ _ fields _ =>
    have hfields := proper_compoundPieces fun f hf => (hs f hf).2
    simpa [pieces, Piece.Proper, or_imp, forall_and] using hfields
  | setField _ _ value _ =>
    have hvalue := Expr.proper_pieces hs.2
    simpa [pieces, Piece.Proper, or_imp, forall_and] using hvalue
  | ifThen condition _ body _ =>
    have hcondition := Expr.proper_pieces hs.1
    have hbody := proper_piecesAll hs.2
    simpa [pieces, Piece.Proper, or_imp, forall_and] using ⟨hcondition, hbody⟩
  | ifElse condition _ body _ elseBody _ =>
    have hcondition := Expr.proper_pieces hs.1
    have hbody := proper_piecesAll hs.2.1
    have helse := proper_piecesAll hs.2.2
    simpa [pieces, Piece.Proper, or_imp, forall_and] using ⟨hcondition, hbody, helse⟩
  | wait seconds _ =>
    have hseconds : ∃ text, Number.real? text = some seconds := hs
    simpa [pieces, Piece.Proper] using hseconds
  | evaluate e =>
    have he := Expr.proper_pieces hs
    simpa [pieces, Piece.Proper, or_imp, forall_and] using he

theorem proper_piecesAll {ss : List Statement} (hs : FormedAll Expr.Writable ss) :
    ∀ p ∈ piecesAll ss, p.Proper := by
  match ss with
  | [] => simp [piecesAll]
  | s :: ss =>
    rw [piecesAll, List.forall_mem_append]
    exact ⟨proper_pieces hs.1, proper_piecesAll hs.2⟩

end

end Statement

end ArmLang
