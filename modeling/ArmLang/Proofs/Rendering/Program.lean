import ArmLang.Program.Read
import ArmLang.Proofs.Rendering.Body
import ArmLang.Proofs.Rendering.Spelling

namespace ArmLang

def Kind.isExpr : Kind → Bool
  | input | output | assign | equal | notEqual | lessEqual | greaterEqual | less | greater
  | plus | minus | times | divide | and | or | not | real | integer | text | leftParen
  | rightParen | identifier | keyword (.truth _) | keyword .pi => true
  | _ => false

theorem Expr.Leaf.isExpr {t : Token} {e : Expr} (h : Leaf t e) : t.kind.isExpr = true := by
  cases h with
  | truth hk | pi hk | integer hk _ | real hk _ | text hk =>
    rw [hk]
    rfl
  | name hk =>
    simp only [List.mem_cons, List.not_mem_nil, or_false] at hk
    rcases hk with hk | hk | hk <;> rw [hk] <;> rfl

theorem UnaryOp.isExpr_kind (op : UnaryOp) : op.kind.isExpr = true := by
  cases op <;> rfl

theorem BinaryOp.isExpr_kind (op : BinaryOp) : op.kind.isExpr = true := by
  cases op <;> rfl

theorem Expr.Derives.isExpr {level : Level} {ts : List Token} {e : Expr}
    (h : Derives level ts e) : ∀ t ∈ ts, t.kind.isExpr = true := by
  induction h with
  | leaf h => simpa using h.isExpr
  | parens ho _ hc ih => simpa [ho, hc, Kind.isExpr, or_imp, forall_and] using ih
  | unary ht _ ih => simpa [ht, UnaryOp.isExpr_kind] using ih
  | binary _ ho _ _ iha ihb =>
    simpa [ho, BinaryOp.isExpr_kind, or_imp, forall_and] using ⟨iha, ihb⟩
  | assign _ ho _ _ iht ihe =>
    simpa [ho, Kind.isExpr, or_imp, forall_and] using ⟨iht, ihe⟩
  | tighter _ ih => exact ih

namespace Statement

theorem readItem_of_isExpr {t : Token} (h : t.kind.isExpr = true) {s : List Token}
    (hdot : ∀ u ∈ s.head?, u.kind ≠ .dot) (stop : Location) :
    readItem t stop s = (readEvaluation stop (t :: s)).map some := by
  rw [readItem.eq_def]
  split
  · next hk => rw [hk] at h; cases h
  · next hk => rw [hk] at h; cases h
  · next hk => rw [hk] at h; cases h
  · next hk => rw [hk] at h; cases h
  · next hk => rw [hk] at h; cases h
  · next hk => rw [hk] at h; cases h
  · next hk => rw [hk] at h; cases h
  · split
    · exact absurd rfl (hdot _ rfl)
    · rfl
  · rfl

theorem closesBody_of_isExpr {k : Kind} (h : k.isExpr = true) : closesBody k = false := by
  unfold Kind.isExpr at h
  split at h <;> first | rfl | cases h

theorem lines_of_derives {e : Expr} {ts : List Token} {nl : Token}
    (h : Expr.Derives .assignment ts e) (hnl : nl.kind = .lineEnd) :
    Lines (ts ++ [nl]) [evaluate e] := by
  have hne : ts ≠ [] := by
    rintro rfl
    cases h.origin
  obtain ⟨t, us, rfl⟩ := List.exists_cons_of_ne_nil hne
  have hkinds := h.isExpr
  have ht := hkinds t List.mem_cons_self
  rw [List.cons_append]
  apply lines_of_readItem_line (closesBody_of_isExpr ht)
  intro stop rest
  have hdot : ∀ u ∈ ((us ++ [nl]) ++ rest).head?, u.kind ≠ .dot := by
    intro u hu hk
    cases us with
    | nil =>
      cases hu
      rw [hnl] at hk
      cases hk
    | cons v us =>
      cases hu
      have hu := hkinds u (List.mem_cons_of_mem _ List.mem_cons_self)
      rw [hk] at hu
      cases hu
  have hread : Expr.reader.Takes (t :: us) (nl :: rest) e :=
    fun stop => h.reads stop _ (Expr.closed_cons (by rw [hnl]; rfl) rest)
  have hr := readEvaluation_takes hread hnl stop
  rw [readItem_of_isExpr ht hdot]
  rw [List.cons_append, List.cons_append] at hr
  rw [hr, Reading.map_ok]
  rfl

theorem lines_evaluate {e : Expr} (he : e.Writable) {ts : List Token} {nl : Token}
    (h : Spelled e.pieces ts) (hnl : nl.kind = .lineEnd) :
    ∃ e', e'.bare = e.bare ∧ Lines (ts ++ [nl]) [evaluate e'] := by
  obtain ⟨e', hb, hd⟩ := Expr.derives_pieces he h
  exact ⟨e', hb, lines_of_derives (hd.loosen (Nat.zero_le _)) hnl⟩

theorem lines_declare {d k : Token} {type : DataType} {us : List Token} {s : Statement}
    (hd : d.kind = .keyword .decl) (hk : k.kind = .keyword (.type type))
    (ht : type.isStructured = false)
    (h : ∀ rest, (readScalarDeclaration type d.location).Takes us rest s) :
    Lines (d :: k :: us) [s] := by
  apply lines_of_readItem_line (by rw [hd]; rfl)
  intro stop rest
  have hr := readDeclaration_takes_scalar hk ht (h rest) stop
  exact readItem_of_reading (by rw [readItem.eq_def, hd]) hr

theorem lines_setField {n p f a nl : Token} {us : List Token} {e : Expr}
    (hn : n.kind = .identifier) (hp : p.kind = .dot) (hf : f.kind = .identifier)
    (hm : f.text ∈ Pose.fieldNames ++ Joints.fieldNames) (ha : a.kind = .assign)
    (he : ∀ rest, Expr.Closed rest → Expr.reader.Takes us rest e) (hnl : nl.kind = .lineEnd) :
    Lines (n :: p :: f :: a :: (us ++ [nl])) [setField n.text f.text e n.location] := by
  have hs : n :: p :: f :: a :: (us ++ [nl]) = n :: ((p :: f :: a :: us) ++ [nl]) := rfl
  rw [hs]
  apply lines_of_readItem (by rw [hn]; rfl) hnl
  intro stop rest
  have hclosed : Expr.Closed (nl :: rest) := Expr.closed_cons (by rw [hnl]; rfl) rest
  have hr := readSetField_takes (n := n) hf hm ha (he (nl :: rest) hclosed) stop
  obtain ⟨kind, text, place⟩ := p
  cases hp
  rw [readItem.eq_def, hn]
  simp only [List.cons_append] at hr ⊢
  rw [hr, Reading.after_ok, Reading.map_ok]
  simp only [List.length_cons]
  congr 1
  omega

mutual

/-- A statement is read back from the lines it is rendered to, whatever comes before or after. -/
theorem lines_pieces {s : Statement} (hs : Formed Expr.Writable s) {ts : List Token}
    (h : Spelled s.pieces ts) : ∃ s', s'.bare = s.bare ∧ Lines ts [s'] := by
  match s with
  | block _ _ => exact hs.elim
  | routine name _ body _ =>
    obtain ⟨d, _, rfl, hd, h1⟩ := h.cons
    obtain ⟨n, _, rfl, ⟨hn, rfl⟩, h2⟩ := h1.cons
    obtain ⟨o, _, rfl, ho, h3⟩ := h2.cons
    obtain ⟨c, _, rfl, hc, h4⟩ := h3.cons
    obtain ⟨nl, _, rfl, hnl, h5⟩ := h4.cons
    obtain ⟨us, _, rfl, hus, h6⟩ := h5.append
    obtain ⟨e, _, rfl, he, h7⟩ := h6.cons
    obtain ⟨nl', rfl, hnl'⟩ := h7.singleton
    obtain ⟨body', hb, hl⟩ := lines_piecesAll hs hus
    have hbody : Lines (nl :: us) body' := (lines_lineEnd hnl).append hl
    obtain ⟨start, hlines⟩ := lines_routine hd hn ho hc hbody he hnl'
    exact ⟨routine n.text start body' d.location, by rw [bare, bare, hb], hlines⟩
  | motion command target args _ =>
    obtain ⟨⟨path, relative, rfl⟩, place, rfl⟩ := hs
    obtain ⟨m, _, rfl, hm, h1⟩ := h.cons
    obtain ⟨t, _, rfl, ⟨ht, rfl⟩, h2⟩ := h1.cons
    obtain ⟨nl, rfl, hnl⟩ := h2.singleton
    rw [motionPiece, Keyword.ofText?_text] at hm
    have hk : m.kind = .keyword (.motion path relative) := hm
    refine ⟨motion m.kind.name t.text [("position", .var t.text t.location)] m.location, ?_, ?_⟩
    · rw [hk]
      rfl
    · rw [show m :: t :: [nl] = m :: ([t] ++ [nl]) from rfl]
      apply lines_of_readItem (by rw [hk]; rfl) hnl
      intro stop rest
      have hr := readMotion_takes (m := m) ht m.kind.name (nl :: rest) stop
      exact readItem_of_reading (by rw [readItem.eq_def, hk]) hr
  | declare type name init _ =>
    obtain ⟨d, _, rfl, hd, h1⟩ := h.cons
    obtain ⟨k, _, rfl, hk, h2⟩ := h1.cons
    obtain ⟨n, _, rfl, ⟨hn, rfl⟩, h3⟩ := h2.cons
    obtain ⟨us, _, rfl, hus, h4⟩ := h3.append
    obtain ⟨nl, rfl, hnl⟩ := h4.singleton
    obtain ⟨init', hb, ht⟩ := readScalarDeclaration_takes hs.2 hus hn hnl d.location
    refine ⟨declare type n.text init' d.location, by rw [bare, bare, hb], ?_⟩
    exact lines_declare hd hk hs.1 ht
  | declareFields type name fields _ =>
    obtain ⟨d, _, rfl, hd, h1⟩ := h.cons
    obtain ⟨k, _, rfl, hk, h2⟩ := h1.cons
    obtain ⟨n, _, rfl, ⟨hn, rfl⟩, h3⟩ := h2.cons
    obtain ⟨us, _, rfl, hus, h4⟩ := h3.append
    obtain ⟨nl, rfl, hnl⟩ := h4.singleton
    obtain ⟨fields', hb, ht⟩ := readCompound_takes hs hus
    refine ⟨declareFields type n.text fields' d.location, by rw [bare, bare, hb], ?_⟩
    apply lines_of_readItem_line (by rw [hd]; rfl)
    intro stop rest
    have hr := readDeclaration_takes_compound (d := d) hk hn (ht nl rest hnl) hnl stop
    exact readItem_of_reading (by rw [readItem.eq_def, hd]) hr
  | setField target field value _ =>
    obtain ⟨n, _, rfl, ⟨hn, rfl⟩, h1⟩ := h.cons
    obtain ⟨p, _, rfl, hp, h2⟩ := h1.cons
    obtain ⟨f, _, rfl, ⟨hf, rfl⟩, h3⟩ := h2.cons
    obtain ⟨a, _, rfl, ha, h4⟩ := h3.cons
    obtain ⟨us, _, rfl, hus, h5⟩ := h4.append
    obtain ⟨nl, rfl, hnl⟩ := h5.singleton
    obtain ⟨value', hb, ht⟩ := Expr.takes_pieces hs.2 hus
    refine ⟨setField n.text f.text value' n.location, by rw [bare, bare, hb], ?_⟩
    exact lines_setField hn hp hf hs.1 ha ht hnl
  | ifThen condition _ body _ =>
    obtain ⟨i, _, rfl, hi, h1⟩ := h.cons
    obtain ⟨cs, _, rfl, hcs, h2⟩ := h1.append
    obtain ⟨th, _, rfl, hth, h3⟩ := h2.cons
    obtain ⟨nl, _, rfl, hnl, h4⟩ := h3.cons
    obtain ⟨us, _, rfl, hus, h5⟩ := h4.append
    obtain ⟨e, _, rfl, he, h6⟩ := h5.cons
    obtain ⟨nl', rfl, hnl'⟩ := h6.singleton
    obtain ⟨condition', hb, ht⟩ := Expr.takes_pieces hs.1 hcs
    obtain ⟨body', hb', hl⟩ := lines_piecesAll hs.2 hus
    obtain ⟨start, hlines⟩ := lines_ifThen hi ht hth hnl hl he hnl'
    exact ⟨ifThen condition' start body' i.location, by rw [bare, bare, hb, hb'], hlines⟩
  | ifElse condition _ body _ elseBody _ =>
    obtain ⟨i, _, rfl, hi, h1⟩ := h.cons
    obtain ⟨cs, _, rfl, hcs, h2⟩ := h1.append
    obtain ⟨th, _, rfl, hth, h3⟩ := h2.cons
    obtain ⟨nl, _, rfl, hnl, h4⟩ := h3.cons
    obtain ⟨us, _, rfl, hus, h5⟩ := h4.append
    obtain ⟨el, _, rfl, hel, h6⟩ := h5.cons
    obtain ⟨nl₁, _, rfl, hnl₁, h7⟩ := h6.cons
    obtain ⟨vs, _, rfl, hvs, h8⟩ := h7.append
    obtain ⟨e, _, rfl, he, h9⟩ := h8.cons
    obtain ⟨nl₂, rfl, hnl₂⟩ := h9.singleton
    obtain ⟨condition', hb, ht⟩ := Expr.takes_pieces hs.1 hcs
    obtain ⟨body', hb₁, hl₁⟩ := lines_piecesAll hs.2.1 hus
    obtain ⟨elseBody', hb₂, hl₂⟩ := lines_piecesAll hs.2.2 hvs
    obtain ⟨start, start', hlines⟩ :=
      lines_ifElse hi ht hth hnl hl₁ hel hnl₁ hl₂ he hnl₂
    exact ⟨ifElse condition' start body' start' elseBody' i.location,
      by rw [bare, bare, hb, hb₁, hb₂], hlines⟩
  | wait seconds _ =>
    obtain ⟨w, _, rfl, hw, h1⟩ := h.cons
    obtain ⟨o, _, rfl, ho, h2⟩ := h1.cons
    obtain ⟨n, _, rfl, ⟨hn, hx⟩, h3⟩ := h2.cons
    obtain ⟨c, _, rfl, hc, h4⟩ := h3.cons
    obtain ⟨nl, rfl, hnl⟩ := h4.singleton
    refine ⟨wait seconds w.location, rfl, ?_⟩
    rw [show w :: o :: n :: c :: [nl] = w :: ([o, n, c] ++ [nl]) from rfl]
    apply lines_of_readItem (by rw [hw]; rfl) hnl
    intro stop rest
    have hr := readWait_takes (w := w) ho hn hx hc (nl :: rest) stop
    exact readItem_of_reading (by rw [readItem.eq_def, hw]) hr
  | evaluate e =>
    obtain ⟨us, _, rfl, hus, hlast⟩ := Spelled.append h
    obtain ⟨nl, rfl, hnl⟩ := hlast.singleton
    obtain ⟨e', he', hl⟩ := lines_evaluate hs hus hnl
    exact ⟨evaluate e', congrArg evaluate he', hl⟩

theorem lines_piecesAll {ss : List Statement} (hs : FormedAll Expr.Writable ss) {ts : List Token}
    (h : Spelled (piecesAll ss) ts) : ∃ ss', bareAll ss' = bareAll ss ∧ Lines ts ss' := by
  match ss with
  | [] =>
    cases h
    exact ⟨[], rfl, lines_nil⟩
  | s :: ss =>
    obtain ⟨us, vs, rfl, hus, hvs⟩ := Spelled.append h
    obtain ⟨s', hb, hl⟩ := lines_pieces hs.1 hus
    obtain ⟨ss', hb', hl'⟩ := lines_piecesAll hs.2 hvs
    exact ⟨s' :: ss', by rw [bareAll, bareAll, hb, hb'], hl.append hl'⟩

end

end Statement

namespace Program

theorem takeWhile_significant {ts rest : List Token}
    (h : ∀ t ∈ ts, t.kind ≠ .semicolon ∧ t.kind ≠ .fileEnd)
    (hrest : ∀ t ∈ rest.head?, t.kind = .fileEnd) :
    (significant (ts ++ rest)).takeWhile (·.kind ≠ .fileEnd) = ts := by
  have hts : ts.filter (·.kind ≠ .semicolon) = ts := by
    rw [List.filter_eq_self]
    intro t ht
    simpa using (h t ht).1
  have hend : (rest.filter (·.kind ≠ .semicolon)).takeWhile (·.kind ≠ .fileEnd) = [] := by
    cases rest with
    | nil => rfl
    | cons t rest =>
      have ht : t.kind = .fileEnd := hrest t rfl
      rw [List.filter_cons_of_pos (by simp [ht]), List.takeWhile_cons_of_neg (by simp [ht])]
  rw [significant, List.filter_append, hts, List.takeWhile_append_of_pos, hend, List.append_nil]
  intro t ht
  simpa using (h t ht).2

/-- A rendered program can be written down and, however its numbers are written and wherever its
tokens are, reads back as the same program but for the places, with nothing to note. -/
theorem read_pieces {p : Program} (h : Statement.FormedAll Expr.Writable p.body) :
    (∃ ts, Spelled p.pieces ts) ∧
      ∀ ts rest, Spelled p.pieces ts → (∀ t ∈ rest.head?, t.kind = .fileEnd) →
        (read (ts ++ rest)).1.bare = p.bare ∧ (read (ts ++ rest)).2 = [] := by
  have hproper : ∀ q ∈ p.pieces, q.Proper := Statement.proper_piecesAll h
  refine ⟨exists_spelled hproper, fun ts rest hts hrest => ?_⟩
  have htokens := takeWhile_significant (hts.kind hproper) hrest
  obtain ⟨ss, hb, hl⟩ := Statement.lines_piecesAll h hts
  have hbody := hl false (endLocation (significant (ts ++ rest))) []
  rw [List.append_nil, Statement.readBody] at hbody
  constructor
  · rw [Program.bare, Program.bare, ← hb, read]
    dsimp only
    rw [htokens, hbody, Statement.Body.prepend, List.append_nil]
  · rw [read]
    dsimp only
    rw [htokens, hbody]
    rfl

/-- A conditional whose condition and assigned value cannot do without their parentheses. -/
def choice : Program :=
  ⟨.unknown,
    [.ifElse (.unary .not (.binary .or (.var "a" .unknown) (.var "b" .unknown) .unknown) .unknown)
      .unknown
      [.setField "p" "x" (.binary .subtract (.var "a" .unknown)
        (.binary .subtract (.var "b" .unknown) (.literal (.int 1) .unknown) .unknown) .unknown)
        .unknown]
      .unknown [.wait 0.5 .unknown] .unknown]⟩

def choiceTokens : List Token :=
  [⟨.keyword .ifWord, "IF", ⟨1, 1⟩⟩, ⟨.not, "NOT", ⟨1, 4⟩⟩, ⟨.leftParen, "(", ⟨1, 8⟩⟩,
    ⟨.identifier, "a", ⟨1, 9⟩⟩, ⟨.or, "OR", ⟨1, 11⟩⟩, ⟨.identifier, "b", ⟨1, 14⟩⟩,
    ⟨.rightParen, ")", ⟨1, 15⟩⟩, ⟨.keyword .thenWord, "THEN", ⟨1, 17⟩⟩, ⟨.lineEnd, "", ⟨1, 21⟩⟩,
    ⟨.identifier, "p", ⟨2, 3⟩⟩, ⟨.dot, ".", ⟨2, 4⟩⟩, ⟨.identifier, "x", ⟨2, 5⟩⟩,
    ⟨.assign, "=", ⟨2, 7⟩⟩, ⟨.identifier, "a", ⟨2, 9⟩⟩, ⟨.minus, "-", ⟨2, 11⟩⟩,
    ⟨.leftParen, "(", ⟨2, 13⟩⟩, ⟨.identifier, "b", ⟨2, 14⟩⟩, ⟨.minus, "-", ⟨2, 16⟩⟩,
    ⟨.integer, "1", ⟨2, 18⟩⟩, ⟨.rightParen, ")", ⟨2, 19⟩⟩, ⟨.lineEnd, "", ⟨2, 20⟩⟩,
    ⟨.keyword .elseWord, "ELSE", ⟨3, 1⟩⟩, ⟨.lineEnd, "", ⟨3, 5⟩⟩,
    ⟨.keyword .wait, "WAIT", ⟨4, 3⟩⟩, ⟨.leftParen, "(", ⟨4, 7⟩⟩, ⟨.real, "5e-1", ⟨4, 8⟩⟩,
    ⟨.rightParen, ")", ⟨4, 12⟩⟩, ⟨.lineEnd, "", ⟨4, 13⟩⟩,
    ⟨.keyword .endIf, "ENDIF", ⟨5, 1⟩⟩, ⟨.lineEnd, "", ⟨5, 6⟩⟩]

theorem read_choiceTokens :
    Statement.FormedAll Expr.Writable choice.body ∧ Spelled choice.pieces choiceTokens ∧
      (read (choiceTokens ++ [⟨.fileEnd, "", ⟨6, 1⟩⟩])).1.bare = choice.bare ∧
      (read (choiceTokens ++ [⟨.fileEnd, "", ⟨6, 1⟩⟩])).2 = [] := by
  have hnumber : Number.real? "0.5" = some 0.5 := by decide +kernel
  have hcondition : Expr.Writable
      (.unary .not (.binary .or (.var "a" .unknown) (.var "b" .unknown) .unknown) .unknown) :=
    ⟨trivial, trivial⟩
  have hone : (0 : Int64) ≤ 1 := by decide
  have hbody : Statement.FormedAll Expr.Writable choice.body :=
    ⟨⟨hcondition, ⟨⟨by decide, trivial, trivial, hone⟩, trivial⟩, ⟨_, hnumber⟩, trivial⟩, trivial⟩
  have htokens : Spelled choice.pieces choiceTokens := by decide +kernel
  exact ⟨hbody, htokens, (read_pieces hbody).2 choiceTokens _ htokens fun t ht => by cases ht; rfl⟩

end Program

end ArmLang
